import IslandSurvival.Theorems.Rooms
import IslandSurvival.Theorems.Scenario
import IslandSurvival.Theorems.Users

/-! The loading barrier. A game starts when the counter of the players that have loaded reaches the counter
    of those who are online. `DeletePlayer` lowers the one before its broadcast and the other one after
    it, and a nested `DeletePlayer` compares them in between. As long as no comparison happens there, a
    game starts only when every online player has loaded, or after the time limit. -/

namespace IslandSurvival

/-! ### The trace -/

/-- The time of the last `SendGameLoading` of a room -/
def lastLoading (p : RoomPtr) : List Event → Option Int
  | [] => none
  | .gameLoading q now :: older => if q = p then some now else lastLoading p older
  | _ :: older => lastLoading p older

/-- The time limit of the last `SendGameLoading` of a room was seen to be over. -/
def timedOut (p : RoomPtr) : List Event → Bool
  | [] => false
  | .gameLoading q _ :: older => if q = p then false else timedOut p older
  | .loadTimeout q now :: older =>
    if q = p then (lastLoading p older).any fun began => decide (maxLoadingTimeSecond ≤ now - began)
    else timedOut p older
  | _ :: older => timedOut p older

/-- Every game started when everybody online had loaded, or after the time limit. -/
def startsJustified : List Event → Bool
  | [] => true
  | .gameStart p unreported :: older => (unreported.isEmpty || timedOut p older) && startsJustified older
  | _ :: older => startsJustified older

/-- Whenever the comparison in `DeletePlayer` was true, nobody who had left was counted as loaded. -/
def leavesCounted : List Event → Bool
  | [] => true
  | .leaveCheck _ overcounted passes :: older => (overcounted.isEmpty || !passes) && leavesCounted older
  | _ :: older => leavesCounted older

/-! ### A room -/

/-- What is pending between the updates of a loading room -/
inductive LoadWork
  | up
  | exiting (pos : Nat)
  | starting
  | timeout
deriving DecidableEq

/-- The slots that count as loaded -/
def Room.loaded (r : Room) : List Nat := r.slots.filter r.isLoadingSucceed

/-- The counters of a loading room, up to the pending work; `last` is when loading began and `out` whether
    the time limit is over. In a `fair` run nobody who has left was taken for a loaded player. Whoever is counted as loaded
    and has left is in the middle of its departure. -/
structure LoadRoom (fair : Prop) (work : List LoadWork) (r : Room) (last : Option Int) (out : Bool) : Prop where
  up : .up ∈ work → r.status = .waiting
  exiting : ∀ {i : Nat}, .exiting i ∈ work → i ∈ r.slots ∧ r.isOnline i = false ∧ r.status ≠ .waiting
  starting : .starting ∈ work → r.status ≠ .waiting ∧ (fair → r.unreported = [] ∨ out = true)
  timeout : .timeout ∈ work → r.status ≠ .waiting ∧ out = true
  counted : r.status = .loading → r.loadingSucceedCnt = r.loaded.length ∧ last = some r.loadingTimeSecond
  pending : r.status = .loading → ∀ {i : Nat}, i ∈ r.overcounted → .exiting i ∈ work

/-- A list that is filtered to at least as many elements by the stronger test -/
theorem filter_eq_nil_of_length {α : Type} {p q : α → Bool} :
    ∀ {l : List α}, (∀ x ∈ l, q x = true → p x = true) → (l.filter p).length ≤ (l.filter q).length →
      l.filter (fun x => p x && !q x) = []
  | [], _, _ => rfl
  | x :: l, imp, le => by
    have tail : (l.filter q).length ≤ (l.filter p).length := by
      rw [← List.countP_eq_length_filter, ← List.countP_eq_length_filter]
      exact List.countP_mono_left fun y hy => imp y (List.mem_cons_of_mem _ hy)
    have ih := filter_eq_nil_of_length (p := p) (q := q) (l := l) fun y hy => imp y (List.mem_cons_of_mem _ hy)
    have here := imp x List.mem_cons_self
    cases hp : p x <;> cases hq : q x <;> simp_all
    omega

namespace LoadRoom

variable {fair : Prop} {work : List LoadWork} {r : Room} {last : Option Int} {out : Bool} {pos : Nat}

/-- Nobody who left is counted, and the counters agree: everybody online has loaded. -/
theorem unreported_nil (h : LoadRoom fair work r last out) (counted : r.Counted) (status : r.status = .loading)
    (none : r.overcounted = []) (all : r.onlinePlayerCnt ≤ r.loadingSucceedCnt) : r.unreported = [] := by
  refine filter_eq_nil_of_length (fun i hi loaded => ?_) ?_
  · by_contra offline
    have mem : i ∈ r.overcounted := List.mem_filter.mpr ⟨hi, by simp [offline, loaded]⟩
    simp [none] at mem
  · have h₁ := counted.onlinePlayerCnt
    have h₂ := (h.counted status).1
    simp only [Room.members, List.length_map, Room.loaded] at h₁ h₂
    omega

/-- A run that was fair so far may turn out not to be. -/
theorem weaken {fair' : Prop} (h : LoadRoom fair work r last out) (imp : fair' → fair) :
    LoadRoom fair' work r last out where
  up := h.up
  exiting := h.exiting
  starting hm := ⟨(h.starting hm).1, fun hf => (h.starting hm).2 (imp hf)⟩
  timeout := h.timeout
  counted := h.counted
  pending := h.pending

/-- Updates that leave the slots and the counters as they are. -/
theorem congr {r' : Room} (h : LoadRoom fair work r last out) (slots : r'.playerCnt = r.playerCnt)
    (online : r'.isOnline = r.isOnline) (loaded : r'.isLoadingSucceed = r.isLoadingSucceed)
    (status : r'.status = r.status) (cnt : r'.loadingSucceedCnt = r.loadingSucceedCnt)
    (time : r'.loadingTimeSecond = r.loadingTimeSecond) : LoadRoom fair work r' last out where
  up := by rw [status]; exact h.up
  exiting := by simp only [Room.slots, slots, online, status]; exact h.exiting
  starting := by simp only [Room.unreported, Room.slots, slots, online, loaded, status]; exact h.starting
  timeout := by rw [status]; exact h.timeout
  counted := by simp only [Room.loaded, Room.slots, slots, loaded, status, cnt, time]; exact h.counted
  pending := by simp only [Room.overcounted, Room.slots, slots, online, loaded, status]; exact h.pending

/-- `SendGameLoading` ends. -/
theorem load (now : Int) : LoadRoom fair [] (r.startLoading now) (some now) false where
  up hm := absurd hm List.not_mem_nil
  exiting hm := absurd hm List.not_mem_nil
  starting hm := absurd hm List.not_mem_nil
  timeout hm := absurd hm List.not_mem_nil
  counted _ := by simp [Room.startLoading, Room.loaded]
  pending _ {i} hm := by
    have := (List.mem_filter.mp hm).2
    simp [Room.startLoading] at this

/-- `SendGameLoading` begins. -/
theorem begin (h : LoadRoom fair [] r last out) (status : r.status = .waiting) : LoadRoom fair [.up] r last out where
  up _ := status
  exiting hm := by simp at hm
  starting hm := by simp at hm
  timeout hm := by simp at hm
  counted := h.counted
  pending loading := by simp [status] at loading

/-- A player reports that it has loaded. -/
theorem report (h : LoadRoom fair [] r last out) (slot : pos ∈ r.slots) (online : r.isOnline pos = true)
    (unloaded : r.isLoadingSucceed pos = false) : LoadRoom fair [] (r.loadSlot pos) last out where
  up hm := absurd hm List.not_mem_nil
  exiting hm := absurd hm List.not_mem_nil
  starting hm := absurd hm List.not_mem_nil
  timeout hm := absurd hm List.not_mem_nil
  counted status := by
    obtain ⟨cnt, time⟩ := h.counted status
    refine ⟨?_, time⟩
    have cleared : Function.update (r.loadSlot pos).isLoadingSucceed pos false = r.isLoadingSucceed := by
      simp [Room.loadSlot, ← unloaded]
    have perm := Room.filter_update_false Room.slots_nodup slot (f := (r.loadSlot pos).isLoadingSucceed)
      (by simp [Room.loadSlot])
    have length := perm.length_eq
    rw [cleared, List.length_cons] at length
    simp only [Room.loaded] at cnt ⊢
    show r.loadingSucceedCnt + 1 = ((r.slots.filter (r.loadSlot pos).isLoadingSucceed).length : Int)
    omega
  pending status {i} hm := by
    refine h.pending status ?_
    obtain ⟨hi, hx⟩ := List.mem_filter.mp hm
    refine List.mem_filter.mpr ⟨hi, ?_⟩
    by_cases hpos : i = pos
    · subst hpos
      simp [Room.loadSlot, online] at hx
    · simpa [Room.loadSlot, hpos] using hx

/-- A slot goes offline. -/
theorem offline (h : LoadRoom fair work r last out) (slot : pos ∈ r.slots) (status : r.status ≠ .waiting) :
    LoadRoom fair (.exiting pos :: work) (r.setOffline pos) last out where
  up hm := h.up (List.mem_of_ne_of_mem (by simp) hm)
  exiting {i} hm := by
    by_cases hpos : i = pos
    · subst hpos
      exact ⟨slot, by simp [Room.setOffline], status⟩
    · have old := h.exiting (List.mem_of_ne_of_mem (by simp [hpos]) hm)
      exact ⟨old.1, by simpa [Room.setOffline, hpos] using old.2.1, status⟩
  starting hm := by
    obtain ⟨-, due⟩ := h.starting (List.mem_of_ne_of_mem (by simp) hm)
    refine ⟨status, fun hf => (due hf).imp_left fun none => ?_⟩
    rw [Room.unreported, List.filter_eq_nil_iff] at none ⊢
    intro i hi
    by_cases hpos : i = pos
    · simp [Room.setOffline, hpos]
    · simpa [Room.setOffline, hpos] using none i hi
  timeout hm := ⟨status, (h.timeout (List.mem_of_ne_of_mem (by simp) hm)).2⟩
  counted := h.counted
  pending status {i} hm := by
    by_cases hpos : i = pos
    · exact hpos ▸ List.mem_cons_self
    · obtain ⟨hi, hx⟩ := List.mem_filter.mp hm
      refine List.mem_cons_of_mem _ (h.pending status (List.mem_filter.mpr ⟨hi, ?_⟩))
      simpa [Room.setOffline, hpos] using hx

/-- Work is done that no counted slot waits for. -/
theorem tail {w : LoadWork} (h : LoadRoom fair (w :: work) r last out)
    (done : r.status = .loading → ∀ i ∈ r.overcounted, w ≠ .exiting i) : LoadRoom fair work r last out where
  up hm := h.up (List.mem_cons_of_mem _ hm)
  exiting hm := h.exiting (List.mem_cons_of_mem _ hm)
  starting hm := h.starting (List.mem_cons_of_mem _ hm)
  timeout hm := h.timeout (List.mem_cons_of_mem _ hm)
  counted := h.counted
  pending status {i} hm := List.mem_of_ne_of_mem (done status i hm).symm (h.pending status hm)

/-- The departure of a player that had not loaded ends. -/
theorem exited (h : LoadRoom fair (.exiting pos :: work) r last out) (unloaded : r.isLoadingSucceed pos = false) :
    LoadRoom fair work r last out := by
  refine h.tail fun _ i hi => ?_
  rintro ⟨⟩
  simpa [unloaded] using (List.mem_filter.mp hi).2

/-- The player of a loaded slot that left is uncounted. -/
theorem uncount (h : LoadRoom fair (.exiting pos :: work) r last out) (loaded : r.isLoadingSucceed pos = true) :
    LoadRoom fair work (r.unloadSlot pos) last out where
  up hm := h.up (List.mem_cons_of_mem _ hm)
  exiting hm := h.exiting (List.mem_cons_of_mem _ hm)
  starting hm := by
    obtain ⟨status, due⟩ := h.starting (List.mem_cons_of_mem _ hm)
    refine ⟨status, fun hf => (due hf).imp_left fun none => ?_⟩
    rw [Room.unreported, List.filter_eq_nil_iff] at none ⊢
    intro i hi
    by_cases hpos : i = pos
    · have offline := (h.exiting List.mem_cons_self).2.1
      simp [Room.unloadSlot, hpos, offline]
    · simpa [Room.unloadSlot, hpos] using none i hi
  timeout hm := h.timeout (List.mem_cons_of_mem _ hm)
  counted status := by
    obtain ⟨cnt, time⟩ := h.counted status
    refine ⟨?_, time⟩
    have length := (Room.filter_update_false Room.slots_nodup (h.exiting List.mem_cons_self).1 loaded).length_eq
    rw [List.length_cons] at length
    simp only [Room.loaded] at cnt ⊢
    show r.loadingSucceedCnt - 1 =
      ((r.slots.filter (Function.update r.isLoadingSucceed pos false)).length : Int)
    omega
  pending status {i} hm := by
    obtain ⟨hi, hx⟩ := List.mem_filter.mp hm
    have hpos : i ≠ pos := by
      rintro rfl
      simp [Room.unloadSlot] at hx
    refine List.mem_of_ne_of_mem (by simp [hpos]) (h.pending status (List.mem_filter.mpr ⟨hi, ?_⟩))
    simpa [Room.unloadSlot, hpos] using hx

/-- A start is due. -/
theorem due (h : LoadRoom fair work r last out) (status : r.status ≠ .waiting)
    (due : fair → r.unreported = [] ∨ out = true) : LoadRoom fair (.starting :: work) r last out where
  up hm := h.up (List.mem_of_ne_of_mem (by simp) hm)
  exiting hm := h.exiting (List.mem_of_ne_of_mem (by simp) hm)
  starting _ := ⟨status, due⟩
  timeout hm := h.timeout (List.mem_of_ne_of_mem (by simp) hm)
  counted := h.counted
  pending status {i} hm := List.mem_cons_of_mem _ (h.pending status hm)

/-- The time limit is over. -/
theorem late (h : LoadRoom fair work r last out) (status : r.status ≠ .waiting) :
    LoadRoom fair (.timeout :: work) r last true where
  up hm := h.up (List.mem_of_ne_of_mem (by simp) hm)
  exiting hm := h.exiting (List.mem_of_ne_of_mem (by simp) hm)
  starting _ := ⟨status, fun _ => .inr rfl⟩
  timeout _ := ⟨status, rfl⟩
  counted := h.counted
  pending status {i} hm := List.mem_cons_of_mem _ (h.pending status hm)

/-- `SendGameStart` ends. -/
theorem start (h : LoadRoom fair (.starting :: work) r last out) (now now' : Int) :
    LoadRoom fair work (r.startGame now now') last out where
  up hm := absurd (h.up (List.mem_cons_of_mem _ hm)) (h.starting List.mem_cons_self).1
  exiting hm := by
    obtain ⟨slot, offline, -⟩ := h.exiting (List.mem_cons_of_mem _ hm)
    exact ⟨slot, offline, by simp [Room.startGame]⟩
  starting hm := ⟨by simp [Room.startGame], (h.starting (List.mem_cons_of_mem _ hm)).2⟩
  timeout hm := ⟨by simp [Room.startGame], (h.timeout (List.mem_cons_of_mem _ hm)).2⟩
  counted status := by simp [Room.startGame] at status
  pending status := by simp [Room.startGame] at status

/-- A room that waits before and after -/
theorem waiting {r' : Room} (h : LoadRoom fair work r last out) (status : r.status = .waiting)
    (status' : r'.status = .waiting) : LoadRoom fair work r' last out where
  up _ := status'
  exiting hm := absurd status (h.exiting hm).2.2
  starting hm := absurd status (h.starting hm).1
  timeout hm := absurd status (h.timeout hm).1
  counted loading := by simp [status'] at loading
  pending loading := by simp [status'] at loading

/-- A new room -/
theorem new (status : r.status = .waiting) : LoadRoom fair [] r last out where
  up hm := absurd hm List.not_mem_nil
  exiting hm := absurd hm List.not_mem_nil
  starting hm := absurd hm List.not_mem_nil
  timeout hm := absurd hm List.not_mem_nil
  counted loading := by simp [status] at loading
  pending loading := by simp [status] at loading

end LoadRoom

/-! ### Over runs -/

/-- What an activation has still to do for the loading of a room -/
def Frame.load? (p : RoomPtr) : Frame → Option LoadWork
  | .loadingUp q _ => if q = p then some .up else none
  | .exiting q pos _ => if q = p then some (.exiting pos) else none
  | .starting q _ => if q = p then some .starting else none
  | .timeout q => if q = p then some .timeout else none
  | _ => none

/-- What is known of room `p` -/
def LoadsRoom (p : RoomPtr) (k : List Frame) (s : Server) (r : Room) : Prop :=
  LoadRoom (leavesCounted s.trace = true) (k.filterMap (Frame.load? p)) r (lastLoading p s.trace) (timedOut p s.trace)

/-- The rooms of a configuration. Only rooms that exist have something pending. -/
def Loading (k : List Frame) (s : Server) : Prop :=
  (∀ p, k.filterMap (Frame.load? p) ≠ [] → p < s.roomCnt) ∧ ∀ p, p < s.roomCnt → LoadsRoom p k s (s.room p)

namespace Loading

variable {env : Env} {k k' : List Frame} {s s' : Server} {p : RoomPtr} {r : Room}

/-- A move that changes one room. -/
theorem update (h : Loading k s) (alloc : p < s.roomCnt) (roomCnt : s'.roomCnt = s.roomCnt)
    (room : s'.room = Function.update s.room p r) (here : LoadsRoom p k s (s.room p) → LoadsRoom p k' s' r)
    (work : ∀ q, q ≠ p → k'.filterMap (Frame.load? q) = k.filterMap (Frame.load? q) ∧
      (leavesCounted s'.trace → leavesCounted s.trace) ∧
      lastLoading q s'.trace = lastLoading q s.trace ∧ timedOut q s'.trace = timedOut q s.trace) : Loading k' s' := by
  refine ⟨fun q hq => ?_, fun q hq => ?_⟩
  · rw [roomCnt]
    by_cases hp : q = p
    · exact hp ▸ alloc
    · rw [(work q hp).1] at hq
      exact h.1 q hq
  · rw [room]
    have old := h.2 q (roomCnt ▸ hq)
    by_cases hp : q = p
    · subst hp
      rw [Function.update_self]
      exact here old
    · obtain ⟨same, fair, last, out⟩ := work q hp
      rw [Function.update_of_ne hp, LoadsRoom, same, last, out]
      exact old.weaken fair

/-- A move that changes only what is pending for one room. -/
theorem pending (h : Loading k s) (alloc : p < s.roomCnt) (roomCnt : s'.roomCnt = s.roomCnt)
    (room : s'.room = s.room) (here : LoadsRoom p k s (s.room p) → LoadsRoom p k' s' (s.room p))
    (work : ∀ q, q ≠ p → k'.filterMap (Frame.load? q) = k.filterMap (Frame.load? q) ∧
      (leavesCounted s'.trace → leavesCounted s.trace) ∧
      lastLoading q s'.trace = lastLoading q s.trace ∧ timedOut q s'.trace = timedOut q s.trace) : Loading k' s' :=
  h.update alloc roomCnt (by rw [room, Function.update_eq_self]) here work

/-- The innermost frame is for a room that exists. -/
theorem alloc {f : Frame} (h : Loading (f :: k) s) (top : (f.load? p).isSome = true) : p < s.roomCnt := by
  obtain ⟨work, top⟩ := Option.isSome_iff_exists.mp top
  refine h.1 p ?_
  rw [List.filterMap_cons_some top]
  exact List.cons_ne_nil _ _

/-- An update of a room that does not matter here. -/
theorem setRoom (h : Loading k s) (here : ∀ {fair : Prop} {work : List LoadWork} {last : Option Int} {out : Bool},
    LoadRoom fair work (s.room p) last out → LoadRoom fair work r last out) : Loading k (s.setRoom p r) := by
  refine ⟨h.1, fun q hq => ?_⟩
  have old := h.2 q hq
  by_cases hp : q = p
  · subst hp
    rw [Server.setRoom_room_self]
    exact here old
  · rw [Server.setRoom_room_ne hp]
    exact old

/-- The begin of a departure -/
theorem departed (h : Loading k s) {u : Int} (alloc : p < s.roomCnt) (pos : (s.room p).getPlayerId u ≠ 0) :
    Loading ((s.room p).departing u p :: k) (RoomManager.departed u p s) := by
  obtain ⟨slot, -, -⟩ := Room.getPlayerId_spec pos
  refine h.update alloc rfl rfl (fun old => ?_) fun q hq => ?_
  · unfold LoadsRoom Room.departing Room.vacate
    cases status : (s.room p).status with
    | waiting => exact old.waiting status status
    | loading =>
      rw [List.filterMap_cons_some (b := .exiting ((s.room p).getPlayerId u)) (by simp [Frame.load?])]
      exact old.offline slot (by simp [status])
    | ingame => exact (old.offline slot (by simp [status])).tail fun loading => by simp [Room.setOffline, status] at loading
  · refine ⟨List.filterMap_cons_none ?_, id, rfl, rfl⟩
    unfold Room.departing
    split <;> simp [Frame.load?, hq.symm]

/-- A room of `CreateRoom` waits. -/
theorem created (h : Loading [] s) {roomCnt : Nat} (waits : r.status = .waiting)
    (alloc : ∀ q, q < roomCnt → q ≠ p → q < s.roomCnt) (cnt : s'.roomCnt = roomCnt)
    {pos : Nat} {teamMode : Int} {sharing : List Nat} (room : s'.room = Function.update s.room p r)
    (trace : s'.trace = .team p pos teamMode sharing :: .roomInit p :: s.trace) : Loading [] s' := by
  refine ⟨fun q hq => absurd rfl hq, fun q hq => ?_⟩
  rw [room, LoadsRoom, trace]
  by_cases hp : q = p
  · subst hp
    rw [Function.update_self]
    exact .new waits
  · rw [Function.update_of_ne hp]
    exact h.2 q (alloc q (cnt ▸ hq) hp)

end Loading

variable {env : Env} {k k' : List Frame} {s s' : Server}

theorem loading_step (move : Step env k s k' s') (reached : Config env k s) (h : Loading k s) : Loading k' s' := by
  have rooms := reached.rooms
  cases move with
  | drop _ _ =>
    obtain ⟨_, _, _, _, _, hs⟩ := dropConnection_eq _ _ s
    rw [hs]
    exact h
  | leave _ _ belong pos => exact h.departed (rooms.belong belong) pos
  | exitRoom belong status pos =>
    have departed := h.departed (rooms.belong belong) pos
    simp only [Room.departing, status] at departed
    exact departed
  | left =>
    rw [PersonManager.changePersonStatus_eq]
    exact h
  | everyone may => cases may <;> exact h
  | @uncount _ _ p pos loaded =>
    refine h.update (h.alloc (p := p) (by simp [Frame.load?])) rfl rfl (fun old => ?_) fun q hq => ⟨?_, id, rfl, rfl⟩
    · rw [LoadsRoom, List.filterMap_cons_some (b := .exiting pos) (by simp [Frame.load?])] at old
      exact old.uncount loaded
    · rw [List.filterMap_cons_none (by simp [Frame.load?, hq.symm])]
  | @exited _ _ p pos unloaded _ =>
    have fair : leavesCounted (s.log (.leaveCheck p (s.room p).overcounted
        ((s.room p).loadingSucceedCnt ≥ (s.room p).onlinePlayerCnt))).trace → leavesCounted s.trace := by
      simp only [leavesCounted, Server.log, Bool.and_eq_true, and_imp]
      exact fun _ => id
    refine h.pending (h.alloc (p := p) (by simp [Frame.load?])) rfl rfl (fun old => ?_) fun q hq => ⟨?_, fair, rfl, rfl⟩
    · rw [LoadsRoom, List.filterMap_cons_some (b := .exiting pos) (by simp [Frame.load?])] at old
      exact (old.exited unloaded).weaken fair
    · rw [List.filterMap_cons_none (by simp [Frame.load?, hq.symm])]
  | @exitStart _ _ p pos unloaded all status =>
    have fair : leavesCounted (s.log (.leaveCheck p (s.room p).overcounted
        ((s.room p).loadingSucceedCnt ≥ (s.room p).onlinePlayerCnt))).trace →
          (s.room p).overcounted = [] ∧ leavesCounted s.trace := by
      simp [leavesCounted, Server.log, all]
    have alloc := h.alloc (p := p) (by simp [Frame.load?])
    refine h.pending alloc rfl rfl (fun old => ?_) fun q hq => ⟨?_, fun hf => (fair hf).2, rfl, rfl⟩
    · rw [LoadsRoom, List.filterMap_cons_some (b := .exiting pos) (by simp [Frame.load?])] at old
      rw [LoadsRoom, List.filterMap_cons_some (b := .starting) (by simp [Frame.load?])]
      refine ((old.exited unloaded).weaken fun hf => (fair hf).2).due (by simp [status]) fun hf => ?_
      exact .inl (old.unreported_nil (rooms.counted alloc) status (fair hf).1 all)
    · rw [List.filterMap_cons_none (by simp [Frame.load?, hq.symm]),
        List.filterMap_cons_none (by simp [Frame.load?, hq.symm])]
  | @loadBegin _ _ _ _ p belong status _ =>
    refine h.pending (rooms.belong belong) rfl rfl (fun old => ?_) fun q hq => ⟨?_, id, rfl, rfl⟩
    · rw [LoadsRoom, List.filterMap_cons_some (b := .up) (by simp [Frame.load?])]
      exact LoadRoom.begin old status
    · rw [List.filterMap_cons_none (by simp [Frame.load?, hq.symm])]
  | @load _ _ _ _ p now =>
    refine h.update (h.alloc (p := p) (by simp [Frame.load?])) rfl rfl (fun _ => ?_) fun q hq => ?_
    · simp only [LoadsRoom, Server.log, Server.setRoom, lastLoading, timedOut, if_true]
      exact LoadRoom.load now
    · simp [Frame.load?, Server.log, Server.setRoom, lastLoading, timedOut, leavesCounted, hq.symm]
  | loadReport belong status pos unloaded _ =>
    obtain ⟨slot, online, -⟩ := Room.getPlayerId_spec pos
    exact h.update (rooms.belong belong) rfl rfl (fun old => LoadRoom.report old slot online unloaded)
      fun _ _ => ⟨rfl, id, rfl, rfl⟩
  | @reportStart _ _ _ _ p belong status pos unloaded all =>
    obtain ⟨slot, online, -⟩ := Room.getPlayerId_spec pos
    refine h.update (rooms.belong belong) rfl rfl (fun old => ?_) fun q hq => ⟨?_, id, rfl, rfl⟩
    · have reported := LoadRoom.report old slot online unloaded
      rw [LoadsRoom, List.filterMap_cons_some (b := .starting) (by simp [Frame.load?])]
      refine reported.due (by simp [Room.loadSlot, status]) fun _ => .inl (reported.unreported_nil ?_ status ?_ all)
      · exact (rooms.counted (rooms.belong belong)).loadSlot
      · exact List.eq_nil_iff_forall_not_mem.mpr fun i hi => absurd (reported.pending status hi) List.not_mem_nil
    · rw [List.filterMap_cons_none (by simp [Frame.load?, hq.symm])]
  | @timeout _ id p _ now status late =>
    obtain ⟨rfl, room⟩ : s.rooms = _ ∧ _[id]? = some p := reached.snapshot _ List.mem_cons_self
    refine h.pending (rooms.table.room room).1 rfl rfl (fun old => ?_) fun q hq => ?_
    · have out : timedOut p (s.log (.loadTimeout p now)).trace = true := by
        simp [Server.log, timedOut, (old.counted status).2, late]
      rw [LoadsRoom, List.filterMap_cons_some (b := .timeout) (by simp [Frame.load?]), out]
      exact old.late (by simp [status])
    · simp [Frame.load?, Server.log, lastLoading, timedOut, leavesCounted, hq.symm]
  | @timeoutStart _ _ p status =>
    refine h.pending (h.alloc (p := p) (by simp [Frame.load?])) rfl rfl (fun old => ?_) fun q hq => ⟨?_, id, rfl, rfl⟩
    · rw [LoadsRoom, List.filterMap_cons_some (b := .timeout) (by simp [Frame.load?])] at old
      rw [LoadsRoom, List.filterMap_cons_some (b := .starting) (by simp [Frame.load?])]
      exact (old.tail fun _ _ _ => by simp).due (by simp [status]) fun _ => .inr (old.timeout List.mem_cons_self).2
    · rw [List.filterMap_cons_none (by simp [Frame.load?, hq.symm]),
        List.filterMap_cons_none (by simp [Frame.load?, hq.symm])]
  | @timeoutEnd _ _ p status =>
    refine h.pending (h.alloc (p := p) (by simp [Frame.load?])) rfl rfl (fun old => ?_) fun q hq => ⟨?_, id, rfl, rfl⟩
    · rw [LoadsRoom, List.filterMap_cons_some (b := .timeout) (by simp [Frame.load?])] at old
      exact old.tail fun _ _ _ => by simp
    · rw [List.filterMap_cons_none (by simp [Frame.load?, hq.symm])]
  | @start _ _ p now now' =>
    refine h.update (h.alloc (p := p) (by simp [Frame.load?])) rfl rfl (fun old => ?_) fun q hq => ⟨?_, id, rfl, rfl⟩
    · rw [LoadsRoom, List.filterMap_cons_some (b := .starting) (by simp [Frame.load?])] at old
      exact old.start now now'
    · rw [List.filterMap_cons_none (by simp [Frame.load?, hq.symm])]
  | enter _ _ _ person =>
    have free := (PersonManager.personLogin_eq person).1
    rw [enter_eq person (reached.users.userIdToFd_none free)]
    exact h
  | heartbeat _ old =>
    obtain ⟨_, _, rfl⟩ := Heartbeat.erased old
    exact h
  | create gameMode teamMode _ _ _ =>
    obtain ⟨p, roomId, freeRoom, roomCnt, nextRoomId, garbage, takes, hs⟩ :=
      RoomManager.created_eq _ gameMode teamMode s
    rw [hs]
    refine Loading.created (p := p) h rfl (fun q hq hp => ?_) rfl rfl rfl
    cases takes with
    | free _ => exact hq
    | new _ => exact RoomTable.old hq hp
  | join _ _ room _ status _ =>
    rw [RoomManager.joined_eq]
    exact h.update (rooms.table.room room).1 rfl rfl (fun old => old.waiting status status)
      fun _ _ => ⟨rfl, id, rfl, rfl⟩
  | @change _ _ u _ p teamId gameOption _ _ =>
    obtain ⟨_, _, hr⟩ := MP.applyChange_eq u teamId gameOption (s.room p)
    rw [hr]
    exact h.setRoom fun old => old.congr rfl rfl rfl rfl rfl rfl
  | @gameEnd _ _ u _ p belong status pos =>
    rw [PersonManager.changePersonStatus_eq]
    obtain ⟨slot, -, -⟩ := Room.getPlayerId_spec pos
    refine h.update (rooms.belong belong) rfl rfl (fun old => ?_) fun _ _ => ⟨rfl, id, rfl, rfl⟩
    exact (old.offline slot (by simp [status])).tail fun loading => by simp [Room.setOffline, status] at loading
  | acceptFail sock acc _ =>
    obtain ⟨_, _, _, _, _, rfl⟩ := acceptSocket_eq sock acc
    exact h
  | acceptLost sock acc _ =>
    obtain ⟨_, _, _, _, _, rfl⟩ := acceptSocket_eq sock acc
    exact h
  | accept _ sock acc _ =>
    obtain ⟨_, _, _, hs⟩ := accepted_eq _ _ _
    rw [hs]
    obtain ⟨_, _, _, _, _, rfl⟩ := acceptSocket_eq sock acc
    exact h
  | _ =>
    first
    | exact h
    | exact h.setRoom fun old => old.congr rfl rfl rfl rfl rfl rfl

theorem Config.loading (h : Config env k s) : Loading k s := by
  induction h with
  | @boot s booted =>
    have none : ∀ p, ¬p < s.roomCnt := by simp [booted.roomCnt]
    exact ⟨fun _ hp => absurd rfl hp, fun p hp => absurd hp (none p)⟩
  | step reached move ih => exact loading_step move reached ih

/-- A start that is due is justified; nothing else starts a game. -/
theorem justified_step (move : Step env k s k' s') (reached : Config env k s) (leaves : leavesCounted s'.trace)
    (h : leavesCounted s.trace → startsJustified s.trace) : startsJustified s'.trace := by
  cases move with
  | @start _ _ p now now' =>
    have alloc := reached.loading.alloc (p := p) (by simp [Frame.load?])
    have here := reached.loading.2 p alloc
    rw [LoadsRoom, List.filterMap_cons_some (b := .starting) (by simp [Frame.load?])] at here
    have due := (here.starting List.mem_cons_self).2 leaves
    have before := h leaves
    simp [startsJustified, Server.log, Server.setRoom, List.isEmpty_iff, due, before]
  | exited _ _ =>
    simp only [leavesCounted, Server.log, Bool.and_eq_true] at leaves
    exact h leaves.2
  | exitStart _ _ _ =>
    simp only [leavesCounted, Server.log, Bool.and_eq_true] at leaves
    exact h leaves.2
  | drop _ _ =>
    obtain ⟨_, _, _, _, _, hs⟩ := dropConnection_eq _ _ s
    rw [hs] at leaves ⊢
    exact h leaves
  | left =>
    rw [PersonManager.changePersonStatus_eq] at leaves ⊢
    exact h leaves
  | enter _ _ _ person =>
    have free := (PersonManager.personLogin_eq person).1
    rw [enter_eq person (reached.users.userIdToFd_none free)] at leaves ⊢
    exact h leaves
  | heartbeat _ old =>
    obtain ⟨_, _, rfl⟩ := Heartbeat.erased old
    exact h leaves
  | create gameMode teamMode _ _ _ =>
    obtain ⟨_, _, _, _, _, _, _, hs⟩ := RoomManager.created_eq _ gameMode teamMode s
    rw [hs] at leaves ⊢
    exact h leaves
  | join _ _ _ _ _ _ =>
    rw [RoomManager.joined_eq] at leaves ⊢
    exact h leaves
  | gameEnd _ _ _ =>
    rw [PersonManager.changePersonStatus_eq] at leaves ⊢
    exact h leaves
  | acceptFail sock acc _ =>
    obtain ⟨_, _, _, _, _, rfl⟩ := acceptSocket_eq sock acc
    exact h leaves
  | acceptLost sock acc _ =>
    obtain ⟨_, _, _, _, _, rfl⟩ := acceptSocket_eq sock acc
    exact h leaves
  | accept _ sock acc _ =>
    obtain ⟨_, _, _, hs⟩ := accepted_eq _ _ _
    rw [hs] at leaves ⊢
    obtain ⟨_, _, _, _, _, rfl⟩ := acceptSocket_eq sock acc
    exact h leaves
  | _ => exact h leaves

theorem Config.justified (h : Config env k s) (leaves : leavesCounted s.trace) : startsJustified s.trace := by
  induction h with
  | boot booted => rw [booted.trace]; rfl
  | step reached move ih => exact justified_step move reached leaves ih

/-- As long as `DeletePlayer` never takes a player who has left for a loaded one, a game starts only when
    every online player has loaded, or after the time limit. -/
theorem starts_justified (h : Visited env s) (leaves : leavesCounted s.trace) : startsJustified s.trace := by
  obtain ⟨k, config⟩ := h.config
  exact config.justified leaves

/-- Player 1 has loaded and hangs up, and the write to player 2 fails. -/
def Script.brokenDeparture : Env :=
  party (fun n => if n = 46 then [readable 4] else if n = 56 then [hungUp 4] else [])
    (fun n => if n = 47 then some (request 0x10 ++ request 0x12) else none) (· == 57)

/-- The departure of player 2 inside that of player 1 starts the game without player 3. -/
theorem nested_departure_starts_early : ∃ s, Visited Script.brokenDeparture s ∧ ¬startsJustified s.trace := by
  obtain ⟨s, reachable, test⟩ := exists_of_ends 8 (fun s => !startsJustified s.trace)
    (Script.reachable Script.brokenDeparture) (by decide +kernel)
  exact ⟨s, .reach reachable, by simpa using test⟩

/-- A player who is alone in its room starts the game by loading. -/
theorem starts_justified_alone : ∃ s,
    Visited (Script.oneClient (Script.request 0 ++ Script.request 9 ++ Script.request 0x10 ++ Script.request 0x12)) s ∧
      .gameStart 0 [] ∈ s.trace ∧ startsJustified s.trace := by
  obtain ⟨s, reachable, test⟩ := exists_of_ends 2
    (fun s => decide (.gameStart 0 [] ∈ s.trace) && leavesCounted s.trace)
    (Script.reachable (Script.oneClient (Script.request 0 ++ Script.request 9 ++ Script.request 0x10 ++ Script.request 0x12)))
    (by decide +kernel)
  simp only [Bool.and_eq_true, decide_eq_true_eq] at test
  exact ⟨s, .reach reachable, test.1, starts_justified (.reach reachable) test.2⟩

end IslandSurvival

import IslandSurvival.Theorems.Rooms
import IslandSurvival.Theorems.Stack
import IslandSurvival.Theorems.Users

/-! The run of one room. What the server does looks to each room like a run of a machine that has one
    room, the activations that work on it, and the events that are about it. -/

namespace IslandSurvival

/-! ### What a room sees -/

/-- The room that an activation works on -/
def Frame.room? : Frame → Option RoomPtr
  | .ticking _ p _ | .everyone p _ _ | .delivering p _ _ | .leaving _ p _ | .exiting p _ _ | .quitting p _
  | .exitRequest _ p | .loadingUp p _ | .starting p _ | .timeout p | .kickSlot p _ | .running p | .frame p _ _
  | .framed p | .casting p _ _ => some p
  | _ => none

/-- The room that an event is about, its teams apart -/
def Event.room? : Event → Option RoomPtr
  | .roomInit p | .recycle p _ | .broadcast p _ | .deliver p _ _ | .leave p _ _ | .leaveCheck p _ _
  | .gameLoading p _ | .loadReport p _ | .loadTimeout p _ | .gameStart p _ | .gameEnd _ p _ | .synUse p _
  | .synAdd p _ _ | .frameBegin p _ | .synSend p _ | .synSent p | .frameEnd p _ => some p
  | _ => none

def roomFrames (p : RoomPtr) (k : List Frame) : List Frame := k.filter fun f => f.room? == some p

def roomTrace (p : RoomPtr) (trace : List Event) : List Event := trace.filter fun e => e.room? == some p

/-! ### The room machine -/

/-- A message to everybody in room `r`, with the activations of the room before and after. -/
inductive RoomCast (p : RoomPtr) (r : Room) : CMessage → List Frame → List Frame → Prop
  | detail (name : Int → Bytes) :
      RoomCast p r (.build Msg.scPullOneRoomDetail (-1) (.scPullOneRoomDetail (some (r.getDetailInfo name)))) [] []
  | exit {userId result : Int} {w : List Frame} :
      RoomCast p r (MP.exitMessage result) (.exitRequest userId p :: w) (.exitRequest userId p :: w)
  | loadingUp {rand : Int} {w : List Frame} :
      RoomCast p r (.build Msg.scGameLoading (-1) (.scGameLoading rand)) (.loadingUp p false :: w) (.loadingUp p true :: w)
  | starting {w : List Frame} :
      RoomCast p r (.build Msg.scGameStart (-1) .scGameStart) (.starting p false :: w) (.starting p true :: w)
  | leaving {userId : Int} {w : List Frame} (name : Int → Bytes) :
      RoomCast p r (.build Msg.scPullOneRoomDetail (-1) (.scPullOneRoomDetail (some (r.getDetailInfo name))))
        (.leaving userId p false :: w) (.leaving userId p true :: w)
  | exiting {pos : Nat} {w : List Frame} :
      RoomCast p r (Room.exitGameMessage pos (-1)) (.exiting p pos false :: w) (.exiting p pos true :: w)
  | casting {mess : CMessage} {w : List Frame} :
      RoomCast p r mess (.casting p mess false :: w) (.casting p mess true :: w)

/-- The moves of room `p`: its activations, its record and its events, before and after. A player can leave
    whenever every activation of the room waits for a call. -/
inductive RoomStep (p : RoomPtr) : List Frame → Room → List Event → List Frame → Room → List Event → Prop
  -- between the requests
  | init {r tr garbage} (gameMode teamMode roomId u : Int) :
      RoomStep p [] r tr [] ((Room.init gameMode teamMode roomId garbage).addSlot u) (.roomInit p :: tr)
  | join {r tr} (u : Int) (status : r.status = .waiting) (cnt : r.playerCnt < maxPlayerCnt) :
      RoomStep p [] r tr [] (r.addSlot u) tr
  | change {r tr} (u : Int) (teamId gameOption : Option Int) (status : r.status = .waiting) :
      RoomStep p [] r tr [] (MP.applyChange u teamId gameOption r) tr
  | gameEnd {r tr u} (status : r.status = .ingame) (pos : r.getPlayerId u ≠ 0) :
      RoomStep p [] r tr [] (r.setOffline (r.getPlayerId u)) (.gameEnd u p .ingame :: tr)
  | gameEndFail {r tr} (u : Int) : RoomStep p [] r tr [] r (.gameEnd u p r.status :: tr)
  | exitBegin {r tr} (u : Int) : RoomStep p [] r tr [.exitRequest u p] r tr
  | exitEnd {w r tr u} : RoomStep p (.exitRequest u p :: w) r tr w r tr
  | tickBegin {r tr} (id : Int) (rooms : Map RoomPtr) : RoomStep p [] r tr [.ticking id p rooms] r tr
  | tickEnd {r tr id rooms} : RoomStep p [.ticking id p rooms] r tr [] r tr
  | recycle {r tr id rooms} (empty : r.onlinePlayerCnt ≤ 0) :
      RoomStep p [.ticking id p rooms] r tr [] r (.recycle p r.onlineSlots :: tr)
  -- a player leaves
  | leave {w r tr u} (waits : ∀ f ∈ w, ∃ role, Waits role f) (pos : r.getPlayerId u ≠ 0) :
      RoomStep p w r tr (r.departing u p :: w) (r.vacate (r.getPlayerId u)) (.leave p (r.getPlayerId u) r.status :: tr)
  | left {w r tr u} : RoomStep p (.leaving u p true :: w) r tr w r tr
  | uncount {w r tr pos} (loaded : r.isLoadingSucceed pos = true) :
      RoomStep p (.exiting p pos true :: w) r tr w (r.unloadSlot pos) tr
  | exited {w r tr pos} (unloaded : r.isLoadingSucceed pos = false)
      (waits : r.loadingSucceedCnt < r.onlinePlayerCnt ∨ r.status ≠ .loading) :
      RoomStep p (.exiting p pos true :: w) r tr w r
        (.leaveCheck p r.overcounted (r.loadingSucceedCnt ≥ r.onlinePlayerCnt) :: tr)
  | exitStart {w r tr pos} (unloaded : r.isLoadingSucceed pos = false) (all : r.onlinePlayerCnt ≤ r.loadingSucceedCnt)
      (status : r.status = .loading) :
      RoomStep p (.exiting p pos true :: w) r tr (.starting p false :: w) r
        (.leaveCheck p r.overcounted (r.loadingSucceedCnt ≥ r.onlinePlayerCnt) :: tr)
  | quit {w r tr pos now syn slot}
      (add : r.syn.add now (Room.exitGameMessage pos (.ofInt r.syn.nowFrame)) = .ok (syn, slot)) :
      RoomStep p (.quitting p pos :: w) r tr w { r with syn }
        (.synAdd p (Room.exitGameMessage pos (.ofInt r.syn.nowFrame)) slot :: tr)
  -- a broadcast
  | everyone {w w' r tr mess} (cast : RoomCast p r mess w w') :
      RoomStep p w r tr (.everyone p mess 1 :: w') r (.broadcast p mess :: tr)
  | skipSlot {w r tr mess i} (le : i ≤ r.playerCnt) (offline : r.isOnline i = false) :
      RoomStep p (.everyone p mess i :: w) r tr (.everyone p mess (i + 1) :: w) r tr
  | deliver {w r tr mess i} (le : i ≤ r.playerCnt) (online : r.isOnline i = true) :
      RoomStep p (.everyone p mess i :: w) r tr (.delivering p mess i :: w) r (.deliver p i mess :: tr)
  | delivered {w r tr mess i} : RoomStep p (.delivering p mess i :: w) r tr (.everyone p mess (i + 1) :: w) r tr
  | everyoneEnd {w r tr mess i} (gt : r.playerCnt < i) : RoomStep p (.everyone p mess i :: w) r tr w r tr
  -- the begin of a game
  | loadBegin {r tr} (status : r.status = .waiting) : RoomStep p [] r tr [.loadingUp p false] r tr
  | load {r tr} (now : Int) : RoomStep p [.loadingUp p true] r tr [] (r.startLoading now) (.gameLoading p now :: tr)
  | loadReport {r tr pos} (status : r.status = .loading) (slot : pos ∈ r.slots) (online : r.isOnline pos = true)
      (unloaded : r.isLoadingSucceed pos = false) (waits : r.loadingSucceedCnt + 1 < r.onlinePlayerCnt) :
      RoomStep p [] r tr [] (r.loadSlot pos) (.loadReport p pos :: tr)
  | reportStart {r tr pos} (status : r.status = .loading) (slot : pos ∈ r.slots) (online : r.isOnline pos = true)
      (unloaded : r.isLoadingSucceed pos = false) (all : r.onlinePlayerCnt ≤ r.loadingSucceedCnt + 1) :
      RoomStep p [] r tr [.starting p false] (r.loadSlot pos) (.loadReport p pos :: tr)
  | timeout {r tr id rooms now} (status : r.status = .loading) (late : maxLoadingTimeSecond ≤ now - r.loadingTimeSecond) :
      RoomStep p [.ticking id p rooms] r tr [.timeout p, .ticking id p rooms] r (.loadTimeout p now :: tr)
  | kickSlot {r tr id rooms i} (le : i ≤ r.playerCnt) (online : r.isOnline i = true)
      (unloaded : r.isLoadingSucceed i = false) :
      RoomStep p [.timeout p, .ticking id p rooms] r tr [.kickSlot p i, .timeout p, .ticking id p rooms] r tr
  | kickedSlot {w r tr i} : RoomStep p (.kickSlot p i :: w) r tr w r tr
  | timeoutStart {r tr id rooms} (status : r.status = .loading) :
      RoomStep p [.timeout p, .ticking id p rooms] r tr [.starting p false, .ticking id p rooms] r tr
  | timeoutEnd {r tr id rooms} (status : r.status ≠ .loading) :
      RoomStep p [.timeout p, .ticking id p rooms] r tr [.ticking id p rooms] r tr
  | start {w r tr} (now now' : Int) :
      RoomStep p (.starting p true :: w) r tr w (r.startGame now now') (.gameStart p r.unreported :: tr)
  -- the ring
  | synUse {w r tr} : RoomStep p w r tr w r (.synUse p r.status :: tr)
  | updateTime {w r tr} (now : Int) : RoomStep p w r tr w { r with syn := r.syn.updateTime now } tr
  | relay {r tr now reply playerId syn slot} (gameplay : Gameplay playerId reply)
      (add : r.syn.add now reply = .ok (syn, slot)) :
      RoomStep p [] r tr [] { r with syn } (.synAdd p reply slot :: tr)
  | runBegin {r tr id rooms} (now : Int) (status : r.status = .ingame) :
      RoomStep p [.ticking id p rooms] r tr [.running p, .ticking id p rooms] { r with syn := r.syn.updateTime now } tr
  | frameBegin {r tr id rooms} (due : r.syn.due = .ok true) :
      RoomStep p [.running p, .ticking id p rooms] r tr
        [.frame p r.syn.headFrame none, .running p, .ticking id p rooms] r (.frameBegin p r.syn.headFrame :: tr)
  | castEmpty {r tr id rooms f h} (head : Syn.slot r.syn.head = .ok h) (empty : (r.syn.oneframe h).num = 0) :
      RoomStep p [.frame p f none, .running p, .ticking id p rooms] r tr
        [.casting p (.build Msg.scFrameMess (.ofInt r.syn.headFrame) (.scFrameMess 0)) false, .frame p f (some 0),
          .running p, .ticking id p rooms] r
        (.synSend p (.build Msg.scFrameMess (.ofInt r.syn.headFrame) (.scFrameMess 0)) :: tr)
  | castNone {r tr id rooms f h} (head : Syn.slot r.syn.head = .ok h) (filled : (r.syn.oneframe h).num ≠ 0) :
      RoomStep p [.frame p f none, .running p, .ticking id p rooms] r tr
        [.frame p f (some 0), .running p, .ticking id p rooms] r tr
  | cast {r tr id rooms f h i m} (head : Syn.slot r.syn.head = .ok h) (mess : (r.syn.oneframe h).mess[i]? = some m) :
      RoomStep p [.frame p f (some i), .running p, .ticking id p rooms] r tr
        [.casting p (m.setFramenum r.syn.headFrame) false, .frame p f (some (i + 1)), .running p, .ticking id p rooms]
        { r with syn := r.syn.stamp h i } (.synSend p (m.setFramenum r.syn.headFrame) :: tr)
  | castDone {r tr id rooms mess f i} :
      RoomStep p [.casting p mess true, .frame p f (some i), .running p, .ticking id p rooms] r tr
        [.frame p f (some i), .running p, .ticking id p rooms] r (.synSent p :: tr)
  | frameEnd {r tr id rooms f h i} (head : Syn.slot r.syn.head = .ok h) (none : (r.syn.oneframe h).mess[i]? = none) :
      RoomStep p [.frame p f (some i), .running p, .ticking id p rooms] r tr
        [.framed p, .running p, .ticking id p rooms] { r with syn := r.syn.clear h } (.frameEnd p f :: tr)
  | advance {r tr id rooms syn} (next : r.syn.advance = .ok syn) :
      RoomStep p [.framed p, .running p, .ticking id p rooms] r tr [.running p, .ticking id p rooms] { r with syn } tr
  | runEnd {r tr id rooms} : RoomStep p [.running p, .ticking id p rooms] r tr [.ticking id p rooms] r tr

/-- The runs of a room, from its first game on -/
inductive RoomRun (p : RoomPtr) : List Frame → Room → List Event → Prop
  | init {garbage} (gameMode teamMode roomId u : Int) :
      RoomRun p [] ((Room.init gameMode teamMode roomId garbage).addSlot u) [.roomInit p]
  | step {w r tr w' r' tr'} (run : RoomRun p w r tr) (move : RoomStep p w r tr w' r' tr') : RoomRun p w' r' tr'

section
variable {p : RoomPtr} {w w' : List Frame} {r r' : Room} {tr tr' : List Event} {mess : CMessage}

/-- A move logs at most one event. -/
theorem RoomStep.trace (move : RoomStep p w r tr w' r' tr') : tr' = tr ∨ ∃ e, tr' = e :: tr := by
  cases move <;> simp

/-- An activation that calls `SendMessageToEveryone` waits for it. -/
theorem RoomCast.waits (cast : RoomCast p r mess w w') (h : ∀ f ∈ w.tail, ∃ role, Waits role f) :
    ∀ f ∈ w', ∃ role, Waits role f := by
  have cons : ∀ {f : Frame} {w : List Frame}, (∃ role, Waits role f) → (∀ f ∈ w, ∃ role, Waits role f) →
      ∀ f' ∈ f :: w, ∃ role, Waits role f' := fun hf hw => List.forall_mem_cons.mpr ⟨hf, hw⟩
  cases cast with
  | detail _ => exact fun _ hf => absurd hf List.not_mem_nil
  | exit => exact cons ⟨.cast p (MP.exitMessage 0), .castResult⟩ h
  | loadingUp => exact cons ⟨.cast p (.build Msg.scGameLoading (-1) (.scGameLoading 0)), .castLoading⟩ h
  | starting => exact cons ⟨_, .castStart⟩ h
  | leaving name => exact cons ⟨.cast p (.build Msg.scPullOneRoomDetail 0 .scGameStart), .castDetail rfl⟩ h
  | exiting => exact cons ⟨_, .castExit⟩ h
  | casting => exact cons ⟨_, .castFrame⟩ h

/-- Every activation of a room but the innermost waits for a call. -/
theorem waits_step (move : RoomStep p w r tr w' r' tr') (h : ∀ f ∈ w.tail, ∃ role, Waits role f) :
    ∀ f ∈ w'.tail, ∃ role, Waits role f := by
  have drop : ∀ {w : List Frame}, (∀ g ∈ w, ∃ role, Waits role g) → ∀ g ∈ w.tail, ∃ role, Waits role g :=
    fun hw g hg => hw g (List.mem_of_mem_tail hg)
  cases move with
  | everyone cast => exact cast.waits h
  | leave waits _ => exact waits
  | timeout _ _ => exact List.forall_mem_cons.mpr ⟨⟨_, .timeout⟩, h⟩
  | kickSlot _ _ _ => exact List.forall_mem_cons.mpr ⟨⟨_, .kickSlot⟩, h⟩
  | runBegin _ _ => exact List.forall_mem_cons.mpr ⟨⟨_, .running⟩, h⟩
  | frameBegin _ => exact List.forall_mem_cons.mpr ⟨⟨_, .frame⟩, h⟩
  | castEmpty _ _ => exact List.forall_mem_cons.mpr ⟨⟨_, .casting⟩, h⟩
  | cast _ _ => exact List.forall_mem_cons.mpr ⟨⟨_, .casting⟩, h⟩
  | _ => first | exact h | exact drop h

theorem RoomRun.waits (h : RoomRun p w r tr) : ∀ f ∈ w.tail, ∃ role, Waits role f := by
  induction h with
  | init _ _ _ _ => exact fun _ hf => absurd hf List.not_mem_nil
  | step _ move ih => exact waits_step move ih

/-- Every moment of a run is a run. -/
theorem RoomRun.suffix (h : RoomRun p w r tr) {older : List Event} (suffix : older <:+ tr) :
    older = [] ∨ ∃ w r, RoomRun p w r older := by
  induction h with
  | @init garbage gameMode teamMode roomId u =>
    rcases List.suffix_cons_iff.mp suffix with rfl | suffix
    · exact .inr ⟨_, (Room.init gameMode teamMode roomId garbage).addSlot u, .init gameMode teamMode roomId u⟩
    · exact .inl (List.suffix_nil.mp suffix)
  | step run move ih =>
    rcases move.trace with same | ⟨e, same⟩
    · exact ih (same ▸ suffix)
    · rcases List.suffix_cons_iff.mp (same ▸ suffix) with rfl | suffix
      · exact .inr ⟨_, _, same ▸ run.step move⟩
      · exact ih suffix

end

/-! ### From the server to its rooms -/

/-- Each room has run, and a room that does not exist yet has seen nothing. -/
def RoomRuns (k : List Frame) (s : Server) : Prop :=
  ∀ p, (p < s.roomCnt → RoomRun p (roomFrames p k) (s.room p) (roomTrace p s.trace)) ∧
    (s.roomCnt ≤ p → roomFrames p k = [] ∧ roomTrace p s.trace = [])

theorem Room.departing_room? (u : Int) (p : RoomPtr) (r : Room) : (r.departing u p).room? = some p := by
  unfold Room.departing
  split <;> rfl

/-- Where everything waits, everything that a room sees waits. -/
theorem roomFrames_wait {p : RoomPtr} {k : List Frame} (waits : ∀ f ∈ k, ∃ role, Waits role f) :
    ∀ f ∈ roomFrames p k, ∃ role, Waits role f :=
  fun f hf => waits f (List.mem_filter.mp hf).1

namespace RoomRuns

variable {k : List Frame} {s s' : Server} {p : RoomPtr} {r : Room}

/-- The innermost activation is for a room that exists. -/
theorem alloc {f : Frame} (h : RoomRuns (f :: k) s) (top : f.room? = some p) : p < s.roomCnt := by
  by_contra lt
  have none := ((h p).2 (Nat.le_of_not_lt lt)).1
  rw [roomFrames, List.filter_cons_of_pos (by simp [top])] at none
  exact List.cons_ne_nil _ _ none

/-- What the list in front of another one leaves for a room, when it is all for room `p`. -/
theorem filter_front {α : Type} {room? : α → Option RoomPtr} {a l : List α} (h : ∀ x ∈ a, room? x = some p)
    (q : RoomPtr) : (a ++ l).filter (fun x => room? x == some q) =
      if q = p then a ++ l.filter (fun x => room? x == some q) else l.filter fun x => room? x == some q := by
  rw [List.filter_append]
  split
  · rename_i hq
    rw [List.filter_eq_self.mpr fun x hx => by simp [h x hx, hq]]
  · rename_i hq
    rw [List.filter_eq_nil_iff.mpr fun x hx => by simpa [h x hx] using Ne.symm hq]
    rfl

/-- A move of room `p` that replaces the activations `a` by `b` and logs the events `e`. -/
theorem move {a b : List Frame} {e : List Event} (h : RoomRuns (a ++ k) s) (alloc : p < s.roomCnt)
    (roomCnt : s'.roomCnt = s.roomCnt) (room : s'.room = Function.update s.room p r)
    (trace : (fun q => roomTrace q s'.trace) = fun q => roomTrace q (e ++ s.trace))
    (before : a.map Frame.room? = List.replicate a.length (some p))
    (after : b.map Frame.room? = List.replicate b.length (some p))
    (events : e.map Event.room? = List.replicate e.length (some p))
    (step : RoomStep p (a ++ roomFrames p k) (s.room p) (roomTrace p s.trace) (b ++ roomFrames p k) r
      (e ++ roomTrace p s.trace)) : RoomRuns (b ++ k) s' := by
  have own : ∀ {α : Type} {room? : α → Option RoomPtr} {l : List α},
      l.map room? = List.replicate l.length (some p) → ∀ x ∈ l, room? x = some p := fun hl x hx =>
    List.eq_of_mem_replicate (hl ▸ List.mem_map_of_mem hx)
  intro q
  have old := h q
  rw [roomFrames, filter_front (own before)] at old
  rw [roomCnt, room, congrFun trace q, roomFrames, roomTrace, filter_front (own after), filter_front (own events)]
  by_cases hq : q = p
  · subst hq
    rw [if_pos rfl] at old
    rw [if_pos rfl, if_pos rfl, Function.update_self]
    exact ⟨fun _ => (old.1 alloc).step step, fun le => absurd alloc (Nat.not_lt.mpr le)⟩
  · rw [if_neg hq] at old
    rw [if_neg hq, if_neg hq, Function.update_of_ne hq]
    exact old

/-- The same, when the record of the room stays as it is. -/
theorem keep {a b : List Frame} {e : List Event} (h : RoomRuns (a ++ k) s) (alloc : p < s.roomCnt)
    (roomCnt : s'.roomCnt = s.roomCnt) (room : s'.room = s.room)
    (trace : (fun q => roomTrace q s'.trace) = fun q => roomTrace q (e ++ s.trace))
    (before : a.map Frame.room? = List.replicate a.length (some p))
    (after : b.map Frame.room? = List.replicate b.length (some p))
    (events : e.map Event.room? = List.replicate e.length (some p))
    (step : RoomStep p (a ++ roomFrames p k) (s.room p) (roomTrace p s.trace) (b ++ roomFrames p k) (s.room p)
      (e ++ roomTrace p s.trace)) : RoomRuns (b ++ k) s' :=
  h.move alloc roomCnt (by rw [room, Function.update_eq_self]) trace before after events step

/-- The begin of a departure -/
theorem departed (h : RoomRuns k s) {u : Int} (alloc : p < s.roomCnt) (waits : ∀ f ∈ k, ∃ role, Waits role f)
    (pos : (s.room p).getPlayerId u ≠ 0) :
    RoomRuns ((s.room p).departing u p :: k) (RoomManager.departed u p s) :=
  h.move (a := []) (b := [_]) (e := [_]) alloc rfl rfl rfl rfl
    (congrArg (fun room => [room]) (Room.departing_room? u p _)) rfl (.leave (roomFrames_wait waits) pos)

/-- `CreateRoom` allocates a room. -/
theorem created (h : RoomRuns [] s) {garbage : Room} {gameMode teamMode roomId u : Int}
    (roomCnt : s'.roomCnt = s.roomCnt + 1)
    (room : s'.room = Function.update s.room s.roomCnt ((Room.init gameMode teamMode roomId garbage).addSlot u))
    (trace : (fun q => roomTrace q s'.trace) = fun q => roomTrace q (.roomInit s.roomCnt :: s.trace)) :
    RoomRuns [] s' := by
  intro q
  rw [roomCnt, room, congrFun trace q]
  by_cases hq : q = s.roomCnt
  · subst hq
    have seen : roomTrace s.roomCnt (.roomInit s.roomCnt :: s.trace) = [.roomInit s.roomCnt] := by
      rw [roomTrace, List.filter_cons_of_pos (by simp [Event.room?])]
      exact congrArg _ ((h s.roomCnt).2 (Nat.le_refl _)).2
    rw [Function.update_self, seen]
    exact ⟨fun _ => .init gameMode teamMode roomId u, fun le => absurd le (Nat.not_succ_le_self _)⟩
  · have seen : roomTrace q (.roomInit s.roomCnt :: s.trace) = roomTrace q s.trace :=
      List.filter_cons_of_neg (by simpa [Event.room?] using Ne.symm hq)
    rw [Function.update_of_ne hq, seen]
    exact ⟨fun lt => (h q).1 (RoomTable.old lt hq), fun le => (h q).2 (Nat.le_of_succ_le le)⟩

end RoomRuns

section
variable {env : Env} {k k' : List Frame} {s s' : Server}

theorem roomRuns_step (move : Step env k s k' s') (reached : Config env k s) (h : RoomRuns k s) : RoomRuns k' s' := by
  have rooms := reached.rooms
  have stack := reached.stack
  cases move with
  | drop _ _ =>
    obtain ⟨_, _, _, _, _, hs⟩ := dropConnection_eq _ _ s
    rw [hs]
    exact h
  | @leave k _ fd userId fd' _ _ _ _ belong pos =>
    have waits : ∀ f ∈ Frame.exited fd userId fd' :: k, ∃ role, Waits role f := by
      rintro f (_ | ⟨_, mem⟩)
      · exact ⟨_, .departExit (p := 0)⟩
      · exact stack.waits mem
    exact RoomRuns.departed (k := .exited fd userId fd' :: k) h (rooms.belong belong) waits pos
  | left =>
    rw [PersonManager.changePersonStatus_eq]
    exact h.keep (a := [_]) (b := []) (e := []) (h.alloc rfl) rfl rfl rfl rfl rfl rfl .left
  | uncount loaded =>
    exact h.move (a := [_]) (b := []) (e := []) (h.alloc rfl) rfl rfl rfl rfl rfl rfl (.uncount loaded)
  | exited unloaded waits =>
    exact h.keep (a := [_]) (b := []) (e := [_]) (h.alloc rfl) rfl rfl rfl rfl rfl rfl (.exited unloaded waits)
  | exitStart unloaded all status =>
    exact h.keep (a := [_]) (b := [_]) (e := [_]) (h.alloc rfl) rfl rfl rfl rfl rfl rfl (.exitStart unloaded all status)
  | quit add =>
    exact h.move (a := [_]) (b := []) (e := [_]) (h.alloc rfl) rfl rfl rfl rfl rfl rfl (.quit add)
  | @everyone k _ p mess f f' may =>
    have bottom : ∀ {fd : Int} {user : Option Int} {req : CMessage}, f = .handling fd user req → k = [] := by
      rintro _ _ _ rfl
      exact stack.request
    cases may with
    | changed belong =>
      obtain rfl := bottom rfl
      exact h.keep (a := []) (b := [_]) (e := [_]) (rooms.belong belong) rfl rfl rfl rfl rfl rfl (.everyone (.detail _))
    | joined room =>
      obtain rfl := bottom rfl
      exact h.keep (a := []) (b := [_]) (e := [_]) (rooms.table.room room).1 rfl rfl rfl rfl rfl rfl
        (.everyone (.detail _))
    | exit =>
      exact h.keep (a := [_]) (b := [_, _]) (e := [_]) (h.alloc rfl) rfl rfl rfl rfl rfl rfl (.everyone .exit)
    | loadingUp =>
      exact h.keep (a := [_]) (b := [_, _]) (e := [_]) (h.alloc rfl) rfl rfl rfl rfl rfl rfl (.everyone .loadingUp)
    | starting =>
      exact h.keep (a := [_]) (b := [_, _]) (e := [_]) (h.alloc rfl) rfl rfl rfl rfl rfl rfl (.everyone .starting)
    | leaving =>
      exact h.keep (a := [_]) (b := [_, _]) (e := [_]) (h.alloc rfl) rfl rfl rfl rfl rfl rfl (.everyone (.leaving _))
    | exiting =>
      exact h.keep (a := [_]) (b := [_, _]) (e := [_]) (h.alloc rfl) rfl rfl rfl rfl rfl rfl (.everyone .exiting)
    | casting =>
      exact h.keep (a := [_]) (b := [_, _]) (e := [_]) (h.alloc rfl) rfl rfl rfl rfl rfl rfl (.everyone .casting)
  | skipSlot le offline =>
    exact h.keep (a := [_]) (b := [_]) (e := []) (h.alloc rfl) rfl rfl rfl rfl rfl rfl (.skipSlot le offline)
  | @deliver _ _ p mess i le online =>
    have sent : RoomRuns _ (s.log (.deliver p i mess)) :=
      h.keep (a := [_]) (b := [.delivering p mess i]) (e := [_]) (h.alloc rfl) rfl rfl rfl rfl rfl rfl
        (.deliver le online)
    exact sent
  | delivered =>
    exact h.keep (a := [_]) (b := [_]) (e := []) (h.alloc rfl) rfl rfl rfl rfl rfl rfl .delivered
  | everyoneEnd gt =>
    exact h.keep (a := [_]) (b := []) (e := []) (h.alloc rfl) rfl rfl rfl rfl rfl rfl (.everyoneEnd gt)
  | loadBegin belong status _ =>
    exact h.keep (a := []) (b := [_]) (e := []) (rooms.belong belong) rfl rfl rfl rfl rfl rfl (.loadBegin status)
  | load now =>
    exact h.move (a := [_]) (b := []) (e := [_]) (h.alloc rfl) rfl rfl rfl rfl rfl rfl (.load now)
  | loadReport belong status pos unloaded waits =>
    obtain ⟨slot, online, -⟩ := Room.getPlayerId_spec pos
    exact h.move (a := []) (b := []) (e := [_]) (rooms.belong belong) rfl rfl rfl rfl rfl rfl
      (.loadReport status slot online unloaded waits)
  | reportStart belong status pos unloaded all =>
    obtain ⟨slot, online, -⟩ := Room.getPlayerId_spec pos
    exact h.move (a := []) (b := [_]) (e := [_]) (rooms.belong belong) rfl rfl rfl rfl rfl rfl
      (.reportStart status slot online unloaded all)
  | timeout status late =>
    exact h.keep (a := [_]) (b := [_, _]) (e := [_]) (h.alloc rfl) rfl rfl rfl rfl rfl rfl (.timeout status late)
  | kickSlot le online unloaded =>
    obtain ⟨_, _, rfl⟩ := stack.timeout
    exact h.keep (k := []) (a := [_, _]) (b := [_, _, _]) (e := []) (h.alloc rfl) rfl rfl rfl rfl rfl rfl
      (.kickSlot le online unloaded)
  | kickedSlot =>
    exact h.keep (a := [_]) (b := []) (e := []) (h.alloc rfl) rfl rfl rfl rfl rfl rfl .kickedSlot
  | timeoutStart status =>
    obtain ⟨_, _, rfl⟩ := stack.timeout
    exact h.keep (k := []) (a := [_, _]) (b := [_, _]) (e := []) (h.alloc rfl) rfl rfl rfl rfl rfl rfl
      (.timeoutStart status)
  | timeoutEnd status =>
    obtain ⟨_, _, rfl⟩ := stack.timeout
    exact h.keep (k := []) (a := [_, _]) (b := [_]) (e := []) (h.alloc rfl) rfl rfl rfl rfl rfl rfl (.timeoutEnd status)
  | start now now' =>
    exact h.move (a := [_]) (b := []) (e := [_]) (h.alloc rfl) rfl rfl rfl rfl rfl rfl (.start now now')
  | synUse may =>
    refine h.keep (a := []) (b := []) (e := [_]) ?_ rfl rfl rfl rfl rfl rfl .synUse
    cases may with
    | quitting => exact h.alloc rfl
    | plays plays =>
      cases plays with
      | member _ belong _ => exact rooms.belong belong
      | pause _ room _ => exact (rooms.table.room room).1
    | gameEnd _ belong => exact rooms.belong belong
  | updateTime p now =>
    by_cases alloc : p < s.roomCnt
    · exact h.move (a := []) (b := []) (e := []) alloc rfl rfl rfl rfl rfl rfl (.updateTime now)
    · intro q
      refine ⟨fun lt => ?_, (h q).2⟩
      rw [Server.setRoom_room_ne (by rintro rfl; exact alloc lt)]
      exact (h q).1 lt
  | relay plays gameplay add =>
    refine h.move (a := []) (b := []) (e := [_]) ?_ rfl rfl rfl rfl rfl rfl (.relay gameplay add)
    cases plays with
    | member _ belong _ => exact rooms.belong belong
    | pause _ room _ => exact (rooms.table.room room).1
  | runBegin now status =>
    exact h.move (a := [_]) (b := [_, _]) (e := []) (h.alloc rfl) rfl rfl rfl rfl rfl rfl (.runBegin now status)
  | frameBegin due =>
    obtain ⟨_, _, rfl⟩ := stack.running
    exact h.keep (k := []) (a := [_, _]) (b := [_, _, _]) (e := [_]) (h.alloc rfl) rfl rfl rfl rfl rfl rfl
      (.frameBegin due)
  | castEmpty head empty =>
    obtain ⟨_, _, rfl⟩ := stack.frame rfl
    exact h.keep (k := []) (a := [_, _, _]) (b := [_, _, _, _]) (e := [_]) (h.alloc rfl) rfl rfl rfl rfl rfl rfl
      (.castEmpty head empty)
  | castNone head filled =>
    obtain ⟨_, _, rfl⟩ := stack.frame rfl
    exact h.keep (k := []) (a := [_, _, _]) (b := [_, _, _]) (e := []) (h.alloc rfl) rfl rfl rfl rfl rfl rfl
      (.castNone head filled)
  | cast head mess =>
    obtain ⟨_, _, rfl⟩ := stack.frame rfl
    exact h.move (k := []) (a := [_, _, _]) (b := [_, _, _, _]) (e := [_]) (h.alloc rfl) rfl rfl rfl rfl rfl rfl
      (.cast head mess)
  | castDone =>
    obtain ⟨_, _, _, _, rfl⟩ := stack.casting
    exact h.keep (k := []) (a := [_, _, _, _]) (b := [_, _, _]) (e := [_]) (h.alloc rfl) rfl rfl rfl rfl rfl rfl .castDone
  | frameEnd head none =>
    obtain ⟨_, _, rfl⟩ := stack.frame rfl
    exact h.move (k := []) (a := [_, _, _]) (b := [_, _, _]) (e := [_]) (h.alloc rfl) rfl rfl rfl rfl rfl rfl
      (.frameEnd head none)
  | advance next =>
    obtain ⟨_, _, rfl⟩ := stack.frame rfl
    exact h.move (k := []) (a := [_, _, _]) (b := [_, _]) (e := []) (h.alloc rfl) rfl rfl rfl rfl rfl rfl
      (.advance next)
  | runEnd =>
    obtain ⟨_, _, rfl⟩ := stack.running
    exact h.keep (k := []) (a := [_, _]) (b := [_]) (e := []) (h.alloc rfl) rfl rfl rfl rfl rfl rfl .runEnd
  | enter _ _ _ person =>
    have free := (PersonManager.personLogin_eq person).1
    rw [enter_eq person (reached.users.userIdToFd_none free)]
    exact h
  | heartbeat _ old =>
    obtain ⟨_, _, rfl⟩ := Heartbeat.erased old
    exact h
  | create gameMode teamMode _ _ _ =>
    obtain ⟨p, roomId, freeRoom, roomCnt, nextRoomId, garbage, takes, hs⟩ :=
      RoomManager.created_eq _ gameMode teamMode s
    rw [hs]
    cases takes with
    | free free =>
      exact h.move (a := []) (b := []) (e := [.roomInit p]) (rooms.table.free (free ▸ List.mem_cons_self)).1 rfl rfl rfl rfl rfl rfl
        (.init gameMode teamMode (s.room p).roomId _)
    | new _ => exact RoomRuns.created h rfl rfl rfl
  | join _ _ room _ status cnt =>
    rw [RoomManager.joined_eq]
    exact h.move (a := []) (b := []) (e := []) (rooms.table.room room).1 rfl rfl rfl rfl rfl rfl (.join _ status cnt)
  | exitBegin belong =>
    exact h.keep (a := []) (b := [_]) (e := []) (rooms.belong belong) rfl rfl rfl rfl rfl rfl (.exitBegin _)
  | @exitRoom k _ u p belong status pos =>
    have waits : ∀ f ∈ Frame.exitRequest u p :: k, ∃ role, Waits role f := by
      rintro f (_ | ⟨_, mem⟩)
      · exact ⟨_, .departRequest⟩
      · exact stack.waits mem
    have departed := h.departed (rooms.belong belong) waits pos
    simp only [Room.departing, status] at departed
    exact departed
  | exitEnd =>
    exact h.keep (a := [_]) (b := []) (e := []) (h.alloc rfl) rfl rfl rfl rfl rfl rfl .exitEnd
  | change teamId gameOption belong status =>
    exact h.move (a := []) (b := []) (e := []) (rooms.belong belong) rfl rfl rfl rfl rfl rfl
      (.change _ teamId gameOption status)
  | gameEnd belong status pos =>
    rw [PersonManager.changePersonStatus_eq]
    exact h.move (a := []) (b := []) (e := [_]) (rooms.belong belong) rfl rfl rfl rfl rfl rfl (.gameEnd status pos)
  | gameEndFail belong _ =>
    exact h.keep (a := []) (b := []) (e := [_]) (rooms.belong belong) rfl rfl rfl rfl rfl rfl (.gameEndFail _)
  | tickBegin room =>
    exact h.keep (a := []) (b := [_]) (e := []) (rooms.table.room room).1 rfl rfl rfl rfl rfl rfl (.tickBegin _ _)
  | recycle empty =>
    exact h.keep (a := [_]) (b := []) (e := [_]) (h.alloc rfl) rfl rfl rfl rfl rfl rfl (.recycle empty)
  | tickEnd _ =>
    exact h.keep (a := [_]) (b := []) (e := []) (h.alloc rfl) rfl rfl rfl rfl rfl rfl .tickEnd
  | acceptFail sock acc _ =>
    obtain ⟨_, _, _, _, _, rfl⟩ := acceptSocket_eq sock acc
    exact h
  | acceptLost sock acc _ =>
    obtain ⟨_, _, _, _, _, rfl⟩ := acceptSocket_eq sock acc
    exact h
  | accept _ sock acc _ =>
    obtain ⟨_, _, _, hs⟩ := accepted_eq _ _ _
    rw [hs]
    obtain ⟨_, _, _, _, _, rfl⟩ := acceptSocket_eq sock acc
    exact h
  | _ => exact h

theorem Config.roomRuns (h : Config env k s) : RoomRuns k s := by
  induction h with
  | @boot s booted =>
    intro p
    rw [booted.roomCnt, booted.trace]
    exact ⟨fun lt => absurd lt (Nat.not_lt_zero p), fun _ => ⟨rfl, rfl⟩⟩
  | step reached move ih => exact roomRuns_step move reached ih

/-- Every run of the server is a run of each of its rooms. -/
theorem Config.roomRun (h : Config env k s) {p : RoomPtr} (alloc : p < s.roomCnt) :
    RoomRun p (roomFrames p k) (s.room p) (roomTrace p s.trace) :=
  (h.roomRuns p).1 alloc

end

end IslandSurvival

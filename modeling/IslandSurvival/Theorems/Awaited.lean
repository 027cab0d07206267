import IslandSurvival.Theorems.Loading

/-! No start of a game is lost. The counters are compared by the player that reports last and by a player
    that leaves without having loaded; the departure of a loaded player compares nothing. As long as
    everybody online has loaded, somebody who still has to compare them is on the way. -/

namespace IslandSurvival

/-- Somebody will compare the counters, or start the game. -/
def Room.Due (r : Room) (work : List LoadWork) : Prop :=
  .starting ∈ work ∨ .timeout ∈ work ∨ ∃ i, .exiting i ∈ work ∧ r.isLoadingSucceed i = false

/-- A loading room with players waits for a player, or its start is due. -/
def Room.Awaited (r : Room) (work : List LoadWork) : Prop :=
  r.status = .loading → r.onlineSlots ≠ [] → r.unreported = [] → r.Due work

/-- Fewer players have loaded than are online: one of those who are online has not. -/
theorem Room.unreported_ne_nil {r : Room} (counted : r.Counted) (loaded : r.loadingSucceedCnt = r.loaded.length)
    (waits : r.loadingSucceedCnt < r.onlinePlayerCnt) : r.unreported ≠ [] := by
  intro none
  have online := counted.onlinePlayerCnt
  have le : (r.slots.filter r.isOnline).length ≤ (r.slots.filter r.isLoadingSucceed).length := by
    rw [← List.countP_eq_length_filter, ← List.countP_eq_length_filter]
    refine List.countP_mono_left fun i hi here => ?_
    have := List.filter_eq_nil_iff.mp none i hi
    simpa [here] using this
  simp only [Room.members, List.length_map] at online
  simp only [Room.loaded] at loaded
  omega

namespace Room.Awaited

variable {r : Room} {work : List LoadWork} {pos : Nat}

/-- Updates that leave the slots and the counters as they are. -/
theorem congr {r' : Room} (h : r.Awaited work) (slots : r'.playerCnt = r.playerCnt)
    (online : r'.isOnline = r.isOnline) (loaded : r'.isLoadingSucceed = r.isLoadingSucceed)
    (status : r'.status = r.status) : r'.Awaited work := by
  simp only [Awaited, Due, onlineSlots, unreported, Room.slots, slots, online, loaded, status]
  exact h

/-- A room that is not loading waits for nobody. -/
theorem of_status (status : r.status ≠ .loading) : r.Awaited work :=
  fun loading => absurd loading status

theorem of_due (due : r.Due work) : r.Awaited work := fun _ _ _ => due

theorem of_unreported (some : r.unreported ≠ []) : r.Awaited work := fun _ _ none => absurd none some

/-- At the begin of loading nobody has loaded. -/
theorem load (now : Int) : (r.startLoading now).Awaited work := by
  intro _ online none
  refine absurd ?_ online
  simpa [startLoading, unreported, onlineSlots, Room.slots] using none

/-- A slot goes offline: either it had not loaded, or nothing changes for the others. -/
theorem offline (h : r.Awaited work) : (r.setOffline pos).Awaited (.exiting pos :: work) := by
  intro loading online none
  cases flag : r.isLoadingSucceed pos with
  | false => exact .inr (.inr ⟨pos, List.mem_cons_self, flag⟩)
  | true =>
    have before : r.unreported = [] := by
      rw [unreported, List.filter_eq_nil_iff] at none ⊢
      intro i hi
      by_cases hpos : i = pos
      · simp [hpos, flag]
      · simpa [setOffline, hpos] using none i hi
    have there : r.onlineSlots ≠ [] := by
      intro nobody
      refine online ?_
      rw [onlineSlots, List.filter_eq_nil_iff] at nobody ⊢
      intro i hi
      by_cases hpos : i = pos
      · simp [setOffline, hpos]
      · simpa [setOffline, hpos] using nobody i hi
    rcases h loading there before with start | late | ⟨i, exits, unloaded⟩
    · exact .inl (List.mem_cons_of_mem _ start)
    · exact .inr (.inl (List.mem_cons_of_mem _ late))
    · exact .inr (.inr ⟨i, List.mem_cons_of_mem _ exits, unloaded⟩)

/-- A loaded player that left is uncounted: it was not the one that the others wait for. -/
theorem uncount (h : r.Awaited (.exiting pos :: work)) (offline : r.isOnline pos = false)
    (loaded : r.isLoadingSucceed pos = true) : (r.unloadSlot pos).Awaited work := by
  intro loading online none
  have before : r.unreported = [] := by
    rw [unreported, List.filter_eq_nil_iff] at none ⊢
    intro i hi
    by_cases hpos : i = pos
    · simp [hpos, offline]
    · simpa [unloadSlot, hpos] using none i hi
  rcases h loading online before with start | late | ⟨i, exits, unloaded⟩
  · exact .inl (List.mem_of_ne_of_mem (by simp) start)
  · exact .inr (.inl (List.mem_of_ne_of_mem (by simp) late))
  · have hpos : i ≠ pos := by
      rintro rfl
      simp [loaded] at unloaded
    exact .inr (.inr ⟨i, List.mem_of_ne_of_mem (by simp [hpos]) exits, by simpa [unloadSlot, hpos] using unloaded⟩)

end Room.Awaited

/-! ### Over runs -/

/-- The rooms of a configuration -/
def Awaiting (k : List Frame) (s : Server) : Prop :=
  ∀ p, p < s.roomCnt → (s.room p).Awaited (k.filterMap (Frame.load? p))

namespace Awaiting

variable {k k' : List Frame} {s s' : Server} {p : RoomPtr} {r : Room}

/-- A move that changes one room, or what is pending for it. -/
theorem update (h : Awaiting k s) (roomCnt : s'.roomCnt = s.roomCnt) (room : s'.room = Function.update s.room p r)
    (here : p < s.roomCnt → (s.room p).Awaited (k.filterMap (Frame.load? p)) → r.Awaited (k'.filterMap (Frame.load? p)))
    (work : ∀ q, q ≠ p → k'.filterMap (Frame.load? q) = k.filterMap (Frame.load? q)) : Awaiting k' s' := by
  intro q hq
  rw [roomCnt] at hq
  rw [room]
  by_cases hp : q = p
  · subst hp
    rw [Function.update_self]
    exact here hq (h q hq)
  · rw [Function.update_of_ne hp, work q hp]
    exact h q hq

theorem pending (h : Awaiting k s) (roomCnt : s'.roomCnt = s.roomCnt) (room : s'.room = s.room)
    (here : p < s.roomCnt → (s.room p).Awaited (k.filterMap (Frame.load? p)) →
      (s.room p).Awaited (k'.filterMap (Frame.load? p)))
    (work : ∀ q, q ≠ p → k'.filterMap (Frame.load? q) = k.filterMap (Frame.load? q)) : Awaiting k' s' :=
  h.update roomCnt (by rw [room, Function.update_eq_self]) here work

theorem setRoom (h : Awaiting k s)
    (here : ∀ {work : List LoadWork}, (s.room p).Awaited work → r.Awaited work) : Awaiting k (s.setRoom p r) :=
  h.update rfl rfl (fun _ old => here old) fun _ _ => rfl

/-- The begin of a departure -/
theorem departed (h : Awaiting k s) (u : Int) (p : RoomPtr) :
    Awaiting ((s.room p).departing u p :: k) (RoomManager.departed u p s) := by
  refine h.update (p := p) rfl rfl (fun _ old => ?_) fun q hq => ?_
  · unfold Room.departing Room.vacate
    cases status : (s.room p).status with
    | waiting => exact .of_status (by simp [Room.removeSlot, status])
    | loading =>
      rw [List.filterMap_cons_some (b := .exiting ((s.room p).getPlayerId u)) (by simp [Frame.load?])]
      exact old.offline
    | ingame => exact .of_status (by simp [Room.setOffline, status])
  · refine List.filterMap_cons_none ?_
    unfold Room.departing
    split <;> simp [Frame.load?, hq.symm]

end Awaiting

variable {env : Env} {k k' : List Frame} {s s' : Server}

theorem awaiting_step (move : Step env k s k' s') (reached : Config env k s) (h : Awaiting k s) : Awaiting k' s' := by
  have rooms := reached.rooms
  have loading := reached.loading
  cases move with
  | drop _ _ =>
    obtain ⟨_, _, _, _, _, hs⟩ := dropConnection_eq _ _ s
    rw [hs]
    exact h
  | leave _ _ _ _ => exact h.departed _ _
  | @exitRoom _ _ u p _ status _ =>
    have departed := h.departed u p
    simp only [Room.departing, status] at departed
    exact departed
  | left =>
    rw [PersonManager.changePersonStatus_eq]
    exact h
  | everyone may => cases may <;> exact h
  | @uncount _ _ p pos loaded =>
    refine h.update (p := p) rfl rfl (fun alloc old => ?_) fun q hq => ?_
    · have here := loading.2 p alloc
      rw [LoadsRoom, List.filterMap_cons_some (b := .exiting pos) (by simp [Frame.load?])] at here
      rw [List.filterMap_cons_some (b := .exiting pos) (by simp [Frame.load?])] at old
      exact old.uncount (here.exiting List.mem_cons_self).2.1 loaded
    · rw [List.filterMap_cons_none (by simp [Frame.load?, hq.symm])]
  | @exited _ _ p pos unloaded waits =>
    refine h.pending (p := p) rfl rfl (fun alloc _ => ?_) fun q hq => ?_
    · rcases waits with waits | status
      · by_cases status : (s.room p).status = .loading
        · exact .of_unreported (Room.unreported_ne_nil (rooms.counted alloc) ((loading.2 p alloc).counted status).1 waits)
        · exact .of_status status
      · exact .of_status status
    · rw [List.filterMap_cons_none (by simp [Frame.load?, hq.symm])]
  | @exitStart _ _ p _ _ _ _ =>
    refine h.pending (p := p) rfl rfl (fun _ _ => ?_) fun q hq => ?_
    · rw [List.filterMap_cons_some (b := .starting) (by simp [Frame.load?])]
      exact .of_due (.inl List.mem_cons_self)
    · rw [List.filterMap_cons_none (by simp [Frame.load?, hq.symm]),
        List.filterMap_cons_none (by simp [Frame.load?, hq.symm])]
  | @loadBegin _ _ _ _ p _ status _ =>
    refine h.pending (p := p) rfl rfl (fun _ _ => .of_status (by simp [status])) fun q hq => ?_
    rw [List.filterMap_cons_none (by simp [Frame.load?, hq.symm])]
  | load now =>
    refine h.update rfl rfl (fun _ _ => .load now) fun q hq => ?_
    simp [Frame.load?, hq.symm]
  | loadReport _ status pos unloaded waits =>
    obtain ⟨slot, online, -⟩ := Room.getPlayerId_spec pos
    refine h.update rfl rfl (fun alloc _ => ?_) fun _ _ => rfl
    have reported := LoadRoom.report (loading.2 _ alloc) slot online unloaded
    exact .of_unreported (Room.unreported_ne_nil (rooms.counted alloc).loadSlot (reported.counted status).1 waits)
  | @reportStart _ _ _ _ p _ _ _ _ _ =>
    refine h.update (p := p) rfl rfl (fun _ _ => ?_) fun q hq => ?_
    · rw [List.filterMap_cons_some (b := .starting) (by simp [Frame.load?])]
      exact .of_due (.inl List.mem_cons_self)
    · rw [List.filterMap_cons_none (by simp [Frame.load?, hq.symm])]
  | @timeout _ _ p _ _ _ _ =>
    refine h.pending (p := p) rfl rfl (fun _ _ => ?_) fun q hq => ?_
    · rw [List.filterMap_cons_some (b := .timeout) (by simp [Frame.load?])]
      exact .of_due (.inr (.inl List.mem_cons_self))
    · rw [List.filterMap_cons_none (by simp [Frame.load?, hq.symm])]
  | @timeoutStart _ _ p _ =>
    refine h.pending (p := p) rfl rfl (fun _ _ => ?_) fun q hq => ?_
    · rw [List.filterMap_cons_some (b := .starting) (by simp [Frame.load?])]
      exact .of_due (.inl List.mem_cons_self)
    · rw [List.filterMap_cons_none (by simp [Frame.load?, hq.symm]),
        List.filterMap_cons_none (by simp [Frame.load?, hq.symm])]
  | @timeoutEnd _ _ p status =>
    refine h.pending (p := p) rfl rfl (fun _ _ => .of_status status) fun q hq => ?_
    rw [List.filterMap_cons_none (by simp [Frame.load?, hq.symm])]
  | start now now' =>
    refine h.update rfl rfl (fun _ _ => .of_status (by simp [Room.startGame])) fun q hq => ?_
    rw [List.filterMap_cons_none (by simp [Frame.load?, hq.symm])]
  | enter _ _ _ person =>
    have free := (PersonManager.personLogin_eq person).1
    rw [enter_eq person (reached.users.userIdToFd_none free)]
    exact h
  | heartbeat _ old =>
    obtain ⟨_, _, rfl⟩ := Heartbeat.erased old
    exact h
  | create gameMode teamMode _ _ _ =>
    obtain ⟨p, roomId, freeRoom, roomCnt, nextRoomId, garbage, takes, hs⟩ :=
      RoomManager.created_eq _ gameMode teamMode s
    rw [hs]
    intro q hq
    by_cases hp : q = p
    · subst hp
      exact .of_status (by simp [Room.init, Room.addSlot])
    · simp only [Function.update_of_ne hp]
      refine h q ?_
      cases takes with
      | free _ => exact hq
      | new _ => exact RoomTable.old hq hp
  | join _ _ _ _ status _ =>
    rw [RoomManager.joined_eq]
    exact h.update rfl rfl (fun _ _ => .of_status (by simp [Room.addSlot, status])) fun _ _ => rfl
  | @change _ _ u _ p teamId gameOption _ _ =>
    obtain ⟨_, _, hr⟩ := MP.applyChange_eq u teamId gameOption (s.room p)
    rw [hr]
    exact h.setRoom fun old => old.congr rfl rfl rfl rfl
  | gameEnd _ status _ =>
    rw [PersonManager.changePersonStatus_eq]
    exact h.update rfl rfl (fun _ _ => .of_status (by simp [Room.setOffline, status])) fun _ _ => rfl
  | acceptFail sock acc _ =>
    obtain ⟨_, _, _, _, _, rfl⟩ := acceptSocket_eq sock acc
    exact h
  | acceptLost sock acc _ =>
    obtain ⟨_, _, _, _, _, rfl⟩ := acceptSocket_eq sock acc
    exact h
  | accept _ sock acc _ =>
    obtain ⟨_, _, _, hs⟩ := accepted_eq _ _ _
    rw [hs]
    obtain ⟨_, _, _, _, _, rfl⟩ := acceptSocket_eq sock acc
    exact h
  | _ =>
    first
    | exact h
    | exact h.setRoom fun old => old.congr rfl rfl rfl rfl

theorem Config.awaiting (h : Config env k s) : Awaiting k s := by
  induction h with
  | boot booted =>
    intro p hp
    rw [booted.roomCnt] at hp
    exact absurd hp (Nat.not_lt_zero p)
  | step reached move ih => exact awaiting_step move reached ih

/-- Between two turns a loading room with players waits for one of them. -/
theorem loading_waits_for_player (h : Reachable env s) {id : Int} {p : RoomPtr} (room : s.rooms[id]? = some p)
    (loading : (s.room p).status = .loading) {i : Nat} (first : 1 ≤ i) (last : i ≤ (s.room p).playerCnt)
    (online : (s.room p).isOnline i = true) : ∃ j, 1 ≤ j ∧ j ≤ (s.room p).playerCnt ∧
      (s.room p).isOnline j = true ∧ (s.room p).isLoadingSucceed j = false := by
  have alloc := (h.config.rooms.table.room room).1
  have there : (s.room p).onlineSlots ≠ [] :=
    List.ne_nil_of_mem (List.mem_filter.mpr ⟨Room.mem_slots.mpr ⟨first, last⟩, online⟩)
  have some : (s.room p).unreported ≠ [] := by
    intro none
    rcases h.config.awaiting p alloc loading there none with start | late | ⟨_, exits, -⟩
    · exact absurd start List.not_mem_nil
    · exact absurd late List.not_mem_nil
    · exact absurd exits List.not_mem_nil
  obtain ⟨j, hj⟩ := List.exists_mem_of_ne_nil _ some
  obtain ⟨slot, waits⟩ := List.mem_filter.mp hj
  simp only [Bool.and_eq_true, Bool.not_eq_true'] at waits
  obtain ⟨first, last⟩ := Room.mem_slots.mp slot
  exact ⟨j, first, last, waits.1, waits.2⟩

/-- Player 1 starts the loading of a room of three and has loaded. -/
def Script.firstLoaded : Env :=
  party (fun n => if n = 46 then [readable 4] else [])
    (fun n => if n = 47 then some (request 0x10 ++ request 0x12) else none) fun _ => false

/-- Then the room waits for another player. -/
theorem loading_waits_for_player_after_report : ∃ s, Reachable Script.firstLoaded s ∧
    (s.room 0).status = .loading ∧ (s.room 0).isLoadingSucceed 1 = true ∧
      ∃ j, 1 ≤ j ∧ j ≤ (s.room 0).playerCnt ∧ (s.room 0).isOnline j = true ∧ (s.room 0).isLoadingSucceed j = false := by
  obtain ⟨s, reachable, test⟩ := exists_of_ends 7
    (fun s => s.rooms[(1000 : Int)]? == some 0 && decide ((s.room 0).status = .loading) &&
      (s.room 0).isLoadingSucceed 1 && decide (1 ≤ (s.room 0).playerCnt) && (s.room 0).isOnline 1)
    (Script.reachable Script.firstLoaded) (by decide +kernel)
  simp only [Bool.and_eq_true, beq_iff_eq, decide_eq_true_eq] at test
  obtain ⟨⟨⟨⟨room, loading⟩, loaded⟩, last⟩, online⟩ := test
  exact ⟨s, reachable, loading, loaded, loading_waits_for_player reachable room loading (Nat.le_refl 1) last online⟩

end IslandSurvival

import IslandSurvival.Theorems.Tenants

/-! Calls on rooms that are refused. Each call checks before it changes anything, with one exception: a request
    to end a game forgets the room of its user before the room is asked. -/

namespace IslandSurvival

open Prog

/-- The calls of `RoomManager` and `Room` that can be refused -/
inductive RoomCall
  | createRoom (gameMode teamMode : Int)
  | joinRoom (roomId : Int)
  | deletePlayerFromRoom
  | gameEndFromRoom
  | changeTeamId (p : RoomPtr) (teamId : Int)
  | changeGameOption (p : RoomPtr) (gameOption : Int)
deriving DecidableEq

/-- A change of a room, and whether it is refused -/
def Room.changing (p : RoomPtr) (change : Room → Ret × Room) : M Bool := do
  let (ret, r) := change (← getRoom p)
  modifyRoom p fun _ => r
  return ret = .fail

/-- A call for a user, and whether it is refused -/
def RoomCall.refused (env : Env) (userId : Int) : RoomCall → M Bool
  | createRoom gameMode teamMode => do
    let (ret, _) ← RoomManager.createRoom userId gameMode teamMode
    return ret = .fail
  | joinRoom roomId => do
    let ret ← RoomManager.joinRoom userId roomId
    return ret ≠ .addPlayerSucceed
  | deletePlayerFromRoom => do
    let ret ← RoomManager.deletePlayerFromRoom env (deleteClientByFd env) userId
    return ret = .fail
  | gameEndFromRoom => do
    let ret ← RoomManager.gameEndFromRoom userId
    return ret = .fail
  | changeTeamId p teamId => Room.changing p (·.changeTeamId userId teamId)
  | changeGameOption p gameOption => Room.changing p (·.changeGameOption userId gameOption)

/-- `t` has the tables of the rooms, the rooms and the statuses of the players that `s` has. -/
structure Unchanged (s t : Server) : Prop where
  belongRoom : t.belongRoom = s.belongRoom
  rooms : t.rooms = s.rooms
  freeRoom : t.freeRoom = s.freeRoom
  room : t.room = s.room
  status : ∀ u : Int, t.persons[u]?.map Person.status = s.persons[u]?.map Person.status

theorem Unchanged.refl (s : Server) : Unchanged s s := ⟨rfl, rfl, rfl, rfl, fun _ => rfl⟩

/-! ### What a refusal leaves -/

section
variable {env : Env} {s : Server} {u : Int} {p : RoomPtr}

/-- A call that is refused leaves what `Q` says. -/
def Refused (Q : Server → Prop) (call : M Bool) (s : Server) : Prop :=
  ∀ t, call s = .ok true t → Q t

theorem Refused.of {Q : Server → Prop} {call : M Bool}
    (h : wp call (fun refused t => refused = true → Q t) (fun _ _ => True) s) : Refused Q call s :=
  fun _ run => wp_ok h run rfl

theorem addPlayer_refused :
    wp (Room.addPlayer p u) (fun ret t => ret ≠ .addPlayerSucceed → t = s) (fun _ _ => True) s := by
  simp only [Room.addPlayer, wp_bind, wp_getRoom]
  split
  · split
    · exact fun _ => rfl
    · simp
  · exact fun _ => rfl

theorem createRoom_refused (gameMode teamMode : Int) :
    Refused (Unchanged s) (RoomCall.refused env u (.createRoom gameMode teamMode)) s := by
  refine .of ?_
  simp only [RoomCall.refused, RoomManager.createRoom, wp_bind, wp_get, wp_pure]
  split
  · exact fun _ => .refl s
  · simp only [wp_bind, wp_set, wp_discard, wp_pure]
    exact wp_mono wp_self (by simp) (by simp)

theorem joinRoom_refused (roomId : Int) : Refused (Unchanged s) (RoomCall.refused env u (.joinRoom roomId)) s := by
  refine .of ?_
  simp only [RoomCall.refused, RoomManager.joinRoom, wp_bind, wp_get, wp_pure, decide_eq_true_eq]
  split
  · exact fun _ => .refl s
  · split
    · exact fun _ => .refl s
    · rw [wp_bind]
      refine wp_post addPlayer_refused fun ret t same => ?_
      split
      · simp only [wp_bind, wp_modify, wp_pure]
        exact fun refused => absurd ‹ret = .addPlayerSucceed› refused
      · exact fun refused => same refused ▸ .refl s

/-- A player with a slot is not refused. -/
theorem deletePlayer_refused (del : Int → M Unit) (pos : (s.room p).getPlayerId u ≠ 0) :
    wp (Room.deletePlayer env del p u) (fun ret _ => ret ≠ .fail) (fun _ _ => True) s := by
  have done {c : M Unit} {s : Server} : wp c (fun _ _ => True) (fun _ _ => True) s :=
    wp_mono wp_self (fun _ _ _ => trivial) fun _ _ _ => trivial
  simp only [Room.deletePlayer, wp_bind, wp_getRoom, if_neg pos]
  cases (s.room p).status with
  | waiting => simp only [wp_bind, wp_get, wp_pure, ne_eq, reduceCtorEq, not_false_eq_true, done]
  | loading =>
    simp only [wp_bind, wp_modify, wp_getRoom]
    refine wp_mono wp_self (fun _ t _ => ?_) fun _ _ _ => trivial
    split
    · simp
    · simp only [wp_bind, wp_log]
      split
      · simp only [wp_bind, wp_pure, ne_eq, reduceCtorEq, not_false_eq_true, done]
      · simp
  | ingame =>
    simp only [wp_bind, wp_modify, wp_pure, ne_eq, reduceCtorEq, not_false_eq_true, done]
    exact wp_mono wp_self (fun _ _ _ => trivial) fun _ _ _ => trivial

/-- A user that is bound to a room has a slot of it, so only a user without a room is refused. -/
theorem deletePlayerFromRoom_refused (member : ∀ p, s.belongRoom[u]? = some p → (s.room p).getPlayerId u ≠ 0) :
    Refused (Unchanged s) (RoomCall.refused env u .deletePlayerFromRoom) s := by
  refine .of ?_
  simp only [RoomCall.refused, RoomManager.deletePlayerFromRoom, wp_bind, wp_get, wp_pure, decide_eq_true_eq]
  split
  · exact fun _ => .refl s
  · rename_i p belong
    simp only [wp_bind, wp_modify]
    exact wp_post (deletePlayer_refused _ (member p belong)) fun ret t success fail => absurd fail success

theorem changing_refused {change : Room → Ret × Room} (same : (change (s.room p)).1 = .fail → (change (s.room p)).2 = s.room p) :
    Refused (Unchanged s) (Room.changing p change) s := by
  refine .of ?_
  simp only [Room.changing, wp_bind, wp_getRoom, wp_modifyRoom, wp_pure, decide_eq_true_eq]
  exact fun fail => ⟨rfl, rfl, rfl, by rw [same fail]; exact Function.update_eq_self _ _, fun _ => rfl⟩

theorem Room.changeTeamId_refused {r : Room} {teamId : Int} (fail : (r.changeTeamId u teamId).1 = .fail) :
    (r.changeTeamId u teamId).2 = r := by
  simp only [changeTeamId] at fail ⊢
  split
  · rfl
  · rename_i pos
    simp [pos] at fail

theorem Room.changeGameOption_refused {r : Room} {gameOption : Int} (fail : (r.changeGameOption u gameOption).1 = .fail) :
    (r.changeGameOption u gameOption).2 = r := by
  simp only [changeGameOption] at fail ⊢
  split
  · rfl
  · split
    · rename_i owner
      simp [owner] at fail
    · rfl

/-- A game that has not begun does not end, but its player has no room any more. -/
theorem gameEndFromRoom_idle (belong : s.belongRoom[u]? = some p) (idle : (s.room p).status ≠ .ingame) :
    ∃ t, RoomCall.refused env u .gameEndFromRoom s = .ok true t ∧ t.belongRoom = s.belongRoom.erase u := by
  have spec : wp (RoomCall.refused env u .gameEndFromRoom)
      (fun refused t => refused = true ∧ t.belongRoom = s.belongRoom.erase u) (fun _ _ => False) s := by
    simp only [RoomCall.refused, RoomManager.gameEndFromRoom, wp_bind, wp_get, belong, wp_modify, Room.gameEnd,
      wp_getRoom, wp_log, if_neg idle, wp_pure]
    exact ⟨rfl, rfl⟩
  unfold wp at spec
  split at spec
  · rename_i refused t run
    exact ⟨t, spec.1 ▸ run, spec.2⟩
  · exact spec.elim

/-- In a game the players end it one by one, and each of them has a slot. -/
theorem gameEndFromRoom_refused
    (member : ∀ p, s.belongRoom[u]? = some p → (s.room p).status = .ingame ∧ (s.room p).getPlayerId u ≠ 0) :
    Refused (Unchanged s) (RoomCall.refused env u .gameEndFromRoom) s := by
  refine .of ?_
  simp only [RoomCall.refused, RoomManager.gameEndFromRoom, wp_bind, wp_get]
  split
  · exact fun _ => .refl s
  · rename_i p belong
    obtain ⟨status, pos⟩ := member p belong
    simp only [wp_bind, wp_modify, Room.gameEnd, wp_getRoom, wp_log, if_pos status, if_pos pos, wp_pure]
    simp

end

/-! ### At every moment of a run -/

section
variable {env : Env} {k : List Frame} {s : Server} {u : Int}

/-- The call that forgets the room of its user before the room refuses it -/
def RoomCall.Forgets (s : Server) (u : Int) (call : RoomCall) : Prop :=
  call = .gameEndFromRoom ∧ ∃ p, s.belongRoom[u]? = some p ∧ (s.room p).status ≠ .ingame

/-- A refused call leaves everything as it was, unless it is `GameEndFromRoom` for a user whose room does not
    play: that one takes the user out of `belong_room_`. -/
theorem refused_unchanged_iff (h : Config env k s) (u : Int) (call : RoomCall) :
    (∀ t, call.refused env u s = .ok true t → Unchanged s t) ↔ ¬call.Forgets s u := by
  have member : ∀ p, s.belongRoom[u]? = some p → (s.room p).getPlayerId u ≠ 0 :=
    fun p belong => Room.getPlayerId_ne_zero.mpr (h.tenancy.1.member belong)
  constructor
  · rintro unchanged ⟨rfl, p, belong, idle⟩
    obtain ⟨t, run, erased⟩ : ∃ t, RoomCall.gameEndFromRoom.refused env u s = .ok true t ∧
        t.belongRoom = s.belongRoom.erase u := gameEndFromRoom_idle belong idle
    have kept := (unchanged t run).belongRoom
    rw [erased] at kept
    have gone : (s.belongRoom.erase u)[u]? = none := by rw [Map.getElem?_erase, if_pos rfl]
    rw [kept, belong] at gone
    cases gone
  · intro keeps
    cases call with
    | createRoom gameMode teamMode => exact createRoom_refused gameMode teamMode
    | joinRoom roomId => exact joinRoom_refused roomId
    | deletePlayerFromRoom => exact deletePlayerFromRoom_refused member
    | gameEndFromRoom =>
      refine gameEndFromRoom_refused fun p belong => ⟨?_, member p belong⟩
      by_contra idle
      exact keeps ⟨rfl, p, belong, idle⟩
    | changeTeamId p teamId => exact changing_refused Room.changeTeamId_refused
    | changeGameOption p gameOption => exact changing_refused Room.changeGameOption_refused

end

/-- A client creates a room. -/
def Script.ownsRoom : Env := oneClient (request 0 ++ request 9)

theorem Script.ownsRoom_reached : ∃ s, Reachable ownsRoom s ∧ s.belongRoom[(1 : Int)]? = some 0 ∧
    (s.room 0).status = .waiting := by
  obtain ⟨s, reachable, test⟩ := exists_of_ends 2
    (fun s => s.belongRoom[(1 : Int)]? == some 0 && decide ((s.room 0).status = .waiting))
    (Script.reachable Script.ownsRoom) (by decide +kernel)
  simp only [Bool.and_eq_true, beq_iff_eq, decide_eq_true_eq] at test
  exact ⟨s, reachable, test⟩

/-- The owner of a waiting room asks to join its own room: nothing changes. -/
theorem refused_unchanged_join : ∃ s, Reachable Script.ownsRoom s ∧
    ∀ t, (RoomCall.joinRoom 1000).refused Script.ownsRoom 1 s = .ok true t → Unchanged s t := by
  obtain ⟨s, reachable, -, -⟩ := Script.ownsRoom_reached
  exact ⟨s, reachable, (refused_unchanged_iff reachable.config 1 (.joinRoom 1000)).mpr (by simp [RoomCall.Forgets])⟩

/-- The owner of a waiting room ends the game: the call fails and the room has lost its owner. -/
theorem refused_game_end_forgets_room : ∃ s t, Reachable Script.ownsRoom s ∧
    RoomCall.gameEndFromRoom.refused Script.ownsRoom 1 s = .ok true t ∧ s.belongRoom[(1 : Int)]? = some 0 ∧
      t.belongRoom[(1 : Int)]? = none ∧ ¬Unchanged s t := by
  obtain ⟨s, reachable, belong, status⟩ := Script.ownsRoom_reached
  obtain ⟨t, run, erased⟩ : ∃ t, RoomCall.gameEndFromRoom.refused Script.ownsRoom 1 s = .ok true t ∧
      t.belongRoom = s.belongRoom.erase 1 := gameEndFromRoom_idle belong (by simp [status])
  have gone : t.belongRoom[(1 : Int)]? = none := by rw [erased, Map.getElem?_erase, if_pos rfl]
  refine ⟨s, t, reachable, run, belong, gone, fun unchanged => ?_⟩
  rw [unchanged.belongRoom, belong] at gone
  cases gone

end IslandSurvival

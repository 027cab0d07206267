import IslandSurvival.Theorems.Scenario

/-! The seats of a game. From the moment a room loads until it is initialised again, its players keep their slots and
    their teams, and nobody comes online. -/

namespace IslandSurvival

open Prog

/-- The seats of `r` are those of `r'`, except that players may have left. -/
structure Room.SameSeats (r r' : Room) : Prop where
  playerCnt : r'.playerCnt = r.playerCnt
  players : r'.players = r.players
  teamId : r'.teamId = r.teamId
  online : ∀ i, r'.isOnline i = true → r.isOnline i = true

/-- A room that does not wait still does not, and its seats are the same. -/
def Room.Plays (r r' : Room) : Prop := r.status ≠ .waiting → r'.status ≠ .waiting ∧ r.SameSeats r'

namespace Room

variable {r r' r'' : Room}

theorem SameSeats.refl (r : Room) : r.SameSeats r := ⟨rfl, rfl, rfl, fun _ => id⟩

theorem SameSeats.trans (h : r.SameSeats r') (h' : r'.SameSeats r'') : r.SameSeats r'' where
  playerCnt := h'.playerCnt.trans h.playerCnt
  players := h'.players.trans h.players
  teamId := h'.teamId.trans h.teamId
  online i online := h.online i (h'.online i online)

theorem SameSeats.setOffline (r : Room) (pos : Nat) : r.SameSeats (r.setOffline pos) where
  playerCnt := rfl
  players := rfl
  teamId := rfl
  online i online := by
    by_cases left : i = pos
    · simp [Room.setOffline, left] at online
    · simpa [Room.setOffline, left] using online

theorem Plays.refl (r : Room) : r.Plays r := fun status => ⟨status, .refl r⟩

theorem Plays.trans (h : r.Plays r') (h' : r'.Plays r'') : r.Plays r'' := by
  intro status
  obtain ⟨status', seats⟩ := h status
  obtain ⟨status'', seats'⟩ := h' status'
  exact ⟨status'', seats.trans seats'⟩

/-- An update of what is not about the seats -/
theorem Plays.congr (playerCnt : r'.playerCnt = r.playerCnt) (players : r'.players = r.players)
    (teamId : r'.teamId = r.teamId) (online : r'.isOnline = r.isOnline)
    (status : r.status ≠ .waiting → r'.status ≠ .waiting) : r.Plays r' :=
  fun plays => ⟨status plays, playerCnt, players, teamId, fun _ => by rw [online]; exact id⟩

theorem Plays.vacate (r : Room) (pos : Nat) : r.Plays (r.vacate pos) := by
  intro status
  rw [Room.vacate, if_neg status]
  exact ⟨status, .setOffline r pos⟩

theorem Plays.of_waiting (status : r.status = .waiting) : r.Plays r' := fun plays => absurd status plays

end Room

/-- The moves that lead from one configuration to another -/
inductive Moves (env : Env) (k : List Frame) (s : Server) : List Frame → Server → Prop
  | refl : Moves env k s k s
  | tail {l l' : List Frame} {t t' : Server} (run : Moves env k s l t) (move : Step env l t l' t') : Moves env k s l' t'

section
variable {env : Env} {k l : List Frame} {s t : Server} {p q : RoomPtr}

theorem Server.setRoom_plays {r : Room} (h : (s.room q).Plays r) : (s.room p).Plays ((s.setRoom q r).room p) := by
  by_cases here : p = q
  · subst here
    rw [Server.setRoom_room_self]
    exact h
  · rw [Server.setRoom_room_ne here]
    exact .refl _

theorem plays_step (move : Step env k s l t) (same : t.trace.count (.roomInit p) = s.trace.count (.roomInit p)) :
    (s.room p).Plays (t.room p) := by
  cases move with
  | drop _ _ =>
    obtain ⟨_, _, _, _, _, hs⟩ := dropConnection_eq _ _ s
    rw [hs]
    exact .refl _
  | leave _ _ _ _ => exact Server.setRoom_plays (.vacate _ _)
  | exitRoom _ _ _ => exact Server.setRoom_plays (.vacate _ _)
  | left =>
    rw [PersonManager.changePersonStatus_eq]
    exact .refl _
  | enter _ _ _ person =>
    obtain ⟨_, _, _, _, hs⟩ := entered person
    rw [hs]
    exact .refl _
  | heartbeat _ old =>
    obtain ⟨_, _, rfl⟩ := Heartbeat.erased old
    exact .refl _
  | create _ _ _ _ _ =>
    obtain ⟨q, _, _, _, _, _, _, hs⟩ := RoomManager.created_eq _ _ _ s
    rw [hs] at same ⊢
    have other : p ≠ q := by
      rintro rfl
      simp at same
    simp only [Function.update_of_ne other]
    exact .refl _
  | join _ _ _ _ status _ =>
    rw [RoomManager.joined_eq]
    exact Server.setRoom_plays (.of_waiting status)
  | change _ _ _ status => exact Server.setRoom_plays (.of_waiting status)
  | gameEnd _ _ _ =>
    rw [PersonManager.changePersonStatus_eq]
    exact Server.setRoom_plays fun status => ⟨status, .setOffline _ _⟩
  | load _ => exact Server.setRoom_plays (.congr rfl rfl rfl rfl fun _ => by simp [Room.startLoading])
  | start _ _ => exact Server.setRoom_plays (.congr rfl rfl rfl rfl fun _ => by simp [Room.startGame])
  | acceptFail sock acc _ =>
    obtain ⟨_, _, _, _, _, rfl⟩ := acceptSocket_eq sock acc
    exact .refl _
  | acceptLost sock acc _ =>
    obtain ⟨_, _, _, _, _, rfl⟩ := acceptSocket_eq sock acc
    exact .refl _
  | accept _ sock acc _ =>
    obtain ⟨_, _, _, hs⟩ := accepted_eq _ _ _
    rw [hs]
    obtain ⟨_, _, _, _, _, rfl⟩ := acceptSocket_eq sock acc
    exact .refl _
  | _ =>
    first
    | exact .refl _
    | exact Server.setRoom_plays (.congr rfl rfl rfl rfl id)

theorem Moves.trace (run : Moves env k s l t) : s.trace <:+ t.trace := by
  induction run with
  | refl => exact List.suffix_rfl
  | tail _ move ih => exact ih.trans (trace_step move)

/-- Until room `p` is initialised, its seats stay. -/
theorem Moves.plays (run : Moves env k s l t) (same : t.trace.count (.roomInit p) = s.trace.count (.roomInit p)) :
    (s.room p).Plays (t.room p) := by
  induction run with
  | refl => exact .refl _
  | tail run move ih =>
    have before := run.trace.sublist.count_le (.roomInit p)
    have after := (trace_step move).sublist.count_le (.roomInit p)
    exact .trans (ih (by omega)) (plays_step move (by omega))

theorem stable_moves (env : Env) (s : Server) : Stable env [] (Moves env [] s) := .of fun move run => run.tail move

/-- What the main loop does consists of moves. In every sequence of moves, a room that loads or plays keeps its
    players, their slots and their teams until it is initialised, and nobody comes online. -/
theorem seats_kept (env : Env) :
    (∀ s, wp (runOnTick env) (fun _ t => Moves env [] s [] t) (fun _ t => ∃ l, Moves env [] s l t) s) ∧
    (∀ s, wp (receiveMessage env) (fun _ t => Moves env [] s [] t) (fun _ t => ∃ l, Moves env [] s l t) s) ∧
    ∀ (k l : List Frame) (s t : Server) (p : RoomPtr), Moves env k s l t → (s.room p).status ≠ .waiting →
      t.trace.count (.roomInit p) = s.trace.count (.roomInit p) →
        (t.room p).status ≠ .waiting ∧ (s.room p).SameSeats (t.room p) := by
  refine ⟨fun s => ?_, fun s => ?_, fun k l s t p run status same => run.plays same status⟩
  · exact runOnTick_spec (stable_moves env s) s .refl
  · exact receiveMessage_spec (stable_moves env s) s .refl

end

/-- A client creates a room and starts its game. -/
def Script.loads : Env := oneClient (request 0 ++ request 9 ++ request 0x10)

/-- A tick leaves the only player of a loading room in its seat. -/
theorem seats_kept_loading : ∃ s t, Reachable Script.loads s ∧ runOnTick Script.loads s = .ok () t ∧
    (s.room 0).status = .loading ∧ (s.room 0).SameSeats (t.room 0) := by
  obtain ⟨s, reachable, test⟩ := exists_of_ends 2
    (fun s => decide ((s.room 0).status = .loading) && Returns (runOnTick Script.loads s) fun t =>
      t.trace.count (.roomInit 0) == s.trace.count (.roomInit 0))
    (Script.reachable Script.loads) (by decide +kernel)
  simp only [Bool.and_eq_true, decide_eq_true_eq] at test
  obtain ⟨status, returns⟩ := test
  obtain ⟨⟨⟩, t, run, same⟩ := exists_of_returns returns
  obtain ⟨tick, -, kept⟩ := seats_kept Script.loads
  have moves := wp_ok (tick s) run
  have seats := kept [] [] s t 0 moves (by simp [status]) (beq_iff_eq.mp same)
  exact ⟨s, t, reachable, run, status, seats.2⟩

end IslandSurvival

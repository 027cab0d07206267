import IslandSurvival.Theorems.Counters
import IslandSurvival.Theorems.Departures

/-! A room that waits is an ordered list of its players. The arrays of the room are shifted by hand; read from slot 1
    on, they are the players in the order in which they joined, whoever left in between. -/

namespace IslandSurvival

open Prog

/-! ### The list -/

/-- A player that waits: the user, the team that was last assigned to it, and when it joined -/
structure Seat where
  userId : Int
  teamId : Int
  joined : Nat
deriving DecidableEq, Repr

namespace Lobby

/-- The index of the first seat of a user -/
def seatOf (userId : Int) (l : List Seat) : Nat := l.findIdx fun seat => seat.userId == userId

/-- There are `max_player_cnt` seats. In team mode 1 everybody is a team. -/
def join (teamMode userId : Int) (now : Nat) (l : List Seat) : List Seat :=
  if l.length < maxPlayerCnt then
    l ++ [{ userId, teamId := if teamMode = 1 then l.length + 1 else 1, joined := now }]
  else
    l

def leave (userId : Int) (l : List Seat) : List Seat := l.eraseIdx (seatOf userId l)

def assign (userId teamId : Int) (l : List Seat) : List Seat := l.modify (seatOf userId l) fun seat => { seat with teamId }

/-- Players leave one after the other; the slots that they leave are listed the last one first. -/
inductive Departs (l : List Seat) : List Nat → List Seat → Prop
  | nil : Departs l [] l
  | cons {slots l'} (userId : Int) (h : Departs l slots l') (mem : ∃ seat ∈ l', seat.userId = userId) :
      Departs l ((seatOf userId l' + 1) :: slots) (leave userId l')

end Lobby

/-- A call on a room that waits. For `DeletePlayer`, with the slots that are left in it, the last one first: after that
    of the user itself, those of the players who are deleted while it is active. -/
inductive LobbyCall
  | addPlayer (userId : Int)
  | deletePlayer (userId : Int) (left : List Nat)
  | changeTeamId (userId teamId : Int)

/-- What the calls do to the list; the last call comes first. -/
inductive Lobby.Run (teamMode : Int) : List LobbyCall → List Seat → Prop
  | init : Run teamMode [] []
  | addPlayer {calls l} (u : Int) (run : Run teamMode calls l) :
      Run teamMode (.addPlayer u :: calls) (join teamMode u calls.length l)
  | deletePlayer {calls l nested l'} (u : Int) (run : Run teamMode calls l) (mem : ∃ seat ∈ l, seat.userId = u)
      (departs : Departs (leave u l) nested l') :
      Run teamMode (.deletePlayer u (nested ++ [seatOf u l + 1]) :: calls) l'
  | deleteNobody {calls l u} (run : Run teamMode calls l) (absent : ¬∃ seat ∈ l, seat.userId = u) :
      Run teamMode (.deletePlayer u [] :: calls) l
  | changeTeamId {calls l} (u teamId : Int) (run : Run teamMode calls l) :
      Run teamMode (.changeTeamId u teamId :: calls) (assign u teamId l)

namespace Lobby

variable {l l' : List Seat} {slots : List Nat} {teamMode : Int} {calls : List LobbyCall}

theorem Departs.sublist (h : Departs l slots l') : l'.Sublist l := by
  induction h with
  | nil => exact List.Sublist.refl _
  | cons _ _ _ ih => exact (List.eraseIdx_sublist _ _).trans ih

/-- The list is in the order of the joins. -/
theorem Run.ordered (run : Run teamMode calls l) :
    (l.map Seat.joined).Pairwise (· < ·) ∧ ∀ seat ∈ l, seat.joined < calls.length := by
  induction run with
  | init => exact ⟨List.Pairwise.nil, List.forall_mem_nil _⟩
  | @addPlayer calls l u _ ih =>
    unfold join
    split
    · refine ⟨?_, fun seat mem => ?_⟩
      · rw [List.map_append, List.pairwise_append]
        refine ⟨ih.1, List.pairwise_singleton _ _, fun n mem m mem' => ?_⟩
        obtain ⟨seat, here, rfl⟩ := List.mem_map.mp mem
        obtain rfl := List.mem_singleton.mp mem'
        exact ih.2 seat here
      · rcases List.mem_append.mp mem with mem | mem
        · exact Nat.lt_succ_of_lt (ih.2 seat mem)
        · obtain rfl := List.mem_singleton.mp mem
          exact Nat.lt_succ_self _
    · exact ⟨ih.1, fun seat mem => Nat.lt_succ_of_lt (ih.2 seat mem)⟩
  | deletePlayer u _ _ departs ih =>
    have sub := departs.sublist.trans (List.eraseIdx_sublist _ _)
    exact ⟨ih.1.sublist (sub.map _), fun seat mem => Nat.lt_succ_of_lt (ih.2 seat (sub.subset mem))⟩
  | deleteNobody _ _ ih => exact ⟨ih.1, fun seat mem => Nat.lt_succ_of_lt (ih.2 seat mem)⟩
  | @changeTeamId calls l u teamId _ ih =>
    have same : (assign u teamId l).map Seat.joined = l.map Seat.joined := by
      refine List.ext_getElem? fun i => ?_
      rw [List.getElem?_map, List.getElem?_map, assign, List.getElem?_modify]
      cases l[i]? with
      | none => rfl
      | some seat =>
        simp only [Option.map_eq_map, Option.map_some]
        split <;> rfl
    refine ⟨same ▸ ih.1, fun seat mem => ?_⟩
    have mem : seat.joined ∈ l.map Seat.joined := same ▸ List.mem_map_of_mem mem
    obtain ⟨seat', here, joined⟩ := List.mem_map.mp mem
    exact joined ▸ Nat.lt_succ_of_lt (ih.2 seat' here)

/-- The first one joined first. -/
theorem Run.first (run : Run teamMode calls l) {owner seat : Seat} (first : l[0]? = some owner) (mem : seat ∈ l) :
    owner.joined ≤ seat.joined := by
  obtain ⟨rest, rfl⟩ : ∃ rest, l = owner :: rest := by
    cases l with
    | nil => cases first
    | cons seat rest => exact ⟨rest, by rw [Option.some.inj first]⟩
  have ordered := run.ordered.1
  rw [List.map_cons, List.pairwise_cons] at ordered
  rcases List.mem_cons.mp mem with rfl | mem
  · exact Nat.le_refl _
  · exact Nat.le_of_lt (ordered.1 _ (List.mem_map_of_mem mem))

end Lobby

/-! ### The arrays -/

/-- The arrays of a waiting room show the list, from slot 1 on; the team ids do where they move with the players. -/
structure Room.Seats (r : Room) (l : List Seat) : Prop where
  status : r.status = .waiting
  playerCnt : r.playerCnt = l.length
  onlinePlayerCnt : r.onlinePlayerCnt = l.length
  room : l.length ≤ maxPlayerCnt
  online : ∀ i, 1 ≤ i → (r.isOnline i = true ↔ i ≤ l.length)
  player : ∀ {i : Nat} {seat : Seat}, l[i]? = some seat → r.players (i + 1) = seat.userId
  team : r.teamMode = 2 → ∀ {i : Nat} {seat : Seat}, l[i]? = some seat → r.teamId (i + 1) = seat.teamId

namespace Room.Seats

variable {r : Room} {l : List Seat} {u : Int}

theorem init (gameMode teamMode roomId : Int) (garbage : Room) : (Room.init gameMode teamMode roomId garbage).Seats [] where
  status := rfl
  playerCnt := rfl
  onlinePlayerCnt := rfl
  room := Nat.zero_le _
  online i pos := by simp [Room.init]; omega
  player found := by simp at found
  team _ _ _ found := by simp at found

/-- A slot holds the user of its seat. -/
theorem holds (h : r.Seats l) {i : Nat} (lt : i < l.length) :
    (r.isOnline (i + 1) && r.players (i + 1) == u) = (l[i].userId == u) := by
  rw [(h.online (i + 1) (Nat.succ_pos i)).mpr lt, Bool.true_and, h.player (List.getElem?_eq_getElem lt)]

/-- The slot number of a user is that of its first seat. -/
theorem getPlayerId (h : r.Seats l) (mem : ∃ seat ∈ l, seat.userId = u) : r.getPlayerId u = Lobby.seatOf u l + 1 := by
  have lt : Lobby.seatOf u l < l.length := by
    obtain ⟨seat, mem, user⟩ := mem
    exact List.findIdx_lt_length.mpr ⟨seat, mem, by simp [user]⟩
  have first : r.slots.find? (fun i => r.isOnline i && r.players i == u) = some (Lobby.seatOf u l + 1) := by
    refine List.find?_range'_eq_some.mpr ⟨?_, ?_, fun j pos before => ?_⟩
    · rw [h.holds lt]
      exact @List.findIdx_getElem _ (fun seat : Seat => seat.userId == u) l lt
    · rw [List.mem_range'_1, h.playerCnt]
      omega
    · obtain ⟨i, rfl⟩ : ∃ i, j = i + 1 := ⟨j - 1, by omega⟩
      have earlier : i < Lobby.seatOf u l := Nat.lt_of_succ_lt_succ before
      rw [h.holds (Nat.lt_trans earlier lt), List.not_of_lt_findIdx earlier]
      rfl
  rw [Room.getPlayerId, first, Option.getD_some]

theorem getPlayerId_absent (h : r.Seats l) (absent : ¬∃ seat ∈ l, seat.userId = u) : r.getPlayerId u = 0 := by
  have none : r.slots.find? (fun i => r.isOnline i && r.players i == u) = none := by
    refine List.find?_eq_none.mpr fun j mem => ?_
    obtain ⟨pos, le⟩ := mem_slots.mp mem
    obtain ⟨i, rfl⟩ : ∃ i, j = i + 1 := ⟨j - 1, by omega⟩
    have lt : i < l.length := h.playerCnt ▸ le
    rw [h.holds lt, beq_iff_eq]
    exact fun user => absent ⟨_, List.getElem_mem lt, user⟩
  rw [Room.getPlayerId, none, Option.getD_none]

theorem mem_of_getPlayerId (h : r.Seats l) (pos : r.getPlayerId u ≠ 0) : ∃ seat ∈ l, seat.userId = u := by
  by_contra absent
  exact pos (h.getPlayerId_absent absent)

theorem addSlot (h : r.Seats l) (cnt : r.playerCnt < maxPlayerCnt) (now : Nat) :
    (r.addSlot u).Seats (Lobby.join r.teamMode u now l) := by
  have room : l.length < maxPlayerCnt := h.playerCnt ▸ cnt
  have found : ∀ {i : Nat} {seat : Seat}, (Lobby.join r.teamMode u now l)[i]? = some seat →
      (l[i]? = some seat ∧ i ≠ l.length) ∨
      (i = l.length ∧ seat = { userId := u, teamId := if r.teamMode = 1 then l.length + 1 else 1, joined := now }) := by
    intro i seat found
    rw [Lobby.join, if_pos room, List.getElem?_append] at found
    split at found
    · rename_i lt
      exact .inl ⟨found, Nat.ne_of_lt lt⟩
    · rename_i ge
      obtain ⟨lt, here⟩ := List.getElem?_eq_some_iff.mp found
      rw [List.length_singleton] at lt
      obtain rfl : i = l.length := by omega
      exact .inr ⟨rfl, by simpa using here.symm⟩
  refine ⟨h.status, ?_, ?_, ?_, fun i pos => ?_, fun {i seat} mem => ?_, fun mode {i seat} mem => ?_⟩
  · simp [Room.addSlot, Lobby.join, room, h.playerCnt]
  · simp [Room.addSlot, Lobby.join, room, h.onlinePlayerCnt]
  · simp only [Lobby.join, if_pos room, List.length_append, List.length_singleton]
    exact room
  · simp only [Room.addSlot, Lobby.join, if_pos room, List.length_append, List.length_singleton, h.playerCnt]
    by_cases new : i = l.length + 1
    · rw [new, Function.update_self]
      exact iff_of_true rfl (Nat.le_refl _)
    · rw [Function.update_of_ne new, h.online i pos]
      omega
  · simp only [Room.addSlot, h.playerCnt]
    rcases found mem with ⟨mem, old⟩ | ⟨rfl, rfl⟩
    · rw [Function.update_of_ne (by omega), h.player mem]
    · rw [Function.update_self]
  · simp only [Room.addSlot, h.playerCnt]
    rcases found mem with ⟨mem, old⟩ | ⟨rfl, rfl⟩
    · rw [Function.update_of_ne (by omega), h.team mode mem]
    · rw [Function.update_self]
      push_cast
      rfl

theorem removeSlot (h : r.Seats l) (mem : ∃ seat ∈ l, seat.userId = u) :
    (r.removeSlot (r.getPlayerId u)).Seats (Lobby.leave u l) := by
  rw [h.getPlayerId mem]
  have lt : Lobby.seatOf u l < l.length := by
    obtain ⟨seat, mem, user⟩ := mem
    exact List.findIdx_lt_length.mpr ⟨seat, mem, by simp [user]⟩
  have length : (Lobby.leave u l).length + 1 = l.length := by
    rw [Lobby.leave, List.length_eraseIdx_of_lt lt]
    omega
  have shifted : ∀ {α : Type} {a : Nat → α} {f : Seat → α},
      (∀ {i : Nat} {seat : Seat}, l[i]? = some seat → a (i + 1) = f seat) →
        ∀ {i : Nat} {seat : Seat}, (Lobby.leave u l)[i]? = some seat →
          shift a (Lobby.seatOf u l + 1) l.length (i + 1) = f seat := by
    intro α a f at_ i seat found
    rw [Lobby.leave, List.getElem?_eraseIdx] at found
    split at found
    · rw [shift, if_neg (by omega), at_ found]
    · have bound := (List.getElem?_eq_some_iff.mp found).1
      rw [shift, if_pos (by omega), at_ found]
  refine ⟨h.status, ?_, ?_, ?_, fun i pos => ?_, fun {i seat} mem => ?_, fun mode {i seat} mem => ?_⟩
  · simp only [Room.removeSlot, h.playerCnt]
    omega
  · simp only [Room.removeSlot, h.onlinePlayerCnt]
    omega
  · have := h.room
    omega
  · simp only [Room.removeSlot, h.playerCnt]
    by_cases last : i = l.length
    · rw [last, Function.update_self]
      simp
      omega
    · rw [Function.update_of_ne last, h.online i pos]
      omega
  · simp only [Room.removeSlot, h.playerCnt]
    exact shifted h.player mem
  · have mode : r.teamMode = 2 := mode
    simp only [Room.removeSlot, h.playerCnt, if_pos mode]
    exact shifted (h.team mode) mem

theorem changeTeamId (h : r.Seats l) (teamId : Int) : (r.changeTeamId u teamId).2.Seats (Lobby.assign u teamId l) := by
  by_cases mem : ∃ seat ∈ l, seat.userId = u
  · have pos := h.getPlayerId mem
    have found : ∀ {i : Nat} {seat : Seat}, (Lobby.assign u teamId l)[i]? = some seat →
        ∃ seat', l[i]? = some seat' ∧ seat = if Lobby.seatOf u l = i then { seat' with teamId } else seat' := by
      intro i seat found
      rw [Lobby.assign, List.getElem?_modify, Option.map_eq_map, Option.map_eq_some_iff] at found
      obtain ⟨seat', here, rfl⟩ := found
      exact ⟨seat', here, rfl⟩
    have length : (Lobby.assign u teamId l).length = l.length := List.length_modify _ _ _
    simp only [Room.changeTeamId, pos, Nat.succ_ne_zero, if_false]
    refine ⟨h.status, length ▸ h.playerCnt, length ▸ h.onlinePlayerCnt, length ▸ h.room, length ▸ h.online,
      fun {i seat} mem => ?_, fun mode {i seat} mem => ?_⟩
    · obtain ⟨seat', here, rfl⟩ := found mem
      rw [h.player here]
      split <;> rfl
    · obtain ⟨seat', here, rfl⟩ := found mem
      by_cases same : Lobby.seatOf u l = i
      · simp [same]
      · simp only [if_neg same]
        rw [Function.update_of_ne (by omega)]
        exact h.team mode here
  · have none : Lobby.seatOf u l = l.length := by
      refine List.findIdx_eq_length.mpr fun seat here => ?_
      rw [beq_eq_false_iff_ne]
      exact fun user => mem ⟨seat, here, user⟩
    simp only [Room.changeTeamId, h.getPlayerId_absent mem, if_true]
    rw [Lobby.assign, List.modify_eq_self (Nat.le_of_eq none.symm)]
    exact h

/-- Players leave the list as they leave the arrays. -/
theorem fades {r' : Room} {slots : List Nat} (h : r.Seats l) (fades : r.Fades slots r') :
    ∃ l', Lobby.Departs l slots l' ∧ r'.Seats l' ∧ r'.teamMode = r.teamMode := by
  induction fades with
  | refl => exact ⟨l, .nil, h, rfl⟩
  | @leave slots r' u fades pos ih =>
    obtain ⟨l', departs, seats, mode⟩ := ih
    have mem := seats.mem_of_getPlayerId pos
    refine ⟨Lobby.leave u l', ?_, ?_, ?_⟩
    · rw [seats.getPlayerId mem]
      exact .cons u departs mem
    · rw [vacate, if_pos seats.status]
      exact seats.removeSlot mem
    · rw [vacate, if_pos seats.status]
      exact mode
  | unload fades status _ _ => exact absurd (fades.waiting.mpr h.status) status
  | start fades status _ _ _ => exact absurd (fades.waiting.mpr h.status) status
  | syn fades status _ _ =>
    have waits := fades.waiting.mpr h.status
    rw [status] at waits
    cases waits

end Room.Seats

/-! ### Runs -/

/-- Calls on room `p` from its `Init` on, the last one first. Between them the server may do anything that leaves the
    room alone, and the game option may change. -/
inductive LobbyRun (env : Env) (p : RoomPtr) (teamMode : Int) : List LobbyCall → Server → Prop
  | init {s garbage} (gameMode roomId : Int) (room : s.room p = Room.init gameMode teamMode roomId garbage) :
      LobbyRun env p teamMode [] s
  | elsewhere {calls s t gameOption} (run : LobbyRun env p teamMode calls s)
      (room : t.room p = { s.room p with gameOption }) : LobbyRun env p teamMode calls t
  | addPlayer {calls s u ret t} (run : LobbyRun env p teamMode calls s) (call : Room.addPlayer p u s = .ok ret t) :
      LobbyRun env p teamMode (.addPlayer u :: calls) t
  | deletePlayer {calls s u ret t events} (run : LobbyRun env p teamMode calls s)
      (call : Room.deletePlayer env (deleteClientByFd env) p u s = .ok ret t) (trace : t.trace = events ++ s.trace) :
      LobbyRun env p teamMode (.deletePlayer u (leaves p events) :: calls) t
  | changeTeamId {calls s} (u teamId : Int) (run : LobbyRun env p teamMode calls s) :
      LobbyRun env p teamMode (.changeTeamId u teamId :: calls) (s.setRoom p ((s.room p).changeTeamId u teamId).2)

section
variable {env : Env} {p : RoomPtr} {teamMode : Int} {calls : List LobbyCall} {s t : Server} {l : List Seat} {u : Int}

/-- A call of `DeletePlayer` takes the first seat of its user, and then those of the players that leave meanwhile. -/
theorem Room.Seats.deletePlayer (h : (s.room p).Seats l) :
    wp (Room.deletePlayer env (deleteClientByFd env) p u) (fun _ t => ∃ events l', t.trace = events ++ s.trace ∧
      (t.room p).Seats l' ∧ (t.room p).teamMode = (s.room p).teamMode ∧
      if ∃ seat ∈ l, seat.userId = u then
        ∃ nested, leaves p events = nested ++ [Lobby.seatOf u l + 1] ∧ Lobby.Departs (Lobby.leave u l) nested l'
      else
        t = s ∧ l' = l) (fun _ _ => True) s := by
  by_cases mem : ∃ seat ∈ l, seat.userId = u
  · have pos : (s.room p).getPlayerId u ≠ 0 := by simp [h.getPlayerId mem]
    refine wp_mono (deletePlayer_waiting deleteClientByFd_fading h.status pos) ?_ fun _ _ _ => trivial
    rintro - t ⟨-, events, trace, fades⟩
    obtain ⟨l', departs, seats, mode⟩ := (h.removeSlot mem).fades fades
    refine ⟨events ++ [.leave p ((s.room p).getPlayerId u) .waiting], l', by simp [trace], seats, mode, ?_⟩
    rw [if_pos mem, leaves_append, h.getPlayerId mem]
    exact ⟨leaves p events, by simp [leaves], departs⟩
  · simp only [Room.deletePlayer, wp_bind, wp_getRoom, h.getPlayerId_absent mem, if_true, wp_pure]
    exact ⟨[], l, rfl, h, by simp [mem]⟩

/-- Whatever calls are made, the arrays of a room that waits show the list of its players: `AddPlayer` appends the user
    or, where there are `max_player_cnt` players, changes nothing, `DeletePlayer` takes out the seat of its user and of
    those that are deleted with it, and slot 1 is that of the player who joined first. -/
theorem lobby_ordered (run : LobbyRun env p teamMode calls s) :
    ∃ l, Lobby.Run teamMode calls l ∧ (s.room p).Seats l ∧ (s.room p).teamMode = teamMode ∧
      (maxPlayerCnt ≤ l.length → ∀ u, Room.addPlayer p u s = .ok .addPlayerFull s) ∧
      ∀ owner, l[0]? = some owner → (s.room p).players 1 = owner.userId ∧
        (s.room p).getPlayerId owner.userId = 1 ∧ ∀ seat ∈ l, owner.joined ≤ seat.joined := by
  obtain ⟨l, abstract, seats, mode⟩ : ∃ l, Lobby.Run teamMode calls l ∧ (s.room p).Seats l ∧
      (s.room p).teamMode = teamMode := by
    induction run with
    | init gameMode roomId room =>
      rw [room]
      exact ⟨[], .init, .init _ _ _ _, rfl⟩
    | elsewhere _ room ih =>
      obtain ⟨l, abstract, seats, mode⟩ := ih
      rw [room]
      exact ⟨l, abstract, ⟨seats.status, seats.playerCnt, seats.onlinePlayerCnt, seats.room, seats.online,
        seats.player, seats.team⟩, mode⟩
    | @addPlayer calls s u ret t _ call ih =>
      obtain ⟨l, abstract, seats, mode⟩ := ih
      refine ⟨_, abstract.addPlayer u, ?_⟩
      by_cases full : maxPlayerCnt ≤ l.length
      · rw [Room.addPlayer_full seats.status (seats.playerCnt ▸ full)] at call
        obtain ⟨-, rfl⟩ : _ ∧ s = t := EStateM.Result.ok.inj call
        rw [Lobby.join, if_neg (Nat.not_lt.mpr full)]
        exact ⟨seats, mode⟩
      · have cnt : (s.room p).playerCnt < maxPlayerCnt := seats.playerCnt ▸ Nat.lt_of_not_le full
        rw [Room.addPlayer_succeed seats.status cnt, Room.added, PersonManager.changePersonStatus_eq] at call
        obtain ⟨-, rfl⟩ := EStateM.Result.ok.inj call
        rw [Server.log, Server.setRoom_room_self, ← mode]
        exact ⟨seats.addSlot cnt _, rfl⟩
    | @deletePlayer calls s u ret t events _ call trace ih =>
      obtain ⟨l, abstract, seats, mode⟩ := ih
      have spec : wp (Room.deletePlayer env (deleteClientByFd env) p u) _ _ s := seats.deletePlayer
      obtain ⟨events', l', trace', seats', mode', deleted⟩ := wp_ok spec call
      obtain rfl : events = events' := List.append_cancel_right (trace.symm.trans trace')
      refine ⟨l', ?_, seats', mode'.trans mode⟩
      split at deleted
      · rename_i mem
        obtain ⟨nested, left, departs⟩ := deleted
        rw [left]
        exact abstract.deletePlayer u mem departs
      · rename_i absent
        obtain ⟨rfl, rfl⟩ := deleted
        obtain rfl : events = [] := List.append_left_eq_self.mp trace.symm
        exact abstract.deleteNobody absent
    | changeTeamId u teamId _ ih =>
      obtain ⟨l, abstract, seats, mode⟩ := ih
      rw [Server.setRoom_room_self]
      refine ⟨_, abstract.changeTeamId u teamId, seats.changeTeamId teamId, ?_⟩
      rw [← mode, Room.changeTeamId]
      split <;> rfl
  refine ⟨l, abstract, seats, mode, fun full u => ?_, fun owner first => ?_⟩
  · exact Room.addPlayer_full seats.status (seats.playerCnt ▸ full)
  · refine ⟨seats.player first, ?_, fun seat mem => abstract.first first mem⟩
    rw [seats.getPlayerId ⟨owner, List.mem_of_getElem? first, rfl⟩]
    cases l with
    | nil => cases first
    | cons seat rest =>
      obtain rfl := Option.some.inj first
      simp [Lobby.seatOf, List.findIdx_cons]

end

/-- Two users join, the second one changes its team, and the first one leaves. -/
theorem lobby_ordered_exit : ∃ left s l, LobbyRun Script.quiet 0 2
      [.deletePlayer 1 left, .changeTeamId 2 5, .addPlayer 2, .addPlayer 1] s ∧ (s.room 0).Seats l ∧
      ∀ owner, l[0]? = some owner → (s.room 0).players 1 = owner.userId := by
  have init : LobbyRun Script.quiet 0 2 [] (Script.server.setRoom 0 (Room.init 1 2 1000 Script.room)) :=
    .init 1 1000 (Server.setRoom_room_self _ _ _)
  have first := init.addPlayer (Room.addPlayer_succeed (u := 1) rfl (by decide))
  have second := first.addPlayer (Room.addPlayer_succeed (u := 2) rfl (by decide))
  obtain ⟨s, changed, returns⟩ : ∃ s,
      LobbyRun Script.quiet 0 2 [.changeTeamId 2 5, .addPlayer 2, .addPlayer 1] s ∧
      Returns (Room.deletePlayer Script.quiet (deleteClientByFd Script.quiet) 0 1 s) (fun _ => true) = true :=
    ⟨_, second.changeTeamId 2 5, by decide +kernel⟩
  obtain ⟨ret, t, call, -⟩ := exists_of_returns returns
  have fading : Along (Fading 0) (Room.deletePlayer Script.quiet (deleteClientByFd Script.quiet) 0 1) :=
    deletePlayer_fading deleteClientByFd_fading 0 1
  obtain ⟨events, trace, -⟩ := wp_ok (fading s) call
  obtain ⟨l, -, seats, -, -, owner⟩ := lobby_ordered (changed.deletePlayer call trace)
  exact ⟨_, t, l, changed.deletePlayer call trace, seats, fun o first => (owner o first).1⟩

end IslandSurvival

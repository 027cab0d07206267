import IslandSurvival.Theorems.Step

/-! What the composite updates of the moves change, field by field. -/

namespace IslandSurvival

/-! ### Maps -/

namespace Map
variable {α : Type} {m : Map α} {k a : Int} {v : α}

theorem getElem?_insert : (m.insert k v)[a]? = if k = a then some v else m[a]? := by
  simp [Std.ExtTreeMap.getElem?_insert]

theorem getElem?_erase : (m.erase k)[a]? = if k = a then none else m[a]? := by
  simp [Std.ExtTreeMap.getElem?_erase]

theorem mem_iff : a ∈ m ↔ ∃ v, m[a]? = some v := by
  rw [← Std.ExtTreeMap.isSome_getElem?_iff_mem, Option.isSome_iff_exists]

theorem mem_insert : a ∈ m.insert k v ↔ k = a ∨ a ∈ m := by
  simp [Std.ExtTreeMap.mem_insert]

theorem mem_erase : a ∈ m.erase k ↔ k ≠ a ∧ a ∈ m := by
  simp [Std.ExtTreeMap.mem_erase]

theorem mem_of_getElem? (h : m[a]? = some v) : a ∈ m := mem_iff.mpr ⟨v, h⟩

theorem notMem_of_getElem? (h : m[a]? = none) : a ∉ m := by
  rw [mem_iff, h]
  simp

end Map

section
variable {s t : Server} {fd u : Int} {p q : RoomPtr}

/-! ### Rooms -/

@[simp] theorem Server.setRoom_room_self (s : Server) (p : RoomPtr) (r : Room) : (s.setRoom p r).room p = r := by
  simp [Server.setRoom]

theorem Server.setRoom_room_ne {r : Room} (h : q ≠ p) : (s.setRoom p r).room q = s.room q := by
  simp [Server.setRoom, h]

/-- An update of a room leaves what it does not touch in every room. -/
theorem Server.setRoom_congr {α : Type} {f : Room → α} {r : Room} (h : f r = f (s.room p)) (q : RoomPtr) :
    f ((s.setRoom p r).room q) = f (s.room q) := by
  by_cases hq : q = p
  · subst hq
    rw [Server.setRoom_room_self, h]
  · rw [Server.setRoom_room_ne hq]

/-! ### Persons -/

/-- The persons after `ChangePersonStatus`. -/
def PersonManager.changed (u : Int) (status : PersonStatus) (persons : Map Person) : Map Person :=
  match persons[u]? with
  | none => persons
  | some person => if status = person.status then persons else persons.insert u { person with status }

theorem PersonManager.changePersonStatus_eq (u : Int) (status : PersonStatus) (s : Server) :
    (changePersonStatus u status s).2 = { s with persons := changed u status s.persons } := by
  unfold changePersonStatus changed
  cases s.persons[u]? with
  | none => rfl
  | some person =>
    simp only
    split <;> rfl

theorem PersonManager.changed_self (u : Int) (status : PersonStatus) (persons : Map Person) :
    (changed u status persons)[u]? = persons[u]?.map fun person => { person with status } := by
  unfold changed
  cases h : persons[u]? with
  | none => exact h
  | some person =>
    simp only [Option.map_some]
    split
    · rename_i same
      rw [h, same]
    · simp

theorem PersonManager.changed_ne {u v : Int} (h : v ≠ u) (status : PersonStatus) (persons : Map Person) :
    (changed u status persons)[v]? = persons[v]? := by
  unfold changed
  cases persons[u]? with
  | none => rfl
  | some person =>
    simp only
    split
    · rfl
    · simp [Std.ExtTreeMap.getElem?_insert, h.symm]

theorem PersonManager.mem_changed (u v : Int) (status : PersonStatus) (persons : Map Person) :
    v ∈ changed u status persons ↔ v ∈ persons := by
  by_cases h : v = u
  · subst h
    rw [← Std.ExtTreeMap.isSome_getElem?_iff_mem, changed_self, Option.isSome_map, Std.ExtTreeMap.isSome_getElem?_iff_mem]
  · rw [← Std.ExtTreeMap.isSome_getElem?_iff_mem, changed_ne h, Std.ExtTreeMap.isSome_getElem?_iff_mem]

theorem PersonManager.personLogin_eq {name : Bytes} (h : personLogin u name s = (.success, t)) :
    s.persons[u]? = none ∧ t = { s with persons := s.persons.insert u { name, status := .inHall, userId := u } } := by
  unfold personLogin at h
  cases hp : s.persons[u]? with
  | none =>
    simp only [hp, Prod.mk.injEq, true_and] at h
    exact ⟨rfl, h.symm⟩
  | some person => simp [hp] at h

/-- A login of a user who is neither present nor bound -/
theorem enter_eq {name : Bytes} (person : PersonManager.personLogin u name s = (.success, t))
    (unbound : s.userIdToFd[u]? = none) : (playerLogin fd u t).2 = { s with
      fdToUserId := s.fdToUserId.insert fd u
      userIdToFd := s.userIdToFd.insert u fd
      persons := s.persons.insert u { name, status := .inHall, userId := u }
      trace := .playerLogin fd u :: s.trace } := by
  obtain ⟨-, rfl⟩ := PersonManager.personLogin_eq person
  simp only [playerLogin, unbound]
  rfl

/-- Whether or not the user is bound, a login touches nothing but the users. -/
theorem entered {name : Bytes} (person : PersonManager.personLogin u name s = (.success, t)) :
    ∃ fdToUserId userIdToFd persons trace, (playerLogin fd u t).2 = { s with
      fdToUserId, userIdToFd, persons, trace } := by
  obtain ⟨-, rfl⟩ := PersonManager.personLogin_eq person
  unfold playerLogin
  split
  · exact ⟨_, _, _, _, rfl⟩
  · exact ⟨_, _, _, _, rfl⟩

theorem entered_trace {name : Bytes} (person : PersonManager.personLogin u name s = (.success, t)) :
    (playerLogin fd u t).2.trace = s.trace ∨ (playerLogin fd u t).2.trace = .playerLogin fd u :: s.trace := by
  obtain ⟨-, rfl⟩ := PersonManager.personLogin_eq person
  unfold playerLogin
  split
  · exact .inr rfl
  · exact .inl rfl

/-! ### Connections -/

theorem Heartbeat.erase_eq (fd : Int) (s : Server) : ∃ secFd fdToSec,
    (erase fd s).2 = { s with secFd, fdToSec } := by
  unfold erase
  split
  · exact ⟨_, _, rfl⟩
  · split
    · exact ⟨_, _, rfl⟩
    · exact ⟨_, _, rfl⟩

theorem Heartbeat.erased {ret : Ret} (h : erase fd s = (ret, t)) : ∃ secFd fdToSec, t = { s with secFd, fdToSec } := by
  obtain ⟨secFd, fdToSec, hs⟩ := erase_eq fd s
  exact ⟨secFd, fdToSec, by rw [← hs, h]⟩

theorem dropConnection_eq (fd : Int) (c : SockPtr) (s : Server) : ∃ secFd fdToSec sock openFds epoll,
    dropConnection fd c s = { s with
      secFd, fdToSec, sock, openFds, epoll
      connects := s.connects.erase fd
      freeConns := s.freeConns ++ [c]
      trace := .close fd :: s.trace } := by
  obtain ⟨secFd, fdToSec, h⟩ := Heartbeat.erase_eq fd s
  unfold dropConnection
  rw [h]
  simp only
  split
  · exact ⟨_, _, _, _, _, rfl⟩
  · exact ⟨_, _, _, _, _, rfl⟩

theorem getFreeTcpSocket_eq {c : SockPtr} (h : getFreeTcpSocket s = (c, t)) : ∃ freeConns sockCnt sock,
    t = { s with freeConns, sockCnt, sock } := by
  unfold getFreeTcpSocket at h
  split at h <;> obtain ⟨-, rfl⟩ := Prod.mk.inj h <;> exact ⟨_, _, _, rfl⟩

theorem acceptClient_eq {env : Env} {c : SockPtr} {ret : Ret} (h : acceptClient env c s = (ret, t)) :
    ∃ openFds sock n, t = { s with openFds, sock, sys := s.sys + n } := by
  unfold acceptClient at h
  split at h <;> obtain ⟨-, rfl⟩ := Prod.mk.inj h <;> exact ⟨_, _, _, rfl⟩

/-- A socket that was given to the kernel's `accept` -/
theorem acceptSocket_eq {env : Env} {c : SockPtr} {s' : Server} {ret : Ret} (sock : getFreeTcpSocket s = (c, s'))
    (acc : acceptClient env c s' = (ret, t)) : ∃ freeConns sockCnt sock openFds n,
    t = { s with freeConns, sockCnt, sock, openFds, sys := s.sys + n } := by
  obtain ⟨_, _, _, rfl⟩ := getFreeTcpSocket_eq sock
  obtain ⟨_, _, _, rfl⟩ := acceptClient_eq acc
  exact ⟨_, _, _, _, _, rfl⟩

/-- A new connection, entered into the tables. -/
theorem accepted_eq (c : SockPtr) (nowsec : Int) (s : Server) : ∃ secFd fdToSec n, accepted c nowsec s = { s with
    secFd, fdToSec
    sys := s.sys + n
    epoll := s.epoll.insert (s.sock c).iSockfd
    connects := s.connects.insert (s.sock c).iSockfd c
    trace := .accept (s.sock c).iSockfd :: s.trace } := by
  simp only [accepted]
  split
  · exact ⟨_, _, 0, rfl⟩
  · exact ⟨_, _, 1, rfl⟩

/-! ### Members and the trace -/

theorem MP.applyChange_eq (u : Int) (teamId gameOption : Option Int) (r : Room) : ∃ teamId' gameOption',
    applyChange u teamId gameOption r = { r with teamId := teamId', gameOption := gameOption' } := by
  unfold applyChange
  split
  · simp only [Room.changeTeamId]
    split <;> exact ⟨_, _, rfl⟩
  · simp only [Room.changeGameOption]
    split
    · exact ⟨_, _, rfl⟩
    · split <;> exact ⟨_, _, rfl⟩
  · exact ⟨_, _, rfl⟩

theorem RoomManager.joined_eq (u : Int) (p : RoomPtr) (s : Server) : joined u p s = { s with
    persons := PersonManager.changed u .inRoom s.persons
    room := Function.update s.room p ((s.room p).addSlot u)
    belongRoom := s.belongRoom.insert u p
    trace := ((s.room p).addSlot u).teamSet p ((s.room p).playerCnt + 1) :: s.trace } := by
  simp only [joined, Room.added, PersonManager.changePersonStatus_eq]
  rfl

/-- The room that `CreateRoom` takes, and what it leaves for the next calls. -/
inductive RoomManager.Takes (s : Server) : RoomPtr → Int → List RoomPtr → Nat → Int → Prop
  | free {p : RoomPtr} {rest : List RoomPtr} (free : s.freeRoom = p :: rest) :
      Takes s p (s.room p).roomId rest s.roomCnt s.nextRoomId
  | new (free : s.freeRoom = []) : Takes s s.roomCnt s.nextRoomId [] (s.roomCnt + 1) (s.nextRoomId + 1)

theorem RoomManager.created_eq (u gameMode teamMode : Int) (s : Server) :
    ∃ p roomId freeRoom roomCnt nextRoomId garbage, Takes s p roomId freeRoom roomCnt nextRoomId ∧
      created u gameMode teamMode s = { s with
        freeRoom, roomCnt, nextRoomId
        persons := PersonManager.changed u .inRoom s.persons
        room := Function.update s.room p ((Room.init gameMode teamMode roomId garbage).addSlot u)
        belongRoom := s.belongRoom.insert u p
        rooms := s.rooms.insert roomId p
        trace := ((Room.init gameMode teamMode roomId garbage).addSlot u).teamSet p 1 :: .roomInit p :: s.trace } := by
  unfold created Room.added takeRoom
  cases free : s.freeRoom with
  | nil =>
    refine ⟨s.roomCnt, s.nextRoomId, [], s.roomCnt + 1, s.nextRoomId + 1, .new (s.room s.roomCnt), .new free, ?_⟩
    simp only [PersonManager.changePersonStatus_eq, Server.setRoom, Server.log, Function.update_idem,
      Function.update_self, free]
    rfl
  | cons p rest =>
    refine ⟨p, (s.room p).roomId, rest, s.roomCnt, s.nextRoomId, s.room p, .free free, ?_⟩
    simp only [PersonManager.changePersonStatus_eq, Server.setRoom, Server.log, Function.update_idem,
      Function.update_self]
    rfl

/-- A move only adds to the trace. -/
theorem trace_step {env : Env} {k l : List Frame} (move : Step env k s l t) : s.trace <:+ t.trace := by
  cases move with
  | drop _ _ =>
    obtain ⟨_, _, _, _, _, hs⟩ := dropConnection_eq _ _ s
    rw [hs]
    exact List.suffix_cons _ _
  | left => exact ⟨[], (congrArg Server.trace (PersonManager.changePersonStatus_eq _ _ s)).symm⟩
  | deliver _ _ => exact (List.suffix_cons _ _).trans (List.suffix_cons _ _)
  | enter _ _ _ person =>
    rcases entered_trace person with same | same
    · exact ⟨[], same.symm⟩
    · exact ⟨[_], same.symm⟩
  | heartbeat _ old =>
    obtain ⟨_, _, rfl⟩ := Heartbeat.erased old
    exact List.suffix_rfl
  | create _ _ _ _ _ =>
    obtain ⟨_, _, _, _, _, _, _, hs⟩ := RoomManager.created_eq _ _ _ s
    rw [hs]
    exact (List.suffix_cons _ _).trans (List.suffix_cons _ _)
  | join _ _ _ _ _ _ =>
    rw [RoomManager.joined_eq]
    exact List.suffix_cons _ _
  | gameEnd _ _ _ =>
    rw [PersonManager.changePersonStatus_eq]
    exact List.suffix_cons _ _
  | acceptFail sock acc _ =>
    obtain ⟨_, _, _, _, _, rfl⟩ := acceptSocket_eq sock acc
    exact List.suffix_rfl
  | acceptLost sock acc _ =>
    obtain ⟨_, _, _, _, _, rfl⟩ := acceptSocket_eq sock acc
    exact List.suffix_rfl
  | accept _ sock acc _ =>
    obtain ⟨_, _, _, hs⟩ := accepted_eq _ _ _
    rw [hs]
    obtain ⟨_, _, _, _, _, rfl⟩ := acceptSocket_eq sock acc
    exact List.suffix_cons _ _
  | _ =>
    first
    | exact List.suffix_rfl
    | exact List.suffix_cons _ _

end

end IslandSurvival

import IslandSurvival.Theorems.Rooms
import IslandSurvival.Theorems.Scenario
import IslandSurvival.Theorems.Users

/-! Rooms are recycled while `belong_room_` keeps pointers to them. A user that is bound to a room holds an
    online slot of it, whatever became of the other records, and so nobody is bound to a room that is
    recycled. -/

namespace IslandSurvival

/-- Every room that was put on the free list had no online slot. -/
def recycledEmpty : List Event → Bool
  | [] => true
  | .recycle _ online :: older => online.isEmpty && recycledEmpty older
  | _ :: older => recycledEmpty older

/-- The users in `belong_room_` are members of rooms in use. -/
structure Tenants (belong rooms : Map RoomPtr) (members : RoomPtr → List Int) : Prop where
  room : ∀ {u : Int} {p : RoomPtr}, belong[u]? = some p → ∃ id : Int, rooms[id]? = some p
  member : ∀ {u : Int} {p : RoomPtr}, belong[u]? = some p → u ∈ members p

namespace Tenants

variable {belong rooms : Map RoomPtr} {members : RoomPtr → List Int} {u id : Int} {p : RoomPtr}

theorem empty : Tenants ∅ ∅ members where
  room := by simp
  member := by simp

/-- A user takes a seat in a room. -/
theorem join (h : Tenants belong rooms members) (room : rooms[id]? = some p) :
    Tenants (belong.insert u p) rooms (Function.update members p (members p ++ [u])) where
  room {v q} hv := by
    rw [Map.getElem?_insert] at hv
    split at hv
    · obtain rfl := Option.some.inj hv
      exact ⟨id, room⟩
    · exact h.room hv
  member {v q} hv := by
    rw [Map.getElem?_insert] at hv
    by_cases hq : q = p
    · subst hq
      rw [Function.update_self, List.mem_append, List.mem_singleton]
      split at hv
      · rename_i huv
        exact .inr huv.symm
      · exact .inl (h.member hv)
    · rw [Function.update_of_ne hq]
      split at hv
      · exact absurd (Option.some.inj hv).symm hq
      · exact h.member hv

/-- A room that is in no use is entered without members. -/
theorem openRoom (h : Tenants belong rooms members) (key : rooms[id]? = none)
    (unused : ∀ id' : Int, rooms[id']? ≠ some p) :
    Tenants belong (rooms.insert id p) (Function.update members p []) where
  room {v q} hv := by
    obtain ⟨id', room⟩ := h.room hv
    refine ⟨id', ?_⟩
    rw [Map.getElem?_insert, if_neg, room]
    rintro rfl
    simp [key] at room
  member {v q} hv := by
    obtain ⟨id', room⟩ := h.room hv
    have hq : q ≠ p := by
      rintro rfl
      exact unused id' room
    rw [Function.update_of_ne hq]
    exact h.member hv

theorem erase (h : Tenants belong rooms members) : Tenants (belong.erase u) rooms members where
  room hv := h.room (Rooms.getElem?_of_erase hv)
  member hv := h.member (Rooms.getElem?_of_erase hv)

/-- A user leaves its room. -/
theorem leave (h : Tenants belong rooms members) {rest : List Int} (perm : (u :: rest).Perm (members p)) :
    Tenants (belong.erase u) rooms (Function.update members p rest) where
  room hv := h.room (Rooms.getElem?_of_erase hv)
  member {v q} hv := by
    rw [Map.getElem?_erase] at hv
    split at hv
    · cases hv
    · rename_i huv
      by_cases hq : q = p
      · subst hq
        rw [Function.update_self]
        have mem : v ∈ u :: rest := perm.mem_iff.mpr (h.member hv)
        exact (List.mem_cons.mp mem).resolve_left (Ne.symm huv)
      · rw [Function.update_of_ne hq]
        exact h.member hv

/-- A room without members is taken out. -/
theorem closeRoom (h : Tenants belong rooms members) (room : rooms[id]? = some p) (empty : members p = []) :
    Tenants belong (rooms.erase id) members where
  room {v q} hv := by
    obtain ⟨id', room'⟩ := h.room hv
    refine ⟨id', ?_⟩
    rw [Map.getElem?_erase, if_neg, room']
    rintro rfl
    obtain rfl : q = p := Option.some.inj (room'.symm.trans room)
    have mem := h.member hv
    simp [empty] at mem
  member := h.member

end Tenants

/-! ### Over runs -/

theorem Server.members_setRoom (s : Server) (p : RoomPtr) (r : Room) :
    (fun q => ((s.setRoom p r).room q).members) = Function.update (fun q => (s.room q).members) p r.members := by
  funext q
  by_cases hq : q = p
  · subst hq
    rw [Server.setRoom_room_self, Function.update_self]
  · rw [Server.setRoom_room_ne hq, Function.update_of_ne hq]

/-- The tenants of a state -/
def Housed (s : Server) : Prop := Tenants s.belongRoom s.rooms fun p => (s.room p).members

variable {env : Env} {k k' : List Frame} {s s' : Server}

theorem Housed.setRoom (h : Housed s) {p : RoomPtr} {r : Room} (members : r.members = (s.room p).members) :
    Housed (s.setRoom p r) := by
  unfold Housed
  rw [Server.members_setRoom, members, Function.update_eq_self]
  exact h

theorem Housed.erase (h : Housed s) (u : Int) : Housed { s with belongRoom := s.belongRoom.erase u } := Tenants.erase h

/-- A slot of a user is vacated. -/
theorem Housed.departed (h : Housed s) (rooms : Rooms s) {u : Int} {p : RoomPtr} (alloc : p < s.roomCnt)
    (pos : (s.room p).getPlayerId u ≠ 0) : Housed (RoomManager.departed u p s) := by
  obtain ⟨slot, online, player⟩ := Room.getPlayerId_spec pos
  have perm := Room.members_vacate (rooms.counted alloc) slot online
  rw [player] at perm
  have moved := Tenants.leave h perm
  rw [← Server.members_setRoom] at moved
  exact moved

/-- Nobody is online in a room that is empty by its counter. -/
theorem Room.Counted.onlineSlots_nil {r : Room} (h : r.Counted) (empty : r.onlinePlayerCnt ≤ 0) : r.onlineSlots = [] := by
  have counted := h.onlinePlayerCnt
  simp only [Room.members, List.length_map] at counted
  rw [Room.onlineSlots, ← List.length_eq_zero_iff]
  omega

theorem Room.members_eq_nil {r : Room} (h : r.onlineSlots = []) : r.members = [] := by
  rw [Room.members, ← Room.onlineSlots, h, List.map_nil]

/-- Users keep their rooms, and a room that is recycled is empty. -/
theorem housed_step (move : Step env k s k' s') (users : Users k s) (rooms : Rooms s) (snapshot : Snapshot k s)
    (h : Housed s) : Housed s' ∧ (recycledEmpty s.trace → recycledEmpty s'.trace) := by
  cases move with
  | drop _ _ =>
    obtain ⟨_, _, _, _, _, hs⟩ := dropConnection_eq _ _ s
    rw [hs]
    exact ⟨h, id⟩
  | notInRoom _ _ _ _ => exact ⟨h.erase _, id⟩
  | leave _ _ belong pos => exact ⟨h.departed rooms (rooms.belong belong) pos, id⟩
  | left =>
    rw [PersonManager.changePersonStatus_eq]
    exact ⟨h, id⟩
  | enter _ _ _ person =>
    have free := (PersonManager.personLogin_eq person).1
    rw [enter_eq person (users.userIdToFd_none free)]
    exact ⟨h, id⟩
  | heartbeat _ old =>
    obtain ⟨_, _, rfl⟩ := Heartbeat.erased old
    exact ⟨h, id⟩
  | @create _ _ u _ gameMode teamMode _ _ _ =>
    obtain ⟨p, roomId, freeRoom, roomCnt, nextRoomId, garbage, takes, hs⟩ :=
      RoomManager.created_eq u gameMode teamMode s
    rw [hs]
    obtain ⟨key, unused⟩ := rooms.takes takes
    refine ⟨?_, id⟩
    have opened := Tenants.openRoom h key unused
    have entered : (s.rooms.insert roomId p)[roomId]? = some p := by rw [Map.getElem?_insert, if_pos rfl]
    have joined := opened.join (u := u) entered
    rw [Function.update_self, Function.update_idem, List.nil_append] at joined
    have members : ((Room.init gameMode teamMode roomId garbage).addSlot u).members = [u] := Room.members_addSlot
    rw [← members, ← Server.members_setRoom] at joined
    exact joined
  | @join _ _ u _ p id' _ _ room _ _ _ =>
    rw [RoomManager.joined_eq]
    refine ⟨?_, id⟩
    have joined := Tenants.join h (u := u) room
    rw [← Room.members_addSlot, ← Server.members_setRoom] at joined
    exact joined
  | exitMissing _ _ _ => exact ⟨h.erase _, id⟩
  | exitRoom belong _ pos => exact ⟨h.departed rooms (rooms.belong belong) pos, id⟩
  | @change _ _ u _ p teamId gameOption _ _ =>
    obtain ⟨_, _, hr⟩ := MP.applyChange_eq u teamId gameOption (s.room p)
    rw [hr]
    exact ⟨h.setRoom (Room.members_congr rfl rfl rfl), id⟩
  | @gameEnd _ _ u _ p belong status pos =>
    rw [PersonManager.changePersonStatus_eq]
    have departed := h.departed rooms (rooms.belong belong) pos
    have offline : (s.room p).vacate ((s.room p).getPlayerId u) = (s.room p).setOffline ((s.room p).getPlayerId u) := by
      simp [Room.vacate, status]
    simp only [RoomManager.departed, offline] at departed
    exact ⟨departed, id⟩
  | gameEndFail _ _ => exact ⟨h.erase _, id⟩
  | @recycle _ id' p _ empty =>
    obtain ⟨rfl, room⟩ : s.rooms = _ ∧ _[id']? = some p := snapshot _ List.mem_cons_self
    have none := (rooms.counted (rooms.table.room room).1).onlineSlots_nil empty
    refine ⟨Tenants.closeRoom h room (Room.members_eq_nil none), fun recycled => ?_⟩
    simp only [Server.log, recycledEmpty, none, List.isEmpty_nil, Bool.true_and]
    exact recycled
  | acceptFail sock acc _ =>
    obtain ⟨_, _, _, _, _, rfl⟩ := acceptSocket_eq sock acc
    exact ⟨h, id⟩
  | acceptLost sock acc _ =>
    obtain ⟨_, _, _, _, _, rfl⟩ := acceptSocket_eq sock acc
    exact ⟨h, id⟩
  | accept _ sock acc _ =>
    obtain ⟨_, _, _, hs⟩ := accepted_eq _ _ _
    rw [hs]
    obtain ⟨_, _, _, _, _, rfl⟩ := acceptSocket_eq sock acc
    exact ⟨h, id⟩
  | _ =>
    first
    | exact ⟨h, id⟩
    | exact ⟨h.setRoom (Room.members_congr rfl rfl rfl), id⟩

theorem Config.tenancy (h : Config env k s) : Housed s ∧ recycledEmpty s.trace := by
  induction h with
  | boot booted =>
    unfold Housed
    rw [booted.belongRoom, booted.rooms, booted.trace]
    exact ⟨.empty, rfl⟩
  | step reached move ih =>
    obtain ⟨housed, recycled⟩ := ih
    obtain ⟨housed', keeps⟩ := housed_step move reached.users reached.rooms reached.snapshot housed
    exact ⟨housed', keeps recycled⟩

/-- Where the rooms of a state are -/
structure RoomsPlaced (s : Server) : Prop where
  key : ∀ {id : Int} {p : RoomPtr}, s.rooms[id]? = some p → p < s.roomCnt ∧ (s.room p).roomId = id
  free : ∀ {p : RoomPtr}, p ∈ s.freeRoom → p < s.roomCnt
  place : ∀ {p : RoomPtr}, p < s.roomCnt → Xor (s.rooms[(s.room p).roomId]? = some p) (p ∈ s.freeRoom)
  once : s.freeRoom.Nodup
  distinct : ∀ {p q : RoomPtr}, p < s.roomCnt → q < s.roomCnt → p ≠ q → (s.room p).roomId ≠ (s.room q).roomId
  recycled : recycledEmpty s.trace
  belong : ∀ {u : Int} {p : RoomPtr}, s.belongRoom[u]? = some p → s.rooms[(s.room p).roomId]? = some p ∧
    ∃ i, 1 ≤ i ∧ i ≤ (s.room p).playerCnt ∧ (s.room p).isOnline i = true ∧ (s.room p).players i = u

/-- Every room is in use under its own number or free, and users are bound to rooms in use only. -/
theorem rooms_placed (h : Reachable env s) : RoomsPlaced s := by
  have table := h.config.rooms.table
  obtain ⟨tenants, recycled⟩ := h.config.tenancy
  refine ⟨table.room, fun hp => (table.free hp).1, fun {p} hp => ?_, table.nodup,
    fun hp hq ne same => ne (table.distinct hp hq same), recycled, fun {u p} hu => ⟨?_, Room.mem_members.mp (tenants.member hu)⟩⟩
  · rcases table.placed hp with room | free
    · refine .inl ⟨room, fun free => ?_⟩
      rw [(table.free free).2] at room
      cases room
    · refine .inr ⟨free, ?_⟩
      rw [(table.free free).2]
      exact nofun
  · obtain ⟨id, room⟩ := tenants.room hu
    rw [(table.room room).2]
    exact room

/-- A client creates a room and hangs up. -/
def Script.leftRoom : Env := { oneClient (request 0 ++ request 9) with
  epollWait := fun n => if n = 1 then [readable 3] else if n = 6 then [readable 4] else [hungUp 4] }

/-- The room that was left is free again, and nobody is bound to it. -/
theorem rooms_placed_after_exit : ∃ s, Reachable Script.leftRoom s ∧ s.freeRoom = [0] ∧ RoomsPlaced s := by
  obtain ⟨s, reachable, test⟩ := exists_of_ends 4 (fun s => s.freeRoom == [0]) (Script.reachable Script.leftRoom)
    (by decide +kernel)
  simp only [beq_iff_eq] at test
  exact ⟨s, reachable, test, rooms_placed reachable⟩

end IslandSurvival

import IslandSurvival.Theorems.Members
import IslandSurvival.Theorems.Refine

/-! The rooms of the server: every number in `rooms_` leads to the room that carries it, the rooms on the
    free list are in no use, and the counters of a room count its slots. -/

namespace IslandSurvival

/-! ### Numbers -/

/-- The tables of `RoomManager`, with the numbers that the rooms carry. -/
structure RoomTable (freeRoom : List RoomPtr) (rooms : Map RoomPtr) (nextRoomId : Int) (roomCnt : Nat)
    (roomId : RoomPtr → Int) : Prop where
  room : ∀ {id : Int} {p : RoomPtr}, rooms[id]? = some p → p < roomCnt ∧ roomId p = id
  free : ∀ {p : RoomPtr}, p ∈ freeRoom → p < roomCnt ∧ rooms[roomId p]? = none
  nodup : freeRoom.Nodup
  fresh : ∀ {p : RoomPtr}, p < roomCnt → roomId p < nextRoomId
  distinct : ∀ {p q : RoomPtr}, p < roomCnt → q < roomCnt → roomId p = roomId q → p = q
  placed : ∀ {p : RoomPtr}, p < roomCnt → rooms[roomId p]? = some p ∨ p ∈ freeRoom

namespace RoomTable

variable {freeRoom : List RoomPtr} {rooms : Map RoomPtr} {nextRoomId : Int} {roomCnt : Nat}
  {roomId : RoomPtr → Int} {p q : RoomPtr} {id : Int}

theorem empty {nextRoomId : Int} : RoomTable [] ∅ nextRoomId 0 roomId where
  room := by simp
  free := by simp
  nodup := List.nodup_nil
  fresh := by simp
  distinct := by simp
  placed := by simp

/-- A room from the free list is entered under its number. -/
theorem reuse (h : RoomTable (p :: freeRoom) rooms nextRoomId roomCnt roomId) :
    RoomTable freeRoom (rooms.insert (roomId p) p) nextRoomId roomCnt roomId where
  room {id q} hq := by
    rw [Map.getElem?_insert] at hq
    split at hq
    · obtain rfl := Option.some.inj hq
      exact ⟨(h.free List.mem_cons_self).1, ‹_›⟩
    · exact h.room hq
  free {q} hq := by
    obtain ⟨hlt, hnone⟩ := h.free (List.mem_cons_of_mem _ hq)
    refine ⟨hlt, ?_⟩
    rw [Map.getElem?_insert, if_neg, hnone]
    intro heq
    obtain rfl := h.distinct (h.free List.mem_cons_self).1 hlt heq
    exact (List.nodup_cons.mp h.nodup).1 hq
  nodup := (List.nodup_cons.mp h.nodup).2
  fresh := h.fresh
  distinct := h.distinct
  placed {q} hq := by
    rw [Map.getElem?_insert]
    by_cases hqp : roomId p = roomId q
    · rw [if_pos hqp]
      exact .inl (congrArg some (h.distinct (h.free List.mem_cons_self).1 hq hqp))
    · rw [if_neg hqp]
      refine (h.placed hq).imp_right fun hm => (List.mem_cons.mp hm).resolve_left ?_
      rintro rfl
      exact hqp rfl

theorem old (lt : p < roomCnt + 1) (new : p ≠ roomCnt) : p < roomCnt :=
  Nat.lt_of_le_of_ne (Nat.le_of_lt_succ lt) new

/-- A new room gets the next number. -/
theorem extend (h : RoomTable [] rooms nextRoomId roomCnt roomId) :
    RoomTable [] (rooms.insert nextRoomId roomCnt) (nextRoomId + 1) (roomCnt + 1)
      (Function.update roomId roomCnt nextRoomId) where
  room {id q} hq := by
    rw [Map.getElem?_insert] at hq
    split at hq
    · obtain rfl := Option.some.inj hq
      exact ⟨Nat.lt_succ_self _, by rwa [Function.update_self]⟩
    · obtain ⟨hlt, hid⟩ := h.room hq
      exact ⟨Nat.lt_succ_of_lt hlt, by rwa [Function.update_of_ne (Nat.ne_of_lt hlt)]⟩
  free hq := absurd hq List.not_mem_nil
  nodup := List.nodup_nil
  fresh {q} hq := by
    by_cases new : q = roomCnt
    · rw [new, Function.update_self]
      exact Int.lt_succ nextRoomId
    · rw [Function.update_of_ne new]
      exact Int.lt_trans (h.fresh (old hq new)) (Int.lt_succ nextRoomId)
  distinct {q q'} hq hq' heq := by
    by_cases new : q = roomCnt <;> by_cases new' : q' = roomCnt
    · rw [new, new']
    · rw [new, Function.update_self, Function.update_of_ne new'] at heq
      exact absurd heq (Int.ne_of_gt (h.fresh (old hq' new')))
    · rw [new', Function.update_self, Function.update_of_ne new] at heq
      exact absurd heq (Int.ne_of_lt (h.fresh (old hq new)))
    · rw [Function.update_of_ne new, Function.update_of_ne new'] at heq
      exact h.distinct (old hq new) (old hq' new') heq
  placed {q} hq := by
    rw [Map.getElem?_insert]
    by_cases new : q = roomCnt
    · rw [new, Function.update_self, if_pos rfl]
      exact .inl rfl
    · rw [Function.update_of_ne new, if_neg (Int.ne_of_gt (h.fresh (old hq new)))]
      exact h.placed (old hq new)

theorem recycle (h : RoomTable freeRoom rooms nextRoomId roomCnt roomId) (room : rooms[id]? = some p) :
    RoomTable (freeRoom ++ [p]) (rooms.erase id) nextRoomId roomCnt roomId where
  room {id' q} hq := by
    rw [Map.getElem?_erase] at hq
    split at hq
    · cases hq
    · exact h.room hq
  free {q} hq := by
    rw [Map.getElem?_erase]
    rcases List.mem_append.mp hq with hq | hq
    · obtain ⟨hlt, hnone⟩ := h.free hq
      exact ⟨hlt, by rw [hnone, ite_self]⟩
    · obtain rfl := List.mem_singleton.mp hq
      obtain ⟨hlt, hid⟩ := h.room room
      exact ⟨hlt, by rw [if_pos hid.symm]⟩
  nodup := by
    refine List.nodup_append.mpr ⟨h.nodup, List.nodup_singleton p, fun q hq q' hq' => ?_⟩
    obtain rfl := List.mem_singleton.mp hq'
    rintro rfl
    have hnone := (h.free hq).2
    rw [(h.room room).2, room] at hnone
    cases hnone
  fresh := h.fresh
  distinct := h.distinct
  placed {q} hq := by
    rw [Map.getElem?_erase]
    by_cases hqp : q = p
    · exact .inr (List.mem_append_right _ (List.mem_singleton.mpr hqp))
    · rw [if_neg]
      · exact (h.placed hq).imp_right (List.mem_append_left _)
      · intro heq
        exact hqp (h.distinct hq (h.room room).1 (heq.symm.trans (h.room room).2.symm))

end RoomTable

/-! ### Counters -/

/-- The counters of a room. Before a game nobody is offline. -/
structure Room.Counted (r : Room) : Prop where
  playerCnt : r.playerCnt ≤ maxPlayerCnt
  onlinePlayerCnt : r.onlinePlayerCnt = r.members.length
  waiting : r.status = .waiting → ∀ i ∈ r.slots, r.isOnline i = true

namespace Room.Counted

variable {r : Room} {u : Int} {pos : Nat}

theorem init_addSlot (gameMode teamMode roomId : Int) : ((r.init gameMode teamMode roomId).addSlot u).Counted where
  playerCnt := by simp [Room.init, addSlot, maxPlayerCnt]
  onlinePlayerCnt := by
    rw [members_addSlot, members_init]
    rfl
  waiting _ i hi := by
    obtain ⟨h₁, h₂⟩ := mem_slots.mp hi
    obtain rfl : i = 1 := Nat.le_antisymm h₂ h₁
    simp [Room.init, addSlot]

theorem addSlot (h : r.Counted) (cnt : r.playerCnt < maxPlayerCnt) : (r.addSlot u).Counted where
  playerCnt := cnt
  onlinePlayerCnt := by
    rw [members_addSlot, List.length_append, Int.natCast_add, ← h.onlinePlayerCnt]
    rfl
  waiting status i hi := by
    by_cases hn : i = r.playerCnt + 1
    · simp [Room.addSlot, hn]
    · obtain ⟨h₁, h₂⟩ := mem_slots.mp hi
      simp only [Room.addSlot] at h₂ ⊢
      rw [Function.update_of_ne hn]
      exact h.waiting status i (mem_slots.mpr ⟨h₁, by omega⟩)

theorem setOffline (h : r.Counted) (slot : pos ∈ r.slots) (online : r.isOnline pos = true)
    (status : r.status ≠ .waiting) : (r.setOffline pos).Counted where
  playerCnt := h.playerCnt
  onlinePlayerCnt := by
    have := (members_setOffline slot online).length_eq
    simp only [List.length_cons] at this
    have hcnt := h.onlinePlayerCnt
    simp only [Room.setOffline] at this ⊢
    omega
  waiting waiting := absurd waiting status

theorem removeSlot (h : r.Counted) (slot : pos ∈ r.slots) (status : r.status = .waiting) :
    (r.removeSlot pos).Counted where
  playerCnt := Nat.le_trans (Nat.sub_le _ _) h.playerCnt
  onlinePlayerCnt := by
    have := (members_removeSlot slot (h.waiting status)).length_eq
    simp only [List.length_cons] at this
    have hcnt := h.onlinePlayerCnt
    simp only [Room.removeSlot] at this ⊢
    omega
  waiting _ i hi := by
    obtain ⟨h₁, h₂⟩ := mem_slots.mp hi
    obtain ⟨h₃, h₄⟩ := mem_slots.mp slot
    simp only [Room.removeSlot] at h₂ ⊢
    rw [Function.update_of_ne (by omega)]
    exact h.waiting status i (mem_slots.mpr ⟨h₁, by omega⟩)

theorem vacate (h : r.Counted) (slot : pos ∈ r.slots) (online : r.isOnline pos = true) : (r.vacate pos).Counted := by
  unfold Room.vacate
  split
  · rename_i status
    exact h.removeSlot slot status
  · rename_i status
    exact h.setOffline slot online status

/-- Updates that leave the slots as they are. -/
theorem congr {r' : Room} (h : r.Counted) (cnt : r'.playerCnt = r.playerCnt) (online : r'.isOnline = r.isOnline)
    (players : r'.players = r.players) (onlineCnt : r'.onlinePlayerCnt = r.onlinePlayerCnt)
    (status : r'.status = .waiting → r.status = .waiting) : r'.Counted where
  playerCnt := cnt ▸ h.playerCnt
  onlinePlayerCnt := by rw [onlineCnt, members_congr cnt online players, h.onlinePlayerCnt]
  waiting waiting := by
    simp only [slots, cnt, online]
    exact h.waiting (status waiting)

theorem loadSlot (h : r.Counted) : (r.loadSlot pos).Counted := h.congr rfl rfl rfl rfl id

end Room.Counted

/-- The user that leaves is gone from the members, and nobody else. -/
theorem Room.members_vacate {r : Room} {pos : Nat} (h : r.Counted) (slot : pos ∈ r.slots)
    (online : r.isOnline pos = true) : (r.players pos :: (r.vacate pos).members).Perm r.members := by
  unfold vacate
  split
  · rename_i status
    exact members_removeSlot slot (h.waiting status)
  · exact members_setOffline slot online

/-! ### Over runs -/

/-- The rooms of a state -/
structure Rooms (s : Server) : Prop where
  table : RoomTable s.freeRoom s.rooms s.nextRoomId s.roomCnt fun p => (s.room p).roomId
  counted : ∀ {p : RoomPtr}, p < s.roomCnt → (s.room p).Counted
  belong : ∀ {u : Int} {p : RoomPtr}, s.belongRoom[u]? = some p → p < s.roomCnt

variable {env : Env} {k k' : List Frame} {s s' : Server}

namespace Rooms

/-- Moves that change neither the tables nor the slots. -/
theorem congr (h : Rooms s) (freeRoom : s'.freeRoom = s.freeRoom) (rooms : s'.rooms = s.rooms)
    (nextRoomId : s'.nextRoomId = s.nextRoomId) (roomCnt : s'.roomCnt = s.roomCnt)
    (roomId : ∀ p, (s'.room p).roomId = (s.room p).roomId)
    (counted : ∀ p, (s.room p).Counted → (s'.room p).Counted) (belong : s'.belongRoom = s.belongRoom) : Rooms s' where
  table := by
    rw [freeRoom, rooms, nextRoomId, roomCnt, funext roomId]
    exact h.table
  counted hp := counted _ (h.counted (roomCnt ▸ hp))
  belong hu := roomCnt ▸ h.belong (belong ▸ hu)

/-- An update of one room that keeps its number. -/
theorem setRoom (h : Rooms s) {p : RoomPtr} {r : Room} (roomId : r.roomId = (s.room p).roomId)
    (counted : (s.room p).Counted → r.Counted) : Rooms (s.setRoom p r) := by
  refine h.congr rfl rfl rfl rfl (Server.setRoom_congr roomId) (fun q hq => ?_) rfl
  by_cases hqp : q = p
  · subst hqp
    rw [Server.setRoom_room_self]
    exact counted hq
  · rwa [Server.setRoom_room_ne hqp]

theorem logged {e : Event} (h : Rooms s) : Rooms (s.log e) := ⟨h.table, h.counted, h.belong⟩

theorem getElem?_of_erase {u v : Int} {q : RoomPtr} {belong : Map RoomPtr} (hv : (belong.erase u)[v]? = some q) :
    belong[v]? = some q := by
  rw [Map.getElem?_erase] at hv
  split at hv
  · cases hv
  · exact hv

/-- A user that enters a room -/
theorem belong_insert (h : Rooms s) {u v : Int} {p q : RoomPtr} (hp : p < s.roomCnt)
    (hv : (s.belongRoom.insert u p)[v]? = some q) : q < s.roomCnt := by
  rw [Map.getElem?_insert] at hv
  split at hv
  · exact Option.some.inj hv ▸ hp
  · exact h.belong hv

theorem departed (h : Rooms s) {u : Int} {p : RoomPtr} (pos : (s.room p).getPlayerId u ≠ 0) :
    Rooms (RoomManager.departed u p s) := by
  obtain ⟨slot, online, -⟩ := Room.getPlayerId_spec pos
  have moved : Rooms (s.setRoom p ((s.room p).vacate ((s.room p).getPlayerId u))) := by
    refine h.setRoom ?_ fun counted => counted.vacate slot online
    unfold Room.vacate
    split <;> rfl
  exact ⟨moved.table, moved.counted, fun {v q} hv => h.belong (getElem?_of_erase hv)⟩

/-- A room of `CreateRoom` is entered and initialised. -/
theorem created (h : Rooms s) (u gameMode teamMode : Int) : Rooms (RoomManager.created u gameMode teamMode s) := by
  obtain ⟨p, roomId, freeRoom, roomCnt, nextRoomId, garbage, takes, hs⟩ := RoomManager.created_eq u gameMode teamMode s
  rw [hs]
  have number : (fun q => (Function.update s.room p ((Room.init gameMode teamMode roomId garbage).addSlot u) q).roomId) =
      Function.update (fun q => (s.room q).roomId) p roomId := by
    funext q
    by_cases hq : q = p
    · subst hq
      rw [Function.update_self, Function.update_self]
      rfl
    · rw [Function.update_of_ne hq, Function.update_of_ne hq]
  have counted : ∀ q, (q ≠ p → q < s.roomCnt) →
      (Function.update s.room p ((Room.init gameMode teamMode roomId garbage).addSlot u) q).Counted := fun q hlt => by
    by_cases hq : q = p
    · subst hq
      rw [Function.update_self]
      exact .init_addSlot gameMode teamMode roomId
    · rw [Function.update_of_ne hq]
      exact h.counted (hlt hq)
  cases takes with
  | free free =>
    have lt := (h.table.free (free ▸ List.mem_cons_self)).1
    refine ⟨?_, fun {q} hq => counted q fun _ => hq, h.belong_insert lt⟩
    rw [number, Function.update_eq_self_iff.mpr rfl]
    exact RoomTable.reuse (free ▸ h.table)
  | new free =>
    refine ⟨?_, fun {q} hq => counted q fun hne => RoomTable.old hq hne, fun {v q} hv => ?_⟩
    · rw [number]
      exact RoomTable.extend (free ▸ h.table)
    · rw [Map.getElem?_insert] at hv
      split at hv
      · exact Option.some.inj hv ▸ Nat.lt_succ_self _
      · exact Nat.lt_succ_of_lt (h.belong hv)

/-- The room that `CreateRoom` takes is in no use, nor is its number. -/
theorem takes (h : Rooms s) {p : RoomPtr} {roomId : Int} {freeRoom : List RoomPtr} {roomCnt : Nat} {nextRoomId : Int}
    (takes : RoomManager.Takes s p roomId freeRoom roomCnt nextRoomId) :
    s.rooms[roomId]? = none ∧ ∀ id : Int, s.rooms[id]? ≠ some p := by
  cases takes with
  | free free =>
    have none := (h.table.free (free ▸ List.mem_cons_self)).2
    refine ⟨none, fun id room => ?_⟩
    rw [(h.table.room room).2, room] at none
    cases none
  | new free =>
    refine ⟨?_, fun id room => absurd (h.table.room room).1 (Nat.lt_irrefl _)⟩
    rw [Option.eq_none_iff_forall_ne_some]
    intro q room
    obtain ⟨lt, number⟩ := h.table.room room
    exact absurd number (Int.ne_of_lt (h.table.fresh lt))

end Rooms

theorem rooms_step (move : Step env k s k' s') (snapshot : Snapshot k s) (h : Rooms s) : Rooms s' := by
  cases move with
  | drop _ _ =>
    obtain ⟨_, _, _, _, _, hs⟩ := dropConnection_eq _ _ s
    rw [hs]
    exact ⟨h.table, h.counted, h.belong⟩
  | leave _ _ _ pos => exact h.departed pos
  | left =>
    rw [PersonManager.changePersonStatus_eq]
    exact ⟨h.table, h.counted, h.belong⟩
  | load now => exact Rooms.logged (h.setRoom rfl fun counted => counted.congr rfl rfl rfl rfl fun h => by cases h)
  | start now now' => exact Rooms.logged (h.setRoom rfl fun counted => counted.congr rfl rfl rfl rfl fun h => by cases h)
  | notInRoom _ _ _ _ => exact ⟨h.table, h.counted, fun {v q} hv => h.belong (Rooms.getElem?_of_erase hv)⟩
  | exitRoom _ _ pos => exact h.departed pos
  | exitMissing _ _ _ => exact ⟨h.table, h.counted, fun {v q} hv => h.belong (Rooms.getElem?_of_erase hv)⟩
  | gameEndFail _ _ => exact ⟨h.table, h.counted, fun {v q} hv => h.belong (Rooms.getElem?_of_erase hv)⟩
  | change teamId gameOption _ _ =>
    obtain ⟨_, _, hr⟩ := MP.applyChange_eq _ teamId gameOption _
    rw [hr]
    exact Rooms.logged (h.setRoom rfl fun counted => counted.congr rfl rfl rfl rfl id)
  | enter _ _ _ person =>
    obtain ⟨_, _, _, _, hs⟩ := entered person
    rw [hs]
    exact ⟨h.table, h.counted, h.belong⟩
  | heartbeat _ old =>
    obtain ⟨_, _, rfl⟩ := Heartbeat.erased old
    exact ⟨h.table, h.counted, h.belong⟩
  | create gameMode teamMode _ _ _ => exact h.created _ gameMode teamMode
  | @join _ _ u _ p _ _ _ room _ _ cnt =>
    rw [RoomManager.joined_eq]
    have moved : Rooms (s.setRoom p ((s.room p).addSlot u)) := h.setRoom rfl fun counted => counted.addSlot cnt
    exact ⟨moved.table, moved.counted, h.belong_insert (h.table.room room).1⟩
  | @gameEnd _ _ u _ p _ status pos =>
    rw [PersonManager.changePersonStatus_eq]
    obtain ⟨slot, online, -⟩ := Room.getPlayerId_spec pos
    have moved : Rooms (s.setRoom p ((s.room p).setOffline ((s.room p).getPlayerId u))) :=
      h.setRoom rfl fun counted => counted.setOffline slot online (by simp [status])
    exact ⟨moved.table, moved.counted, fun {v q} hv => h.belong (Rooms.getElem?_of_erase hv)⟩
  | recycle _ => 
    obtain ⟨rfl, room⟩ := snapshot _ List.mem_cons_self
    exact ⟨RoomTable.recycle h.table room, h.counted, h.belong⟩
  | acceptFail sock acc _ =>
    obtain ⟨_, _, _, _, _, rfl⟩ := acceptSocket_eq sock acc
    exact ⟨h.table, h.counted, h.belong⟩
  | acceptLost sock acc _ =>
    obtain ⟨_, _, _, _, _, rfl⟩ := acceptSocket_eq sock acc
    exact ⟨h.table, h.counted, h.belong⟩
  | accept _ sock acc _ =>
    obtain ⟨_, _, _, hs⟩ := accepted_eq _ _ _
    rw [hs]
    obtain ⟨_, _, _, _, _, rfl⟩ := acceptSocket_eq sock acc
    exact ⟨h.table, h.counted, h.belong⟩
  | _ =>
    first
    | exact ⟨h.table, h.counted, h.belong⟩
    | exact h.setRoom rfl fun counted => counted.congr rfl rfl rfl rfl id
    | exact Rooms.logged (h.setRoom rfl fun counted => counted.congr rfl rfl rfl rfl id)

theorem Config.rooms (h : Config env k s) : Rooms s := by
  induction h with
  | @boot s booted =>
    have none : ∀ p, ¬p < s.roomCnt := by simp [booted.roomCnt]
    refine ⟨?_, fun {p} hp => absurd hp (none p), fun {u p} hu => ?_⟩
    · rw [booted.freeRoom, booted.rooms, booted.roomCnt]
      exact .empty
    · simp [booted.belongRoom] at hu
  | step reached move ih => exact rooms_step move reached.snapshot ih

end IslandSurvival

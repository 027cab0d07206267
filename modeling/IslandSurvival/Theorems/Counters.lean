import IslandSurvival.Theorems.Loading

/-! The counters of the rooms. Between two steps of the main loop each counts the slots that it stands for, and so
    the number of players in the list of rooms tells whether a room can be joined. -/

namespace IslandSurvival

open Prog

/-- The counters of a room, between two steps of the main loop -/
structure Room.CountersExact (r : Room) : Prop where
  online : r.onlinePlayerCnt = r.onlineSlots.length
  order : r.onlinePlayerCnt ≤ r.playerCnt ∧ r.playerCnt ≤ maxPlayerCnt
  waiting : r.status = .waiting → ∀ i, 1 ≤ i → i ≤ r.playerCnt → r.isOnline i = true
  loading : r.status = .loading →
    r.loadingSucceedCnt = (r.slots.filter fun i => r.isOnline i && r.isLoadingSucceed i).length

namespace Room

variable {r : Room}

theorem Counted.onlineSlots (h : r.Counted) : r.onlinePlayerCnt = r.onlineSlots.length := by
  rw [h.onlinePlayerCnt, members, List.length_map, Room.onlineSlots]

theorem length_slots : r.slots.length = r.playerCnt := List.length_range'

/-- In a room that waits every player is online. -/
theorem Counted.waiting_cnt (h : r.Counted) (status : r.status = .waiting) : r.onlinePlayerCnt = r.playerCnt := by
  rw [h.onlineSlots, Room.onlineSlots, List.filter_eq_self.mpr (h.waiting status), length_slots]

/-- Where nobody who has left is counted, the loaded slots are online. -/
theorem loaded_online (none : r.overcounted = []) :
    r.loaded = r.slots.filter fun i => r.isOnline i && r.isLoadingSucceed i := by
  refine List.filter_congr fun i hi => ?_
  have out := List.filter_eq_nil_iff.mp none i hi
  cases online : r.isOnline i
  · simpa [online] using out
  · rw [Bool.true_and]

theorem Counted.exact (h : r.Counted) {fair : Prop} {last : Option Int} {out : Bool} (load : LoadRoom fair [] r last out) :
    r.CountersExact where
  online := h.onlineSlots
  order := by
    refine ⟨?_, h.playerCnt⟩
    have le : r.onlineSlots.length ≤ r.slots.length := List.length_filter_le _ _
    rw [length_slots] at le
    rw [h.onlineSlots]
    exact Int.ofNat_le.mpr le
  waiting status i hi hn := h.waiting status i (mem_slots.mpr ⟨hi, hn⟩)
  loading status := by
    have none : r.overcounted = [] := List.eq_nil_iff_forall_not_mem.mpr fun i hi =>
      absurd (load.pending status hi) List.not_mem_nil
    rw [← loaded_online none]
    exact (load.counted status).1

end Room

section
variable {env : Env} {s : Server}

/-- A listed room is one that waits. -/
theorem RoomManager.mem_getAllRoomInfo {info : PBRoomInfo} (h : info ∈ getAllRoomInfo s) :
    ∃ (id : Int) (p : RoomPtr), s.rooms[id]? = some p ∧ (s.room p).status = .waiting ∧ info = (s.room p).getRoomInfo := by
  obtain ⟨⟨id, p⟩, mem, rfl⟩ := List.mem_map.mp h
  obtain ⟨mem, waits⟩ := List.mem_filter.mp mem
  exact ⟨id, p, Std.ExtTreeMap.mem_toList_iff_getElem?_eq_some.mp mem, by simpa using waits, rfl⟩

theorem Room.addPlayer_full {u : Int} {p : RoomPtr} (status : (s.room p).status = .waiting)
    (full : maxPlayerCnt ≤ (s.room p).playerCnt) : addPlayer p u s = .ok .addPlayerFull s := by
  show (if (s.room p).status = .waiting then _ else _ : M JoinResult) s = _
  rw [if_pos status, if_pos full]
  rfl

theorem Room.addPlayer_succeed {u : Int} {p : RoomPtr} (status : (s.room p).status = .waiting)
    (cnt : (s.room p).playerCnt < maxPlayerCnt) : addPlayer p u s = .ok .addPlayerSucceed (added p u s) := by
  show (if (s.room p).status = .waiting then _ else _ : M JoinResult) s = _
  rw [if_pos status, if_neg (Nat.not_le_of_lt cnt)]
  rfl

/-- `JoinRoom` by a user in no room does what `AddPlayer` says. -/
theorem RoomManager.joinRoom_free {u id : Int} {p : RoomPtr} {result : JoinResult} {t : Server}
    (room : s.rooms[id]? = some p) (free : u ∉ s.belongRoom) (added : Room.addPlayer p u s = .ok result t) :
    ∃ t', joinRoom u id s = .ok result t' := by
  have call : joinRoom u id s = (do
      let ret ← Room.addPlayer p u
      if ret = .addPlayerSucceed then
        modify fun s => { s with belongRoom := s.belongRoom.insert u p }
        return ret
      else
        return ret : M JoinResult) s := by
    unfold joinRoom
    rw [get_bind, room]
    show (if u ∈ s.belongRoom then _ else _ : M JoinResult) s = _
    rw [if_neg free]
  have ends : wp (joinRoom u id) (fun ret _ => ret = result) (fun _ _ => False) s := by
    unfold wp
    rw [call]
    show wp _ _ _ s
    rw [wp_bind]
    unfold wp
    rw [added]
    show wp _ _ _ t
    split
    · simp
    · simp
  unfold wp at ends
  cases run : joinRoom u id s with
  | ok ret t' =>
    rw [run] at ends
    exact ⟨t', by rw [ends]⟩
  | error e t' =>
    rw [run] at ends
    exact ends.elim

/-- Between two steps of the main loop the counters of all rooms are exact, and a user in no room can join a listed
    room if and only if the list shows a free place. -/
theorem counters_exact (h : Reachable env s) : (∀ p, p < s.roomCnt → (s.room p).CountersExact) ∧
    ∀ info ∈ RoomManager.getAllRoomInfo s, ∀ u : Int, u ∉ s.belongRoom → ∃ t, RoomManager.joinRoom u info.id s =
      .ok (if info.have_ < info.limit then .addPlayerSucceed else .addPlayerFull) t := by
  have rooms := h.config.rooms
  refine ⟨fun p alloc => (rooms.counted alloc).exact (h.config.loading.2 p alloc), fun info listed u free => ?_⟩
  obtain ⟨id, p, room, status, rfl⟩ := RoomManager.mem_getAllRoomInfo listed
  obtain ⟨alloc, number⟩ := rooms.table.room room
  have cnt := (rooms.counted alloc).waiting_cnt status
  rw [← number] at room
  split
  · rename_i place
    have place : (s.room p).onlinePlayerCnt < maxPlayerCnt := place
    exact RoomManager.joinRoom_free room free (Room.addPlayer_succeed status (by omega))
  · rename_i full
    have full : ¬(s.room p).onlinePlayerCnt < maxPlayerCnt := full
    exact RoomManager.joinRoom_free room free (Room.addPlayer_full status (by omega))

end

/-- User 2 can join the room of user 1. -/
theorem counters_exact_waiting : ∃ s t, Reachable (Script.oneClient (Script.request 0 ++ Script.request 9)) s ∧
    (s.room 0).CountersExact ∧
    RoomManager.getAllRoomInfo s = [{ id := 1000, have_ := 1, limit := 8, gameMode := 1, teamMode := 1 }] ∧
    RoomManager.joinRoom 2 1000 s = .ok .addPlayerSucceed t := by
  obtain ⟨s, reachable, test⟩ := exists_of_ends 2
    (fun s => s.roomCnt == 1 && s.belongRoom[(2 : Int)]? == none &&
      RoomManager.getAllRoomInfo s == [{ id := 1000, have_ := 1, limit := 8, gameMode := 1, teamMode := 1 }])
    (Script.reachable (Script.oneClient (Script.request 0 ++ Script.request 9))) (by decide +kernel)
  simp only [Bool.and_eq_true, beq_iff_eq] at test
  obtain ⟨⟨roomCnt, free⟩, listed⟩ := test
  obtain ⟨exact', joins⟩ := counters_exact reachable
  obtain ⟨t, run⟩ := joins _ (by rw [listed]; exact List.mem_singleton_self _) 2 (Map.notMem_of_getElem? free)
  exact ⟨s, t, reachable, exact' 0 (by rw [roomCnt]; decide), listed, run⟩

end IslandSurvival

import IslandSurvival.Theorems.Step
import Mathlib.Data.List.Nodup

/-! The members of a room: the users of its online slots, and how the updates of a room change them. -/

namespace IslandSurvival

namespace Room

/-- The users in online slots, by slot number -/
def members (r : Room) : List Int := (r.slots.filter r.isOnline).map r.players

variable {r : Room} {u : Int} {pos : Nat}

theorem mem_slots : pos ∈ r.slots ↔ 1 ≤ pos ∧ pos ≤ r.playerCnt := by
  rw [slots, List.mem_range'_1]
  omega

theorem slots_nodup : r.slots.Nodup := List.nodup_range'

theorem mem_members : u ∈ r.members ↔ ∃ i, 1 ≤ i ∧ i ≤ r.playerCnt ∧ r.isOnline i = true ∧ r.players i = u := by
  simp only [members, List.mem_map, List.mem_filter, mem_slots, and_assoc]

/-! ### The slot of a user -/

theorem getPlayerId_spec (h : r.getPlayerId u ≠ 0) :
    r.getPlayerId u ∈ r.slots ∧ r.isOnline (r.getPlayerId u) = true ∧ r.players (r.getPlayerId u) = u := by
  unfold getPlayerId at h ⊢
  cases hf : r.slots.find? fun i => r.isOnline i && r.players i == u with
  | none => simp [hf] at h
  | some i =>
    have found := List.find?_some hf
    simp only [Bool.and_eq_true, beq_iff_eq] at found
    exact ⟨List.mem_of_find?_eq_some hf, found.1, found.2⟩

theorem getPlayerId_ne_zero : r.getPlayerId u ≠ 0 ↔ u ∈ r.members := by
  constructor
  · intro h
    obtain ⟨slot, online, player⟩ := getPlayerId_spec h
    exact List.mem_map.mpr ⟨_, List.mem_filter.mpr ⟨slot, online⟩, player⟩
  · intro h
    obtain ⟨i, hi, hn, online, player⟩ := mem_members.mp h
    unfold getPlayerId
    cases hf : r.slots.find? fun i => r.isOnline i && r.players i == u with
    | none =>
      have := List.find?_eq_none.mp hf i (mem_slots.mpr ⟨hi, hn⟩)
      simp [online, player] at this
    | some j =>
      have := mem_slots.mp (List.mem_of_find?_eq_some hf)
      simp only [Option.getD_some]
      omega

/-- Where no user has two slots, the slot number of a member is the slot it is in. -/
theorem getPlayerId_of_nodup (nodup : r.members.Nodup) (slot : pos ∈ r.slots) (online : r.isOnline pos = true) :
    r.getPlayerId (r.players pos) = pos := by
  have mem : r.players pos ∈ r.members := List.mem_map_of_mem (List.mem_filter.mpr ⟨slot, online⟩)
  obtain ⟨slot', online', player⟩ := getPlayerId_spec (getPlayerId_ne_zero.mpr mem)
  exact List.inj_on_of_nodup_map nodup (List.mem_filter.mpr ⟨slot', online'⟩) (List.mem_filter.mpr ⟨slot, online⟩) player

/-! ### Updates -/

theorem members_congr {r' : Room} (cnt : r'.playerCnt = r.playerCnt) (online : r'.isOnline = r.isOnline)
    (players : r'.players = r.players) : r'.members = r.members := by
  simp only [members, slots, cnt, online, players]

theorem members_init (gameMode teamMode roomId : Int) : (r.init gameMode teamMode roomId).members = [] := rfl

theorem members_addSlot : (r.addSlot u).members = r.members ++ [u] := by
  have slots_add : (r.addSlot u).slots = r.slots ++ [r.playerCnt + 1] := by
    simp [slots, addSlot, List.range'_1_concat, Nat.add_comm]
  have ne : ∀ i ∈ r.slots, i ≠ r.playerCnt + 1 := fun i hi => by
    have := (mem_slots.mp hi).2
    omega
  have online : r.slots.filter (r.addSlot u).isOnline = r.slots.filter r.isOnline :=
    List.filter_congr fun i hi => by simp [addSlot, ne i hi]
  have players : (r.slots.filter r.isOnline).map (r.addSlot u).players = r.members :=
    List.map_congr_left fun i hi => by simp [addSlot, ne i (List.mem_filter.mp hi).1]
  rw [members, slots_add, List.filter_append, List.map_append, online, players]
  simp [addSlot]

/-- A flag that is cleared takes its slot out of the flagged ones. -/
theorem filter_update_false {l : List Nat} {f : Nat → Bool} (nodup : l.Nodup) (mem : pos ∈ l) (flag : f pos = true) :
    (pos :: l.filter (Function.update f pos false)).Perm (l.filter f) := by
  have erase : l.filter (Function.update f pos false) = (l.filter f).erase pos := by
    rw [List.Nodup.erase_eq_filter (nodup.filter _), List.filter_filter]
    refine List.filter_congr fun i _ => ?_
    by_cases hi : i = pos <;> simp [hi]
  rw [erase]
  exact (List.perm_cons_erase (List.mem_filter.mpr ⟨mem, flag⟩)).symm

theorem members_setOffline (slot : pos ∈ r.slots) (online : r.isOnline pos = true) :
    (r.players pos :: (r.setOffline pos).members).Perm r.members :=
  (filter_update_false slots_nodup slot online).map r.players

/-- While waiting, the slots behind a member that leaves move down. -/
theorem members_removeSlot (slot : pos ∈ r.slots) (online : ∀ i ∈ r.slots, r.isOnline i = true) :
    (r.players pos :: (r.removeSlot pos).members).Perm r.members := by
  obtain ⟨hpos, hcnt⟩ := mem_slots.mp slot
  have split : r.slots = List.range' 1 (pos - 1) ++ pos :: List.range' (pos + 1) (r.playerCnt - pos) := by
    rw [← List.range'_succ, slots]
    have := List.range'_append_1 (s := 1) (m := pos - 1) (n := r.playerCnt - pos + 1)
    rw [show 1 + (pos - 1) = pos by omega, show pos - 1 + (r.playerCnt - pos + 1) = r.playerCnt by omega] at this
    exact this.symm
  have split' : (r.removeSlot pos).slots = List.range' 1 (pos - 1) ++ List.range' pos (r.playerCnt - pos) := by
    have := List.range'_append_1 (s := 1) (m := pos - 1) (n := r.playerCnt - pos)
    rw [show 1 + (pos - 1) = pos by omega, show pos - 1 + (r.playerCnt - pos) = r.playerCnt - 1 by omega] at this
    exact this.symm
  have all : r.slots.filter r.isOnline = r.slots := List.filter_eq_self.mpr online
  have all' : (r.removeSlot pos).slots.filter (r.removeSlot pos).isOnline = (r.removeSlot pos).slots := by
    refine List.filter_eq_self.mpr fun i hi => ?_
    have hi := mem_slots.mp hi
    simp only [removeSlot] at hi ⊢
    rw [Function.update_of_ne (by omega)]
    exact online i (mem_slots.mpr ⟨hi.1, by omega⟩)
  have front : (List.range' 1 (pos - 1)).map (r.removeSlot pos).players = (List.range' 1 (pos - 1)).map r.players := by
    refine List.map_congr_left fun i hi => ?_
    rw [List.mem_range'_1] at hi
    simp only [removeSlot, shift]
    rw [if_neg (by omega)]
  have back : (List.range' pos (r.playerCnt - pos)).map (r.removeSlot pos).players =
      (List.range' (pos + 1) (r.playerCnt - pos)).map r.players := by
    rw [Nat.add_comm pos 1, ← List.map_add_range', List.map_map]
    refine List.map_congr_left fun i hi => ?_
    rw [List.mem_range'_1] at hi
    simp only [removeSlot, shift, Function.comp_apply]
    rw [if_pos (by omega), Nat.add_comm]
  rw [members, members, all, all', split, split', List.map_append, List.map_append, List.map_cons, front, back]
  exact List.perm_middle.symm

end Room

end IslandSurvival

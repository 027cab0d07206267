import IslandSurvival.Theorems.Rooms
import IslandSurvival.Theorems.Scenario

/-! Teams of a room in which everybody fights alone. The team of a slot is its number, and it stays with the slot when
    players move; but `ChangeTeamID` takes any team in any mode. As long as nobody gets a team that another player of the
    room has, by a change or as the number of a new slot, the teams of a room differ. -/

namespace IslandSurvival

open Prog

namespace Room

/-- No two online slots have the same team. -/
def TeamsDiffer (r : Room) : Prop := ∀ i ∈ r.onlineSlots, ∀ j ∈ r.onlineSlots, r.teamId i = r.teamId j → i = j

variable {r r' : Room} {pos : Nat} {u t : Int}

theorem mem_onlineSlots : pos ∈ r.onlineSlots ↔ 1 ≤ pos ∧ pos ≤ r.playerCnt ∧ r.isOnline pos = true := by
  rw [onlineSlots, List.mem_filter, mem_slots, and_assoc]

namespace TeamsDiffer

/-- Where slots only become free, nobody gets a new team. -/
theorem narrow (h : r.TeamsDiffer) (team : r'.teamId = r.teamId) (online : ∀ i ∈ r'.onlineSlots, i ∈ r.onlineSlots) :
    r'.TeamsDiffer := by
  intro i hi j hj same
  rw [team] at same
  exact h i (online i hi) j (online j hj) same

theorem congr (h : r.TeamsDiffer) (team : r'.teamId = r.teamId) (cnt : r'.playerCnt = r.playerCnt)
    (online : r'.isOnline = r.isOnline) : r'.TeamsDiffer := by
  refine h.narrow team fun i hi => ?_
  rwa [onlineSlots, slots, cnt, online] at hi

theorem setOffline (h : r.TeamsDiffer) : (r.setOffline pos).TeamsDiffer := by
  refine h.narrow rfl fun i hi => ?_
  obtain ⟨first, last, online⟩ := mem_onlineSlots.mp hi
  refine mem_onlineSlots.mpr ⟨first, last, ?_⟩
  simp only [Room.setOffline] at online
  by_cases here : i = pos
  · rw [here, Function.update_self] at online
    cases online
  · rwa [Function.update_of_ne here] at online

/-- Teams stay with the slots, and the last slot becomes free. -/
theorem removeSlot (h : r.TeamsDiffer) (mode : r.teamMode = 1) : (r.removeSlot pos).TeamsDiffer := by
  refine h.narrow (by simp [Room.removeSlot, mode]) fun i hi => ?_
  obtain ⟨first, last, online⟩ := mem_onlineSlots.mp hi
  simp only [Room.removeSlot] at last online
  rw [Function.update_of_ne (by omega)] at online
  exact mem_onlineSlots.mpr ⟨first, by omega, online⟩

theorem vacate (h : r.TeamsDiffer) (mode : r.teamMode = 1) : (r.vacate pos).TeamsDiffer := by
  unfold Room.vacate
  split
  · exact h.removeSlot mode
  · exact h.setOffline

/-- One slot gets a team, and it is alone with it. -/
theorem set (h : r.TeamsDiffer) (some : pos ≠ 0)
    (others : ∀ i ∈ r'.onlineSlots, i ≠ pos → i ∈ r.onlineSlots ∧ r'.teamId i = r.teamId i)
    (alone : r'.sharing pos = []) : r'.TeamsDiffer := by
  have alone : ∀ i ∈ r'.onlineSlots, r'.teamId i = r'.teamId pos → i = pos := by
    intro i online same
    rw [Room.sharing, if_neg some] at alone
    by_contra other
    exact List.filter_eq_nil_iff.mp alone i online (by simp [other, same])
  intro i hi j hj same
  by_cases here : i = pos
  · exact here.trans (alone j hj (here ▸ same.symm)).symm
  · by_cases here' : j = pos
    · exact absurd (alone i hi (here' ▸ same)) here
    · obtain ⟨old, team⟩ := others i hi here
      obtain ⟨old', team'⟩ := others j hj here'
      exact h i old j old' (team ▸ team' ▸ same)

/-- A user joins. -/
theorem addSlot (h : r.TeamsDiffer) (alone : (r.addSlot u).sharing (r.playerCnt + 1) = []) : (r.addSlot u).TeamsDiffer := by
  refine h.set (Nat.succ_ne_zero _) (fun i online other => ?_) alone
  obtain ⟨first, last, online⟩ := mem_onlineSlots.mp online
  simp only [Room.addSlot] at last online ⊢
  rw [Function.update_of_ne other] at online ⊢
  exact ⟨mem_onlineSlots.mpr ⟨first, by omega, online⟩, rfl⟩

/-- A player asks for a team or an option. -/
theorem applyChange {teamId gameOption : Option Int} (h : r.TeamsDiffer)
    (alone : (MP.applyChange u teamId gameOption r).sharing (r.getPlayerId u) = []) :
    (MP.applyChange u teamId gameOption r).TeamsDiffer := by
  by_cases pos : r.getPlayerId u = 0
  · have same : MP.applyChange u teamId gameOption r = r := by
      unfold MP.applyChange
      split <;> simp [Room.changeTeamId, Room.changeGameOption, pos]
    rwa [same]
  · obtain ⟨_, _, changed⟩ := MP.applyChange_eq u teamId gameOption r
    refine h.set pos (fun i online other => ⟨?_, ?_⟩) alone
    · rw [changed] at online
      exact online
    · unfold MP.applyChange
      split
      · simp [Room.changeTeamId, pos, other]
      · simp only [Room.changeGameOption, if_neg pos]
        split <;> rfl
      · rfl

end TeamsDiffer

end Room

/-! ### Over runs -/

variable {env : Env} {k k' : List Frame} {s s' : Server}

/-- In every room of team mode 1 the teams differ. -/
def TeamsApart (s : Server) : Prop := ∀ p < s.roomCnt, (s.room p).teamMode = 1 → (s.room p).TeamsDiffer

/-- An update of one room that keeps its mode -/
theorem TeamsApart.setRoom (h : TeamsApart s) {p : RoomPtr} {r : Room} (mode : r.teamMode = (s.room p).teamMode)
    (differ : p < s.roomCnt → r.teamMode = 1 → (s.room p).TeamsDiffer → r.TeamsDiffer) : TeamsApart (s.setRoom p r) := by
  intro q alloc alone
  by_cases here : q = p
  · subst here
    rw [Server.setRoom_room_self] at alone ⊢
    exact differ alloc alone (h q alloc (mode ▸ alone))
  · rw [Server.setRoom_room_ne here] at alone ⊢
    exact h q alloc alone

end IslandSurvival

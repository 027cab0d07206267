import IslandSurvival.Theorems.Batches
import IslandSurvival.Theorems.Causes
import IslandSurvival.Theorems.Pacing
import IslandSurvival.Theorems.Pipelined
import IslandSurvival.Theorems.Receiving

/-! How the main loop can end. Both of its calls come to an end, and where they stop, this is for one of a few causes; no
    loop runs on, and nothing is processed as what it is not. -/

namespace IslandSurvival

open Prog

/-! ### The ring of a game -/

/-- No slot has more messages than cells. -/
def Syn.Filled (syn : Syn) : Prop := ∀ i, (syn.oneframe i).num ≤ oneFrameBufferSize

namespace Syn.Filled

variable {syn : Syn}

/-- Another frame in one slot -/
theorem update {frame : OneFrame} (h : syn.Filled) (i : Nat) (fits : frame.num ≤ oneFrameBufferSize) :
    Syn.Filled { syn with oneframe := Function.update syn.oneframe i frame } := by
  intro j
  by_cases here : j = i
  · subst here
    simpa only [Function.update_self] using fits
  · simpa only [Function.update_of_ne here] using h j

theorem store (h : syn.Filled) (i : Nat) (mess : CMessage) : (syn.store i mess).Filled := by
  refine h.update i ?_
  unfold OneFrame.add
  split
  · exact h i
  · rename_i free
    rw [OneFrame.num, List.length_append]
    exact Nat.lt_of_not_ge free

theorem add {syn' : Syn} {now : Int} {mess : CMessage} {slot : Option (Nat × Nat)} (h : syn.Filled)
    (add : syn.add now mess = .ok (syn', slot)) : syn'.Filled := by
  unfold Syn.add at add
  obtain ⟨place, -, add⟩ := bind_eq_ok.mp add
  cases place with
  | none =>
    obtain ⟨rfl, -⟩ := Prod.mk.inj (Except.ok.inj add)
    exact h
  | some i =>
    obtain ⟨rfl, -⟩ := Prod.mk.inj (Except.ok.inj add)
    exact Filled.store h i mess

theorem stamp (h : syn.Filled) (i j : Nat) : (syn.stamp i j).Filled := by
  refine h.update i ?_
  rw [OneFrame.num, List.length_modify]
  exact h i

theorem clear (h : syn.Filled) (i : Nat) : (syn.clear i).Filled := h.update i (Nat.zero_le _)

end Syn.Filled

section
variable {p : RoomPtr} {w w' : List Frame} {r r' : Room} {tr tr' : List Event}

theorem cells_step (move : RoomStep p w r tr w' r' tr') (h : r.status = .ingame → r.syn.Filled) :
    r'.status = .ingame → r'.syn.Filled := by
  cases move with
  | init _ _ _ _ => exact fun playing => by cases playing
  | change u teamId gameOption status =>
    intro playing
    obtain ⟨_, _, hr⟩ := MP.applyChange_eq u teamId gameOption r
    rw [hr] at playing
    cases status.symm.trans playing
  | leave _ _ =>
    intro playing
    unfold Room.vacate at playing ⊢
    split at playing <;> split <;> exact h playing
  | load now => exact fun playing => by cases playing
  | quit add => exact fun playing => (h playing).add add
  | relay _ add => exact fun playing => (h playing).add add
  | start _ _ => exact fun _ _ => Nat.zero_le _
  | cast _ _ => exact fun playing => (h playing).stamp _ _
  | frameEnd _ _ => exact fun playing => (h playing).clear _
  | advance next =>
    intro playing
    rw [Syn.advance_eq next]
    exact h playing
  | _ => exact h

theorem RoomRun.cells (h : RoomRun p w r tr) : r.status = .ingame → r.syn.Filled := by
  induction h with
  | init _ _ _ _ => exact fun playing => by cases playing
  | step _ move ih => exact cells_step move ih

end

/-! ### The places that are not reached -/

section
variable {env : Env} {k : List Frame} {s t : Server} {p : RoomPtr} {e : Fault}

theorem Config.known (h : Config env k s) (known : Known p s) : p < s.roomCnt := by
  rcases known with alloc | noted
  · exact alloc
  · by_contra none
    exact noted ((h.roomRuns p).2 (Nat.le_of_not_lt none)).2

/-- What a game has in its ring -/
theorem Config.playing (h : Config env k s) (known : Known p s) (playing : (s.room p).status = .ingame) :
    (s.room p).syn.head = ((s.room p).syn.headFrame - 1) % 64 ∧ 1 ≤ (s.room p).syn.headFrame ∧ (s.room p).syn.Filled := by
  have run := h.roomRun (h.known known)
  obtain ⟨head, first⟩ := run.ring.head playing
  exact ⟨head, first, run.cells playing⟩

/-- Whatever the cause, it is neither fuel that ran out nor a message that is processed as what it is not. -/
theorem Crash.kind (crash : Crash env (.fault e) t) : e ≠ .fuel ∧ e ≠ .badCast := by
  cases crash with
  | ring _ _ slot =>
    have numeric := Syn.slotFor_numeric _ _ _ slot
    refine ⟨Syn.slotFor_ne_fuel _ _ _ slot, ?_⟩
    rintro rfl
    simp [Fault.Numeric] at numeric
  | _ => simp

/-! ### Ticks -/

variable {fd : Int} {c : SockPtr}

end

end IslandSurvival

import IslandSurvival.Theorems.Frames
import Mathlib.Algebra.BigOperators.Group.Finset.Basic

/-! A ring by itself. After `SYN::Init`, `SYN::Add` and `SYN::Run` are called in any order and at any time, and every
    broadcast of `SendHeadFrameToAll` may call `Add` again. -/

namespace IslandSurvival

/-! ### The machine -/

/-- Where the ring is between its moves: outside of `Run`, in its loop, or in `SendHeadFrameToAll` before the test for
    an empty slot, before message `i`, or after the slot is emptied -/
inductive SynPhase
  | idle
  | running
  | frame (i : Option Nat)
  | framed
deriving DecidableEq

/-- A message that a slot took, with the two frame numbers of the ring at that time -/
structure Addition where
  now : Int
  head : Int
  mess : CMessage
  slot : Nat
deriving DecidableEq

/-- What a ring did; a message is sent with the number of a frame. -/
inductive SynEvent
  | store (addition : Addition)
  | send (mess : CMessage) (frame : Int)
  | empty (frame : Int)
deriving DecidableEq

/-- What is noted of a call of `Add` -/
def SynEvent.added (syn : Syn) (mess : CMessage) : Option (Nat × Nat) → List SynEvent
  | none => []
  | some (i, num) =>
    if num < oneFrameBufferSize then [.store { now := syn.nowFrame, head := syn.headFrame, mess, slot := i }] else []

/-- The runs of a ring, up to a reading of the clock; a reading stands in the relation `clock` to the one before. -/
inductive SynRun (clock : Int → Int → Prop) : SynPhase → Syn → Int → List SynEvent → Prop
  | init {t t'} (syn : Syn) (later : clock t t') : SynRun clock .idle (syn.init t t') t' []
  | add {w syn t log now mess syn' slot} (run : SynRun clock w syn t log) (waits : w ≠ .frame none ∧ w ≠ .framed)
      (later : clock t now) (add : syn.add now mess = .ok (syn', slot)) :
      SynRun clock w syn' now (SynEvent.added syn' mess slot ++ log)
  /-- `GetNowFrame` -/
  | nowFrame {w syn t log now} (run : SynRun clock w syn t log) (later : clock t now) :
      SynRun clock w (syn.updateTime now) now log
  | runBegin {syn t log now} (run : SynRun clock .idle syn t log) (later : clock t now) :
      SynRun clock .running (syn.updateTime now) now log
  | frameBegin {syn t log} (run : SynRun clock .running syn t log) (due : syn.due = .ok true) :
      SynRun clock (.frame none) syn t log
  | castEmpty {syn t log h} (run : SynRun clock (.frame none) syn t log) (head : Syn.slot syn.head = .ok h)
      (empty : (syn.oneframe h).num = 0) : SynRun clock (.frame (some 0)) syn t (.empty syn.headFrame :: log)
  | castNone {syn t log h} (run : SynRun clock (.frame none) syn t log) (head : Syn.slot syn.head = .ok h)
      (filled : (syn.oneframe h).num ≠ 0) : SynRun clock (.frame (some 0)) syn t log
  | cast {syn t log h i m} (run : SynRun clock (.frame (some i)) syn t log) (head : Syn.slot syn.head = .ok h)
      (mess : (syn.oneframe h).mess[i]? = some m) :
      SynRun clock (.frame (some (i + 1))) (syn.stamp h i) t (.send m syn.headFrame :: log)
  | frameEnd {syn t log h i} (run : SynRun clock (.frame (some i)) syn t log) (head : Syn.slot syn.head = .ok h)
      (none : (syn.oneframe h).mess[i]? = none) : SynRun clock .framed (syn.clear h) t log
  | advance {syn t log syn'} (run : SynRun clock .framed syn t log) (next : syn.advance = .ok syn') :
      SynRun clock .running syn' t log
  | runEnd {syn t log} (run : SynRun clock .running syn t log) : SynRun clock .idle syn t log

/-! ### Turns -/

/-- The frame in which slot `i` has its turn, when `headFrame` is the next one to be sent -/
def slotTurn (headFrame : Int) (i : Nat) : Int := headFrame + (i - (headFrame - 1)) % 64

/-- The frame that an addition will be sent in -/
def Addition.turn (a : Addition) : Int := slotTurn a.head a.slot

theorem slotTurn_slotOf (f : Int) : slotTurn f (slotOf f) = f := by
  unfold slotTurn slotOf
  omega

theorem slotTurn_next {f : Int} {i : Nat} (lt : i < 64) (other : i ≠ slotOf f) : slotTurn (f + 1) i = slotTurn f i := by
  unfold slotTurn slotOf at *
  omega

theorem le_slotTurn (f : Int) (i : Nat) : f ≤ slotTurn f i := by
  unfold slotTurn
  omega

/-- The messages that were stored, with the frames of their turns -/
def storedTurns : List SynEvent → Multiset (CMessage × Int)
  | [] => 0
  | .store a :: older => (a.mess, a.turn) ::ₘ storedTurns older
  | _ :: older => storedTurns older

/-- The stored messages that were sent, with the frames in which they were -/
def sentTurns : List SynEvent → Multiset (CMessage × Int)
  | [] => 0
  | .send mess f :: older => (mess, f) ::ₘ sentTurns older
  | _ :: older => sentTurns older

/-- What is still to be sent of slot `i` -/
def unsent (w : SynPhase) (syn : Syn) (i : Nat) : List CMessage :=
  match w with
  | .frame (some n) => if i = slotOf syn.headFrame then (syn.oneframe i).mess.drop n else (syn.oneframe i).mess
  | _ => (syn.oneframe i).mess

/-- The messages that are held, with the frames of their turns -/
def heldTurns (w : SynPhase) (syn : Syn) : Multiset (CMessage × Int) :=
  ∑ i ∈ Finset.range synBufferSize, ((unsent w syn i : Multiset CMessage).map fun m => (m, slotTurn syn.headFrame i))

/-! ### Conservation -/

/-- Two sums over slots that differ in one of them -/
theorem sum_change {α : Type} {f g : Nat → Multiset α} {n i : Nat} (lt : i < n) (other : ∀ j < n, j ≠ i → g j = f j) :
    f i + ∑ j ∈ Finset.range n, g j = g i + ∑ j ∈ Finset.range n, f j := by
  have mem : i ∈ Finset.range n := Finset.mem_range.mpr lt
  have same : ∑ j ∈ (Finset.range n).erase i, g j = ∑ j ∈ (Finset.range n).erase i, f j := by
    refine Finset.sum_congr rfl fun j hj => ?_
    obtain ⟨ne, hj⟩ := Finset.mem_erase.mp hj
    exact other j (Finset.mem_range.mp hj) ne
  rw [← Finset.add_sum_erase _ f mem, ← Finset.add_sum_erase _ g mem, same]
  exact add_left_comm _ _ _

/-- What is sent of a slot moves from the messages that are held to those that were sent. -/
structure Balanced (w : SynPhase) (syn : Syn) (log : List SynEvent) : Prop where
  head : syn.head = (syn.headFrame - 1) % 64
  first : 1 ≤ syn.headFrame
  within : ∀ {i : Nat}, w = .frame (some i) → i ≤ (syn.oneframe (slotOf syn.headFrame)).mess.length
  cleared : w = .framed → (syn.oneframe (slotOf syn.headFrame)).mess = []
  balance : storedTurns log = sentTurns log + heldTurns w syn
  passed : ∀ x ∈ sentTurns log, x.2 ≤ syn.headFrame ∧ (w = .idle ∨ w = .running → x.2 < syn.headFrame)

namespace Balanced

variable {w : SynPhase} {syn syn' : Syn} {log : List SynEvent} {mess : CMessage} {h i : Nat}

/-- The slot at `m_head` is that of the head frame. -/
theorem headSlot (b : Balanced w syn log) (head : Syn.slot syn.head = .ok h) : h = slotOf syn.headFrame := by
  have := b.head
  have := (Syn.slot_eq_ok.mp head).1
  unfold slotOf
  omega

/-- The counters and slots stay as they are, and as much is still to be sent. -/
theorem congr {w' : SynPhase} (b : Balanced w syn log) (head : syn'.head = syn.head) (headFrame : syn'.headFrame = syn.headFrame)
    (oneframe : syn'.oneframe = syn.oneframe) (same : unsent w' syn' = unsent w syn)
    (within : ∀ {i : Nat}, w' = .frame (some i) → i ≤ (syn.oneframe (slotOf syn.headFrame)).mess.length)
    (cleared : w' = .framed → (syn.oneframe (slotOf syn.headFrame)).mess = [])
    (calm : w' = .idle ∨ w' = .running → w = .idle ∨ w = .running) : Balanced w' syn' log where
  head := by rw [head, headFrame]; exact b.head
  first := headFrame ▸ b.first
  within := by rw [oneframe, headFrame]; exact within
  cleared := by rw [oneframe, headFrame]; exact cleared
  balance := by
    rw [b.balance]
    simp only [heldTurns, same, headFrame]
  passed x hx := by
    obtain ⟨le, lt⟩ := b.passed x hx
    rw [headFrame]
    exact ⟨le, fun now => lt (calm now)⟩

/-- A slot takes a message. -/
theorem store {now : Int} (b : Balanced w syn log) (waits : w ≠ .framed) (lt : i < 64) :
    Balanced w { syn with nowFrame := now, oneframe := Function.update syn.oneframe i { mess := (syn.oneframe i).mess ++ [mess] } }
      (.store { now, head := syn.headFrame, mess, slot := i } :: log) where
  head := b.head
  first := b.first
  within {n} frame := by
    have le := b.within frame
    by_cases same : slotOf syn.headFrame = i
    · subst same
      simp only [Function.update_self, List.length_append]
      exact Nat.le_add_right_of_le le
    · simpa [Function.update_of_ne same] using le
  cleared framed := absurd framed waits
  balance := by
    simp only [storedTurns, sentTurns, Addition.turn, b.balance]
    generalize storedAt : Syn.mk _ _ _ _ _ = syn'
    have unsent_i : unsent w syn' i = unsent w syn i ++ [mess] := by
      subst storedAt
      cases w with
      | frame n =>
        cases n with
        | none => simp [unsent]
        | some n =>
          have le := b.within rfl
          by_cases same : i = slotOf syn.headFrame
          · subst same
            simp [unsent, List.drop_append_of_le_length le]
          · simp [unsent, same]
      | _ => simp [unsent]
    have other : ∀ j, j ≠ i → unsent w syn' j = unsent w syn j := by
      intro j ne
      subst storedAt
      cases w with
      | frame n => cases n <;> simp [unsent, Function.update_of_ne ne]
      | _ => simp [unsent, Function.update_of_ne ne]
    have headFrame : syn'.headFrame = syn.headFrame := by subst storedAt; rfl
    have change := @sum_change _
      (fun j => (unsent w syn j : Multiset CMessage).map fun m => (m, slotTurn syn.headFrame j))
      (fun j => (unsent w syn' j : Multiset CMessage).map fun m => (m, slotTurn syn.headFrame j)) 64 i lt
      fun j _ ne => by simp only [other j ne]
    simp only [heldTurns, synBufferSize, headFrame]
    simp only [unsent_i, ← Multiset.coe_add, Multiset.map_add, Multiset.coe_singleton, Multiset.map_singleton, add_assoc] at change
    have change := add_left_cancel change
    rw [change, Multiset.singleton_add, Multiset.add_cons]
  passed := b.passed

/-- The next message of the head slot is sent. -/
theorem cast (b : Balanced (.frame (some i)) syn log) (head : Syn.slot syn.head = .ok h)
    (here : (syn.oneframe h).mess[i]? = some mess) :
    Balanced (.frame (some (i + 1))) (syn.stamp h i) (.send mess syn.headFrame :: log) where
  head := b.head
  first := b.first
  within {n} frame := by
    obtain rfl : i + 1 = n := by simpa using frame
    have lt := (List.getElem?_eq_some_iff.mp here).1
    rw [b.headSlot head] at lt ⊢
    simp only [Syn.stamp, Function.update_self, List.length_modify]
    exact lt
  cleared framed := by cases framed
  balance := by
    obtain rfl := b.headSlot head
    have headFrame : (syn.stamp (slotOf syn.headFrame) i).headFrame = syn.headFrame := rfl
    have before : unsent (.frame (some i)) syn (slotOf syn.headFrame) =
        mess :: unsent (.frame (some (i + 1))) (syn.stamp (slotOf syn.headFrame) i) (slotOf syn.headFrame) := by
      obtain ⟨lt, rfl⟩ := List.getElem?_eq_some_iff.mp here
      simp only [unsent, if_pos, Syn.stamp, Function.update_self]
      rw [List.drop_eq_getElem_cons lt, List.drop_modify_of_lt _ _ _ _ (Nat.lt_succ_self i)]
    have other : ∀ j, j ≠ slotOf syn.headFrame →
        unsent (.frame (some (i + 1))) (syn.stamp (slotOf syn.headFrame) i) j = unsent (.frame (some i)) syn j := by
      intro j ne
      simp only [unsent, if_neg ne, Syn.stamp, Function.update_of_ne ne]
    have lt : slotOf syn.headFrame < 64 := by
      unfold slotOf
      omega
    have change := @sum_change _
      (fun j => (unsent (.frame (some i)) syn j : Multiset CMessage).map fun m => (m, slotTurn syn.headFrame j))
      (fun j => (unsent (.frame (some (i + 1))) (syn.stamp (slotOf syn.headFrame) i) j : Multiset CMessage).map
        fun m => (m, slotTurn syn.headFrame j)) 64 _ lt fun j _ ne => by simp only [other j ne]
    simp only [before, ← Multiset.cons_coe, Multiset.map_cons, slotTurn_slotOf, Multiset.cons_add, ← Multiset.add_cons] at change
    have change := add_left_cancel change
    simp only [storedTurns, sentTurns, b.balance, heldTurns, synBufferSize, headFrame]
    rw [Multiset.cons_add, ← Multiset.add_cons]
    exact congrArg (sentTurns log + ·) change.symm
  passed x hx := by
    rcases Multiset.mem_cons.mp hx with rfl | hx
    · exact ⟨Int.le_refl _, by simp⟩
    · exact ⟨(b.passed x hx).1, by simp⟩

/-- The head slot is emptied when all of it was sent. -/
theorem clear (b : Balanced (.frame (some i)) syn log) (head : Syn.slot syn.head = .ok h)
    (none : (syn.oneframe h).mess[i]? = none) : Balanced .framed (syn.clear h) log := by
  obtain rfl := b.headSlot head
  have le := List.getElem?_eq_none_iff.mp none
  refine ⟨b.head, b.first, by simp, fun _ => by simp [Syn.clear, OneFrame.init], ?_, fun x hx => ⟨(b.passed x hx).1, by simp⟩⟩
  have same : unsent .framed (syn.clear (slotOf syn.headFrame)) = unsent (.frame (some i)) syn := by
    funext j
    by_cases here : j = slotOf syn.headFrame
    · subst here
      simp [unsent, Syn.clear, OneFrame.init, le]
    · simp [unsent, Syn.clear, here]
  rw [b.balance]
  simp only [heldTurns, same]
  rfl

/-- The turns of the other slots stay the same when the emptied slot gets its next one. -/
theorem advance (b : Balanced .framed syn log) (next : syn.advance = .ok syn') : Balanced .running syn' log := by
  have first := b.first
  rw [Syn.advance_eq next]
  refine ⟨?_, by simp only; omega, by simp, by simp, ?_, fun x hx => ?_⟩
  · have := b.head
    simp only
    rw [Int.tmod_eq_emod_of_nonneg (by omega)]
    omega
  · rw [b.balance]
    refine congrArg (sentTurns log + ·) (Finset.sum_congr rfl fun j hj => ?_)
    by_cases here : j = slotOf syn.headFrame
    · have empty := b.cleared rfl
      simp [unsent, here, empty]
    · simp only [unsent]
      rw [slotTurn_next (Finset.mem_range.mp hj) here]
  · have le := (b.passed x hx).1
    simp only
    omega

end Balanced

/-- Where `Add` puts a message: on time behind the head by as many slots as frames, late at the head -/
theorem Syn.add_some {syn syn' : Syn} {mess : CMessage} {now : Int} {i num : Nat}
    (h : syn.add now mess = .ok (syn', some (i, num))) : i < 64 ∧ num = (syn.oneframe i).num ∧
      mess.head.framenum.toInt ≤ syn'.nowFrame + 3 ∧
      (syn'.nowFrame ≤ mess.head.framenum.toInt + 3 ∧
          (i : Int) = (syn.head + (mess.head.framenum.toInt - syn.headFrame)).tmod 64 ∨
        mess.head.framenum.toInt + 3 < syn'.nowFrame ∧ (i : Int) = syn.head) := by
  have shape := Syn.add_eq h
  unfold add at h
  obtain ⟨target, slotFor, h⟩ := bind_eq_ok.mp h
  cases target with
  | none => simp [pure, Except.pure] at h
  | some j =>
    obtain ⟨-, rfl, rfl⟩ : _ ∧ j = i ∧ ((syn.updateTime now).oneframe j).num = num := by
      simpa [pure, Except.pure] using h
    have nowFrame : syn'.nowFrame = (syn.updateTime now).nowFrame := by rw [shape]
    rw [nowFrame]
    unfold Syn.slotFor at slotFor
    obtain ⟨ahead, hahead, slotFor⟩ := bind_eq_ok.mp slotFor
    obtain ⟨rfl, -⟩ := add32_eq_ok.mp hahead
    split at slotFor
    · cases slotFor
    · rename_i near
      obtain ⟨delayed, hdelayed, slotFor⟩ := bind_eq_ok.mp slotFor
      obtain ⟨rfl, -⟩ := add32_eq_ok.mp hdelayed
      split at slotFor
      · rename_i onTime
        obtain ⟨diff, hdiff, slotFor⟩ := bind_eq_ok.mp slotFor
        obtain ⟨place, hplace, slotFor⟩ := bind_eq_ok.mp slotFor
        obtain ⟨index, hindex, slotFor⟩ := bind_eq_ok.mp slotFor
        obtain rfl : index = j := by simpa [pure, Except.pure] using slotFor
        obtain ⟨rfl, -⟩ := sub32_eq_ok.mp hdiff
        obtain ⟨rfl, -⟩ := add32_eq_ok.mp hplace
        obtain ⟨eq, lt⟩ := slot_eq_ok.mp hindex
        have eq : (index : Int) = (syn.head + (mess.head.framenum.toInt - syn.headFrame)).tmod 64 := eq
        refine ⟨by omega, rfl, by omega, .inl ⟨onTime, eq⟩⟩
      · rename_i late
        obtain ⟨oldest, holdest, slotFor⟩ := bind_eq_ok.mp slotFor
        split at slotFor
        · obtain ⟨index, hindex, slotFor⟩ := bind_eq_ok.mp slotFor
          obtain rfl : index = j := by simpa [pure, Except.pure] using slotFor
          obtain ⟨eq, lt⟩ := slot_eq_ok.mp hindex
          have eq : (index : Int) = syn.head := eq
          have late : ¬mess.head.framenum.toInt + 3 ≥ (syn.updateTime now).nowFrame := late
          exact ⟨by omega, rfl, by omega, .inr ⟨by omega, eq⟩⟩
        · cases slotFor

/-! ### Over runs -/

theorem unsent_updateTime (w : SynPhase) (syn : Syn) (now : Int) : unsent w (syn.updateTime now) = unsent w syn := by
  funext i
  cases w with
  | frame n => cases n <;> rfl
  | _ => rfl

theorem SynRun.balanced {clock : Int → Int → Prop} {w : SynPhase} {syn : Syn} {t : Int} {log : List SynEvent}
    (run : SynRun clock w syn t log) : Balanced w syn log := by
  induction run with
  | init syn later =>
    refine ⟨rfl, Int.le_refl 1, by simp, by simp, ?_, by simp [sentTurns]⟩
    simp [storedTurns, sentTurns, heldTurns, unsent, Syn.init, Syn.updateTime, OneFrame.init]
  | @add w syn t log now mess syn' slot run waits later add ih =>
    have shape := Syn.add_eq add
    have same : unsent w (syn.updateTime now) = unsent w syn := unsent_updateTime w syn now
    have ticked : Balanced w (syn.updateTime now) log := ih.congr rfl rfl rfl same ih.within ih.cleared id
    cases slot with
    | none =>
      rw [shape]
      exact ticked
    | some target =>
      obtain ⟨i, num⟩ := target
      obtain ⟨lt, rfl, -⟩ := Syn.add_some add
      simp only [SynEvent.added]
      rw [shape]
      simp only [Syn.put]
      split
      · exact ticked.store waits.2 lt
      · exact ticked
  | @nowFrame w syn t log now run later ih =>
    exact ih.congr rfl rfl rfl (unsent_updateTime w syn now) ih.within ih.cleared id
  | runBegin run later ih => exact ih.congr rfl rfl rfl rfl (by simp) (by simp) (by simp)
  | frameBegin run due ih => exact ih.congr rfl rfl rfl rfl (by simp) (by simp) (by simp)
  | @castEmpty syn t log h run head empty ih =>
    have same : unsent (.frame (some 0)) syn = unsent (.frame none) syn := by
      funext i
      simp [unsent]
    have opened := ih.congr rfl rfl rfl same (by simp) (by simp) (by simp)
    exact ⟨opened.head, opened.first, opened.within, opened.cleared, opened.balance, opened.passed⟩
  | @castNone syn t log h run head filled ih =>
    have same : unsent (.frame (some 0)) syn = unsent (.frame none) syn := by
      funext i
      simp [unsent]
    exact ih.congr rfl rfl rfl same (by simp) (by simp) (by simp)
  | cast run head mess ih => exact ih.cast head mess
  | frameEnd run head none ih => exact ih.clear head none
  | advance run next ih => exact ih.advance next
  | runEnd run ih => exact ih.congr rfl rfl rfl rfl (by simp) (by simp) (by simp)

/-- The messages that `OneFrame::Add` stored -/
def storedMessages (log : List SynEvent) : Multiset CMessage := (storedTurns log).map Prod.fst

/-- The stored messages that were handed to `SendMessageToEveryone` -/
def sentMessages (log : List SynEvent) : Multiset CMessage := (sentTurns log).map Prod.fst

/-- The messages in the slots -/
def heldMessages (syn : Syn) : Multiset CMessage :=
  ∑ i ∈ Finset.range synBufferSize, ((syn.oneframe i).mess : Multiset CMessage)

section
variable {clock : Int → Int → Prop} {w : SynPhase} {syn : Syn} {t : Int} {log : List SynEvent}

theorem unsent_of_calm (calm : ∀ i, w ≠ .frame i) (i : Nat) : unsent w syn i = (syn.oneframe i).mess := by
  cases w with
  | frame n => exact absurd rfl (calm n)
  | _ => rfl

/-- Outside of `SendHeadFrameToAll`, what was stored is what was sent and what is held. -/
theorem messages_conserved (run : SynRun clock w syn t log) (calm : ∀ i, w ≠ .frame i) :
    storedMessages log = sentMessages log + heldMessages syn := by
  have held : (heldTurns w syn).map Prod.fst = heldMessages syn := by
    simp only [heldTurns, heldMessages, unsent_of_calm calm]
    rw [← Multiset.mapAddMonoidHom_apply, map_sum]
    refine Finset.sum_congr rfl fun i _ => ?_
    rw [Multiset.mapAddMonoidHom_apply, Multiset.map_map, Function.comp_def, Multiset.map_id']
  unfold storedMessages sentMessages
  rw [run.balanced.balance, Multiset.map_add, held]

end

/-- A move of a player for frame `framenum` -/
def Script.move (framenum : Int32) (playerId : Int) : CMessage := .build Msg.scMove framenum (.scMove 1 playerId)

/-- The second move comes while the first one is sent, and goes out in the same frame. -/
theorem messages_conserved_within_frame : ∃ syn t log, SynRun (fun _ _ => True) .framed syn t log ∧
    sentTurns log = {(Script.move 1 2, 1), (Script.move 1 1, 1)} ∧ storedMessages log = sentMessages log + heldMessages syn := by
  have start : SynRun (fun _ _ => True) .idle _ 0 _ := @SynRun.init _ 0 0 Script.room.syn trivial
  have stored : SynRun (fun _ _ => True) .idle _ 0 _ := @SynRun.add _ _ _ _ _ _ (Script.move 1 1) _ _ start (by simp) trivial rfl
  have sending : SynRun (fun _ _ => True) (.frame (some 0)) _ 80000 _ :=
    .castNone (.frameBegin (.runBegin stored trivial) rfl) rfl (by decide)
  have first : SynRun (fun _ _ => True) (.frame (some 1)) _ 80000 _ := .cast sending rfl rfl
  have again : SynRun (fun _ _ => True) (.frame (some 1)) _ 80000 _ :=
    @SynRun.add _ _ _ _ _ _ (Script.move 1 2) _ _ first (by simp) trivial rfl
  have second : SynRun (fun _ _ => True) (.frame (some 2)) _ 80000 _ := .cast again rfl rfl
  have whole : SynRun (fun _ _ => True) .framed _ 80000 _ := .frameEnd second rfl rfl
  exact ⟨_, _, _, whole, rfl, messages_conserved whole (by simp)⟩

/-! ### The ring of a room -/

/-- The messages that a ring handed to `SendMessageToEveryone`, oldest first -/
def transmitted : List SynEvent → List CMessage
  | [] => []
  | .store _ :: older => transmitted older
  | .send mess f :: older => transmitted older ++ [mess.setFramenum f]
  | .empty f :: older => transmitted older ++ [frameMess f]

theorem transmitted_added (syn : Syn) (mess : CMessage) (slot : Option (Nat × Nat)) (log : List SynEvent) :
    transmitted (SynEvent.added syn mess slot ++ log) = transmitted log := by
  cases slot with
  | none => rfl
  | some target =>
    simp only [SynEvent.added]
    split <;> rfl

/-- Where the ring of a room is -/
def RingWork.phase : List RingWork → SynPhase
  | .frame _ i :: _ => .frame i
  | .framed :: _ => .framed
  | .running :: _ => .running
  | _ => .idle

/-- The ring of a room that is in game has run from its `Init` on, and has sent what the room sent. -/
def Rings (w : List Frame) (r : Room) (tr : List Event) : Prop :=
  r.status = .ingame → ∃ t log, SynRun (fun _ _ => True) (RingWork.phase (w.filterMap Frame.ring?)) r.syn t log ∧
    transmitted log = sent tr

section
variable {p : RoomPtr} {w w' : List Frame} {r r' : Room} {tr tr' : List Event}

theorem Rings.add {now : Int} {mess : CMessage} {syn : Syn} {slot : Option (Nat × Nat)} (h : Rings w r tr)
    (add : r.syn.add now mess = .ok (syn, slot)) (waits : ∀ f ∈ w', ∃ role, Waits role f)
    (same : w.filterMap Frame.ring? = w'.filterMap Frame.ring?) : Rings w' { r with syn } (.synAdd p mess slot :: tr) := by
  intro playing
  obtain ⟨t, log, ringRun, all⟩ := h playing
  rw [same] at ringRun
  refine ⟨now, _, .add ringRun ?_ trivial add, (transmitted_added _ _ _ _).trans all⟩
  have none := waits_ring waits
  cases works : w'.filterMap Frame.ring? with
  | nil => simp [RingWork.phase]
  | cons x rest =>
    cases x with
    | frame f i =>
      cases i with
      | none => exact absurd (works ▸ List.mem_cons_self) (none f)
      | some i => simp [RingWork.phase]
    | framed =>
      have mem : RingWork.framed ∈ w'.filterMap Frame.ring? := works ▸ List.mem_cons_self
      obtain ⟨frame, hframe, work⟩ := List.mem_filterMap.mp mem
      obtain ⟨role, waits⟩ := waits frame hframe
      cases waits <;> simp [Frame.ring?] at work
    | _ => simp [RingWork.phase]

/-- When a game starts, the ring is not run. -/
theorem RingRoom.idle {work : List RingWork} (h : RingRoom (.starting :: work) r (held tr)) : RingWork.phase work = .idle := by
  have calm := (h.starting List.mem_cons_self).2
  cases work with
  | nil => rfl
  | cons x rest =>
    cases x with
    | running => exact absurd (List.mem_cons_of_mem _ List.mem_cons_self) calm
    | frame f i => exact absurd (h.frame (List.mem_cons_of_mem _ List.mem_cons_self)).1 (by simpa using calm)
    | framed => exact absurd (h.framed (List.mem_cons_of_mem _ List.mem_cons_self)) (by simpa using calm)
    | _ => rfl

theorem rings_step (run : RoomRun p w r tr) (move : RoomStep p w r tr w' r' tr') (h : Rings w r tr) : Rings w' r' tr' := by
  have ring := run.ring
  cases move with
  | init _ _ _ _ => exact fun status => by cases status
  | change u teamId gameOption status =>
    intro playing
    obtain ⟨_, _, hr⟩ := MP.applyChange_eq u teamId gameOption r
    rw [hr] at playing
    cases status.symm.trans playing
  | leave _ _ =>
    unfold Room.departing Room.vacate
    cases status : r.status with
    | waiting => exact fun playing => absurd (status.symm.trans playing) (by simp)
    | loading => exact fun playing => absurd (status.symm.trans playing) (by simp)
    | ingame => exact h
  | join _ status _ => exact fun playing => absurd (status.symm.trans playing) (by simp)
  | quit add => exact h.add add run.waits rfl
  | exitStart _ _ status => exact fun playing => absurd (status.symm.trans playing) (by simp)
  | everyone cast => cases cast <;> exact h
  | loadBegin status => exact fun playing => absurd (status.symm.trans playing) (by simp)
  | load now => exact fun playing => by cases playing
  | loadReport status _ _ _ _ => exact fun playing => absurd (status.symm.trans playing) (by simp)
  | reportStart status _ _ _ _ => exact fun playing => absurd (status.symm.trans playing) (by simp)
  | timeoutStart status => exact fun playing => absurd (status.symm.trans playing) (by simp)
  | start now now' =>
    refine fun _ => ⟨now', [], ?_, rfl⟩
    rw [RingRoom.idle ring]
    exact .init r.syn trivial
  | updateTime now =>
    intro playing
    obtain ⟨t, log, ringRun, all⟩ := h playing
    exact ⟨now, log, .nowFrame ringRun trivial, all⟩
  | relay _ add => exact h.add add (by simp) rfl
  | runBegin now _ =>
    intro playing
    obtain ⟨t, log, ringRun, all⟩ := h playing
    exact ⟨now, log, .runBegin ringRun trivial, all⟩
  | frameBegin due =>
    intro playing
    obtain ⟨t, log, ringRun, all⟩ := h playing
    exact ⟨t, log, .frameBegin ringRun due, all⟩
  | castEmpty head empty =>
    intro playing
    obtain ⟨t, log, ringRun, all⟩ := h playing
    exact ⟨t, _, .castEmpty ringRun head empty, congrArg (· ++ [frameMess _]) all⟩
  | castNone head filled =>
    intro playing
    obtain ⟨t, log, ringRun, all⟩ := h playing
    exact ⟨t, log, .castNone ringRun head filled, all⟩
  | @cast _ _ _ _ f slot i m head mess =>
    intro playing
    obtain ⟨t, log, ringRun, all⟩ := h playing
    exact ⟨t, _, .cast ringRun head mess, congrArg (· ++ [m.setFramenum r.syn.headFrame]) all⟩
  | frameEnd head none =>
    intro playing
    obtain ⟨t, log, ringRun, all⟩ := h playing
    exact ⟨t, log, .frameEnd ringRun head none, all⟩
  | advance next =>
    intro playing
    obtain ⟨t, log, ringRun, all⟩ := h playing
    exact ⟨t, log, .advance ringRun next, all⟩
  | runEnd =>
    intro playing
    obtain ⟨t, log, ringRun, all⟩ := h playing
    exact ⟨t, log, .runEnd ringRun, all⟩
  | _ => exact h

theorem RoomRun.rings (run : RoomRun p w r tr) : Rings w r tr := by
  induction run with
  | init _ _ _ _ => exact fun playing => by cases playing
  | step run move ih => exact rings_step run move ih

end

end IslandSurvival

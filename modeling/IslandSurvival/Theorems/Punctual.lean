import IslandSurvival.Theorems.SynRuns

/-! Frames and the clock. A message is for the frame that its sender saw; which slot it gets depends on the clock at
    the time of `Add` and on how far `Run` has come. -/

namespace IslandSurvival

/-! ### The frame of the clock -/

namespace Syn

/-- The frame that the clock shows, without a bound -/
def frameAt (syn : Syn) (t : Int) : Int := (t - syn.initTime) / 20000 + 1

theorem frameAt_mono {syn : Syn} {t t' : Int} (later : t ≤ t') : syn.frameAt t ≤ syn.frameAt t' := by
  unfold frameAt
  omega

/-- As long as the number of the frame fits, `UpdateTime` has it. -/
theorem updateTime_nowFrame {syn : Syn} {now : Int} (begun : syn.initTime ≤ now) (fits : syn.frameAt now ≤ int32Max) :
    (syn.updateTime now).nowFrame = syn.frameAt now := by
  unfold frameAt int32Max at fits
  unfold updateTime frameAt toInt32
  simp only
  rw [Int.tdiv_eq_ediv_of_nonneg (by omega), Int.bmod_eq_of_le (by omega) (by omega)]

theorem updateTime_frameAt (syn : Syn) (now t : Int) : (syn.updateTime now).frameAt t = syn.frameAt t := rfl

theorem due_eq {syn : Syn} {ready : Bool} (h : syn.due = .ok ready) : ready = decide (syn.headFrame + 4 ≤ syn.nowFrame) := by
  unfold due at h
  obtain ⟨delayed, hdelayed, h⟩ := bind_eq_ok.mp h
  obtain ⟨bound, hbound, h⟩ := bind_eq_ok.mp h
  obtain ⟨rfl, -⟩ := add32_eq_ok.mp hdelayed
  obtain ⟨rfl, -⟩ := add32_eq_ok.mp hbound
  obtain rfl := (Except.ok.inj h).symm
  unfold synAllowedDelay
  exact decide_eq_decide.mpr (by omega)

end Syn

/-- The head frame stays three frames behind the clock, up to the first frame. -/
structure Paced (w : SynPhase) (syn : Syn) (t : Int) : Prop where
  begun : syn.initTime ≤ t
  shown : syn.frameAt t ≤ int32Max → syn.nowFrame ≤ syn.frameAt t
  behind : syn.frameAt t ≤ int32Max → syn.headFrame = 1 ∨ syn.headFrame + 3 ≤ syn.frameAt t
  sending : syn.frameAt t ≤ int32Max → w ≠ .idle → w ≠ .running → syn.headFrame + 4 ≤ syn.frameAt t

namespace Paced

variable {w : SynPhase} {syn syn' : Syn} {t now : Int}

/-- `UpdateTime`, with any change of the slots -/
theorem tick (h : Paced w syn t) (later : t ≤ now) (frames : Nat → OneFrame) :
    Paced w { syn.updateTime now with oneframe := frames } now := by
  have begun : syn.initTime ≤ now := Int.le_trans h.begun later
  have mono := @Syn.frameAt_mono syn _ _ later
  refine ⟨begun, fun fits => ?_, fun fits => ?_, fun fits idle running => ?_⟩
  · exact Int.le_of_eq (Syn.updateTime_nowFrame begun fits)
  · exact (h.behind (Int.le_trans mono fits)).imp_right fun le => Int.le_trans le mono
  · exact Int.le_trans (h.sending (Int.le_trans mono fits) idle running) mono

theorem advance (h : Paced .framed syn t) (next : syn.advance = .ok syn') : Paced .running syn' t := by
  rw [Syn.advance_eq next]
  refine ⟨h.begun, h.shown, fun fits => .inr ?_, by simp⟩
  have := h.sending fits (by simp) (by simp)
  show syn.headFrame + 1 + 3 ≤ syn.frameAt t
  omega

end Paced

section
variable {w : SynPhase} {syn : Syn} {t now : Int} {log : List SynEvent}

/-- On a clock that does not go back, `Run` stays behind. -/
theorem SynRun.paced (run : SynRun (· ≤ ·) w syn t log) : Paced w syn t := by
  induction run with
  | @init t t' syn later =>
    refine ⟨later, fun fits => ?_, fun _ => .inl rfl, by simp⟩
    exact Int.le_of_eq (@Syn.updateTime_nowFrame { syn with oneframe := _, initTime := t, head := 0, headFrame := 1 } _ later fits)
  | add run waits later add ih =>
    rw [Syn.add_eq add]
    exact ih.tick later _
  | @nowFrame w syn t log now run later ih => exact ih.tick later syn.oneframe
  | @runBegin syn t log now run later ih =>
    have ticked := ih.tick later syn.oneframe
    exact ⟨ticked.begun, ticked.shown, ticked.behind, by simp⟩
  | frameBegin run due ih =>
    refine ⟨ih.begun, ih.shown, ih.behind, fun fits _ _ => ?_⟩
    have due := of_decide_eq_true (Syn.due_eq due).symm
    exact Int.le_trans due (ih.shown fits)
  | castEmpty run head empty ih => exact ⟨ih.begun, ih.shown, ih.behind, fun fits _ _ => ih.sending fits (by simp) (by simp)⟩
  | castNone run head filled ih => exact ⟨ih.begun, ih.shown, ih.behind, fun fits _ _ => ih.sending fits (by simp) (by simp)⟩
  | cast run head mess ih => exact ⟨ih.begun, ih.shown, ih.behind, fun fits _ _ => ih.sending fits (by simp) (by simp)⟩
  | frameEnd run head none ih => exact ⟨ih.begun, ih.shown, ih.behind, fun fits _ _ => ih.sending fits (by simp) (by simp)⟩
  | advance run next ih => exact ih.advance next
  | runEnd run ih => exact ⟨ih.begun, ih.shown, ih.behind, by simp⟩

/-- What `Add` does while the clock is far from its bound -/
theorem Syn.slotFor_eq {messframe : Int} (begun : 1 ≤ syn.nowFrame) (young : syn.nowFrame + 16 ≤ int32Max)
    (fits : int32Min ≤ messframe) (head : syn.head = (syn.headFrame - 1) % 64) (first : 1 ≤ syn.headFrame)
    (behind : syn.headFrame = 1 ∨ syn.headFrame + 3 ≤ syn.nowFrame) :
    syn.slotFor messframe =
      if messframe > syn.nowFrame + 3 then .ok none
      else if messframe + 3 ≥ syn.nowFrame then (Syn.slot ((syn.head + (messframe - syn.headFrame)).tmod 64)).map some
      else if messframe + 20 ≥ syn.nowFrame then (Syn.slot syn.head).map some
      else .ok none := by
  have checks : ∀ {x : Int}, int32Min ≤ x → x ≤ int32Max → checked x = .ok x := fun le ge => checked_eq_ok.mpr ⟨rfl, le, ge⟩
  unfold int32Min int32Max at *
  unfold Syn.slotFor add32 sub32 synAllowedDelay synAllowedExist
  rw [checks (by omega) (by omega)]
  simp only [bind, Except.bind, pure, Except.pure]
  split
  · rfl
  · rename_i near
    rw [checks (by omega) (by omega)]
    simp only
    split
    · rename_i onTime
      rw [checks (by omega) (by omega)]
      simp only
      rw [checks (by omega) (by omega)]
      simp only [synBufferSize]
      cases Syn.slot ((syn.head + (messframe - syn.headFrame)).tmod 64) <;> rfl
    · rename_i late
      rw [checks (by omega) (by omega)]
      simp only
      split
      · cases Syn.slot syn.head <;> rfl
      · rfl

/-- As long as the clock shows a frame that is 16 below the bound of its type, and no sum overflows: `Add` picks a slot of the array, or none,
    if and only if the message is for the first frame or a later one, or is late. -/
theorem slot_in_ring_iff (run : SynRun (· ≤ ·) w syn t log) (later : t ≤ now) (young : syn.frameAt now + 16 ≤ int32Max)
    (messframe : Int32) :
    (∃ slot, (syn.updateTime now).slotFor messframe.toInt = .ok slot ∧ ∀ i, slot = some i → i < synBufferSize) ↔
      1 ≤ messframe.toInt ∨ messframe.toInt + 3 < (syn.updateTime now).nowFrame := by
  have balanced := run.balanced
  have ticked : Paced w (syn.updateTime now) now := run.paced.tick later syn.oneframe
  have nowFrame := Syn.updateTime_nowFrame (Int.le_trans run.paced.begun later) (by omega)
  have begun : 1 ≤ (syn.updateTime now).nowFrame := by
    rw [nowFrame]
    have := run.paced.begun
    unfold Syn.frameAt
    omega
  have behind : syn.headFrame = 1 ∨ syn.headFrame + 3 ≤ (syn.updateTime now).nowFrame := by
    rw [nowFrame]
    exact ticked.behind (by rw [Syn.updateTime_frameAt]; omega)
  have head : syn.head = (syn.headFrame - 1) % 64 := balanced.head
  have first : 1 ≤ syn.headFrame := balanced.first
  have fits := Int32.le_toInt messframe
  rw [Syn.slotFor_eq begun (by omega) fits head first behind]
  have inRing : ∀ {i : Int},
      (∃ slot, (Syn.slot i).map some = .ok slot ∧ ∀ j, slot = some j → j < synBufferSize) ↔ 0 ≤ i ∧ i < 64 := by
    intro i
    unfold Syn.slot synBufferSize
    split
    · rename_i inside
      refine iff_of_true ⟨some i.toNat, rfl, fun j same => ?_⟩ inside
      obtain rfl := Option.some.inj same
      omega
    · rename_i outside
      exact iff_of_false (by simp [Except.map]) outside
  show _ ↔ 1 ≤ messframe.toInt ∨ messframe.toInt + 3 < (syn.updateTime now).nowFrame
  generalize (syn.updateTime now).nowFrame = shown at *
  generalize messframe.toInt = frame at *
  show (∃ slot, (if frame > shown + 3 then _ else if frame + 3 ≥ shown then
    (Syn.slot ((syn.head + (frame - syn.headFrame)).tmod 64)).map some else if frame + 20 ≥ shown then
      (Syn.slot syn.head).map some else _) = .ok slot ∧ _) ↔ _
  split
  · exact iff_of_true ⟨none, rfl, by simp⟩ (by omega)
  · split
    · rename_i near onTime
      rw [inRing]
      by_cases ahead : syn.headFrame ≤ frame
      · rw [Int.tmod_eq_emod_of_nonneg (by omega)]
        omega
      · -- only before the first frame is the head not behind the clock by as much as a message may be late
        have start : syn.headFrame = 1 := by omega
        rw [head, start]
        obtain rfl | rfl | rfl : frame = 0 ∨ frame = -1 ∨ frame = -2 := by omega
        all_goals
          refine iff_of_false (by decide) ?_
          omega
    · split
      · rw [inRing]
        omega
      · exact iff_of_true ⟨none, rfl, by simp⟩ (by omega)

end

/-- A message for frame 0 that comes right after `Init` is put in front of the array. -/
theorem slot_before_ring : ∃ syn, SynRun (· ≤ ·) .idle syn 0 [] ∧
    ¬∃ slot, (syn.updateTime 0).slotFor (0 : Int32).toInt = .ok slot ∧ ∀ i, slot = some i → i < synBufferSize := by
  refine ⟨Script.room.syn.init 0 0, .init _ (Int.le_refl 0), ?_⟩
  rintro ⟨slot, place, -⟩
  rw [show ((Script.room.syn.init 0 0).updateTime 0).slotFor (0 : Int32).toInt = .error .outOfBounds from rfl] at place
  cases place

/-- In the first second of a game, a message for frame 48 gets slot 47. -/
theorem slot_in_ring_iff_second : ∃ syn slot, SynRun (· ≤ ·) .idle syn 0 [] ∧
    (syn.updateTime 940000).slotFor (48 : Int32).toInt = .ok (some slot) ∧ slot = 47 ∧ slot < synBufferSize := by
  have run : SynRun (· ≤ ·) .idle (Script.room.syn.init 0 0) 0 [] := .init _ (Int.le_refl 0)
  have inRing := slot_in_ring_iff run (show (0 : Int) ≤ 940000 by decide) (by decide) 48
  obtain ⟨slot, place, lt⟩ := inRing.mpr (.inl (by decide))
  obtain rfl : slot = some 47 := Except.ok.inj (place.symm.trans rfl)
  exact ⟨_, 47, run, place, rfl, lt 47 rfl⟩

/-! ### The frames that messages are sent in -/

namespace Addition

variable (a : Addition)

def framenum : Int := a.mess.head.framenum.toInt

/-- `Add` took the message for one that comes in time. -/
def OnTime : Prop := a.now ≤ a.framenum + 3

instance : Decidable a.OnTime := inferInstanceAs (Decidable (_ ≤ _))

/-- The message is sent in no earlier frame than its own, and in its own if it came in time. -/
def Punctual : Prop := a.framenum ≤ a.turn ∧ (a.OnTime → a.turn = a.framenum)

/-- The head frame is at most 63 frames behind a message that comes in time, and not before it; a late message is for
    no later frame. -/
def InReach : Prop := if a.OnTime then a.head ≤ a.framenum ∧ a.framenum < a.head + 64 else a.framenum ≤ a.head

/-- The slot was picked by `Add`. -/
structure Placed : Prop where
  inside : a.slot < 64
  place : a.OnTime ∧ (a.slot : Int) = ((a.head - 1) % 64 + (a.framenum - a.head)).tmod 64 ∨
    ¬a.OnTime ∧ (a.slot : Int) = (a.head - 1) % 64

theorem punctual_iff {a : Addition} (h : a.Placed) : a.Punctual ↔ a.InReach := by
  have inside := h.inside
  unfold Punctual InReach turn slotTurn
  rcases h.place with ⟨onTime, place⟩ | ⟨late, place⟩
  · simp only [onTime, if_true, true_implies]
    constructor
    · rintro ⟨-, same⟩
      omega
    · rintro ⟨le, lt⟩
      rw [Int.tmod_eq_emod_of_nonneg (by omega)] at place
      omega
  · simp only [late, if_false, false_implies, and_true]
    omega

end Addition

section
variable {clock : Int → Int → Prop} {w : SynPhase} {syn : Syn} {t : Int} {log : List SynEvent}

theorem SynRun.placed (run : SynRun clock w syn t log) : ∀ a, .store a ∈ log → a.Placed := by
  induction run with
  | init _ _ => simp
  | @add w syn t log now mess syn' slot run _ _ add ih =>
    intro a mem
    rcases List.mem_append.mp mem with new | old
    · cases slot with
      | none => simp [SynEvent.added] at new
      | some target =>
        obtain ⟨i, num⟩ := target
        obtain ⟨lt, -, -, place⟩ := Syn.add_some add
        simp only [SynEvent.added] at new
        split at new
        · obtain rfl : a = { now := syn'.nowFrame, head := syn'.headFrame, mess, slot := i } := by simpa using new
          have shape := Syn.add_eq add
          have headFrame : syn'.headFrame = syn.headFrame := by rw [shape]; rfl
          have head := run.balanced.head
          refine ⟨lt, ?_⟩
          unfold Addition.OnTime Addition.framenum
          simp only [headFrame, ← head]
          exact place.imp_right fun late => ⟨Int.not_le.mpr late.1, late.2⟩
        · simp at new
    · exact ih a old
  | nowFrame _ _ ih => exact ih
  | runBegin _ _ ih => exact ih
  | frameBegin _ _ ih => exact ih
  | castEmpty _ _ _ ih => simpa using ih
  | castNone _ _ _ ih => exact ih
  | cast _ _ _ ih => simpa using ih
  | frameEnd _ _ _ ih => exact ih
  | advance _ _ ih => exact ih
  | runEnd _ ih => exact ih

/-- Every stored message is sent in the frame of its turn, once the head frame has passed it. -/
theorem SynRun.sent_in_turn (run : SynRun clock w syn t log) (calm : w = .idle ∨ w = .running) :
    sentTurns log = (storedTurns log).filter (·.2 < syn.headFrame) := by
  have balanced := run.balanced
  have sent : (sentTurns log).filter (·.2 < syn.headFrame) = sentTurns log :=
    Multiset.filter_eq_self.mpr fun x mem => (balanced.passed x mem).2 calm
  have later : ∀ x ∈ heldTurns w syn, ¬x.2 < syn.headFrame := by
    simp only [heldTurns, Multiset.mem_sum, Multiset.mem_map]
    rintro x ⟨i, -, m, -, rfl⟩
    exact Int.not_lt.mpr (le_slotTurn syn.headFrame i)
  have held : (heldTurns w syn).filter (·.2 < syn.headFrame) = 0 := Multiset.filter_eq_nil.mpr later
  rw [balanced.balance, Multiset.filter_add, sent, held, add_zero]

theorem mem_storedTurns {a : Addition} (mem : .store a ∈ log) : (a.mess, a.turn) ∈ storedTurns log := by
  induction log with
  | nil => cases mem
  | cons e older ih =>
    rcases List.mem_cons.mp mem with rfl | old
    · exact Multiset.mem_cons_self _ _
    · cases e with
      | store _ => exact Multiset.mem_cons_of_mem (ih old)
      | _ => exact ih old

/-- In any run of a ring, each stored message is sent in one frame, when the head frame comes to it, and the loop of `Run`
    does not end before it has come to the frames that are four behind the clock. The frames are those that are asked for,
    if and only if each message was in reach when it was stored. -/
theorem sent_punctually_iff (run : SynRun clock w syn t log) (calm : w = .idle ∨ w = .running) :
    sentTurns log = (storedTurns log).filter (·.2 < syn.headFrame) ∧
      (syn.due = .ok false → ∀ a, .store a ∈ log → a.turn + 4 ≤ syn.nowFrame → (a.mess, a.turn) ∈ sentTurns log) ∧
      ((∀ a, .store a ∈ log → a.Punctual) ↔ ∀ a, .store a ∈ log → a.InReach) := by
  have sent := run.sent_in_turn calm
  refine ⟨sent, fun done a mem passed => ?_, ?_⟩
  · have done := of_decide_eq_false (Syn.due_eq done).symm
    rw [sent]
    exact Multiset.mem_filter.mpr ⟨mem_storedTurns mem, show a.turn < syn.headFrame by omega⟩
  · exact forall_congr' fun a => forall_congr' fun mem => Addition.punctual_iff (run.placed a mem)

end

/-- When `Run` was not called for 20 frames, a late message for frame 10 is sent in frame 1. -/
theorem late_message_sent_early : ∃ syn log, SynRun (· ≤ ·) .running syn 380000 log ∧
    (Script.move 10 1, 1) ∈ sentTurns log ∧ (10 : Int32).toInt = 10 := by
  have start : SynRun (· ≤ ·) .idle _ 0 _ := @SynRun.init _ 0 0 Script.room.syn (by decide)
  have stored : SynRun (· ≤ ·) .idle _ 380000 _ :=
    @SynRun.add _ _ _ _ _ _ (Script.move 10 1) _ _ start (by simp) (by decide) rfl
  have sending : SynRun (· ≤ ·) (.frame (some 0)) _ 380000 _ :=
    .castNone (.frameBegin (.runBegin stored (Int.le_refl _)) rfl) rfl (by decide)
  have sent : SynRun (· ≤ ·) (.frame (some 1)) _ 380000 _ := .cast sending rfl rfl
  have next : SynRun (· ≤ ·) .running _ 380000 _ := .advance (.frameEnd sent rfl rfl) rfl
  exact ⟨_, _, next, Multiset.mem_cons_self _ _, by decide⟩

/-- A message for frame 1 that comes in time is sent in frame 1. -/
theorem sent_punctually_iff_first : ∃ syn log, SynRun (· ≤ ·) .running syn 80000 log ∧
    sentTurns log = {(Script.move 1 1, 1)} ∧ ∀ a, .store a ∈ log → a.Punctual := by
  have start : SynRun (· ≤ ·) .idle _ 0 _ := @SynRun.init _ 0 0 Script.room.syn (by decide)
  have stored : SynRun (· ≤ ·) .idle _ 0 _ := @SynRun.add _ _ _ _ _ _ (Script.move 1 1) _ _ start (by simp) (by decide) rfl
  have sending : SynRun (· ≤ ·) (.frame (some 0)) _ 80000 _ :=
    .castNone (.frameBegin (.runBegin stored (by decide)) rfl) rfl (by decide)
  have sent : SynRun (· ≤ ·) (.frame (some 1)) _ 80000 _ := .cast sending rfl rfl
  have next : SynRun (· ≤ ·) .running _ 80000 _ := .advance (.frameEnd sent rfl rfl) rfl
  have punctual := sent_punctually_iff next (.inr rfl)
  refine ⟨_, _, next, rfl, punctual.2.2.mpr fun a mem => ?_⟩
  obtain rfl : a = { now := 1, head := 1, mess := Script.move 1 1, slot := 0 } := by
    rcases List.mem_cons.mp mem with other | mem
    · cases other
    · exact SynEvent.store.inj (List.mem_singleton.mp mem)
  unfold Addition.InReach
  decide

end IslandSurvival

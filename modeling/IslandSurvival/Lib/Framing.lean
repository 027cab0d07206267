import Mathlib.Data.List.Basic
import Mathlib.Tactic.Common

/-! Streams that are cut into frames. A cutter looks at what is unread and says where the first frame of it
    ends, once the frame is there as a whole. However a stream is split on its way, the same frames are cut
    from it. -/

/-- A rule for the end of the first frame of what is unread. -/
structure Cutter (β : Type) where
  next : List β → Option Nat
  /-- A frame has items, and all of them are there. -/
  fits : ∀ {u : List β} {n : Nat}, next u = some n → 0 < n ∧ n ≤ u.length
  /-- What comes later does not move the end of a frame. -/
  stable : ∀ {u : List β} {n : Nat} (v : List β), next u = some n → next (u ++ v) = some n

namespace Cutter

variable {β : Type} (cut : Cutter β)

/-- The frames of a stream -/
def frames (u : List β) : List (List β) :=
  match _h : cut.next u with
  | none => []
  | some n => u.take n :: frames (u.drop n)
termination_by u.length
decreasing_by
  have := cut.fits _h
  simp only [List.length_drop]
  omega

/-- What is left when all frames of a stream are cut -/
def rest (u : List β) : List β :=
  match _h : cut.next u with
  | none => u
  | some n => rest (u.drop n)
termination_by u.length
decreasing_by
  have := cut.fits _h
  simp only [List.length_drop]
  omega

section Rules
variable {cut} {u v f : List β} {n : Nat}

theorem frames_of_none (h : cut.next u = none) : cut.frames u = [] := by
  rw [frames]
  split
  · rfl
  · rename_i some
    rw [h] at some
    cases some

theorem rest_of_none (h : cut.next u = none) : cut.rest u = u := by
  rw [rest]
  split
  · rfl
  · rename_i some
    rw [h] at some
    cases some

theorem frames_of_some (h : cut.next u = some n) : cut.frames u = u.take n :: cut.frames (u.drop n) := by
  rw [frames]
  split
  · rename_i none
    rw [h] at none
    cases none
  · rename_i m some
    obtain rfl : n = m := Option.some.inj (h.symm.trans some)
    rfl

theorem rest_of_some (h : cut.next u = some n) : cut.rest u = cut.rest (u.drop n) := by
  rw [rest]
  split
  · rename_i none
    rw [h] at none
    cases none
  · rename_i m some
    obtain rfl : n = m := Option.some.inj (h.symm.trans some)
    rfl

/-- To show something of every stream, show it of those without a frame, and of one with a frame if it holds
    behind the frame. -/
theorem cut_induction (cut : Cutter β) {motive : List β → Prop} (none : ∀ u, cut.next u = none → motive u)
    (some : ∀ u n, cut.next u = some n → motive (u.drop n) → motive u) (u : List β) : motive u := by
  induction u using frames.induct cut with
  | case1 u h => exact none u h
  | case2 u n h ih => exact some u n h ih

/-- Nothing of a stream is lost. -/
theorem flatten_frames (u : List β) : (cut.frames u).flatten ++ cut.rest u = u := by
  induction u using cut.cut_induction with
  | none u h => simp [frames_of_none h, rest_of_none h]
  | some u n h ih => rw [frames_of_some h, rest_of_some h, List.flatten_cons, List.append_assoc, ih, List.take_append_drop]

/-- A stream may be cut on its way. -/
theorem frames_append (u v : List β) : cut.frames (u ++ v) = cut.frames u ++ cut.frames (cut.rest u ++ v) := by
  induction u using cut.cut_induction with
  | none u h => simp [frames_of_none h, rest_of_none h]
  | some u n h ih =>
    have fits := (cut.fits h).2
    rw [frames_of_some (cut.stable v h), frames_of_some h, rest_of_some h, List.take_append_of_le_length fits,
      List.drop_append_of_le_length fits, ih, List.cons_append]

theorem rest_append (u v : List β) : cut.rest (u ++ v) = cut.rest (cut.rest u ++ v) := by
  induction u using cut.cut_induction with
  | none u h => rw [rest_of_none h]
  | some u n h ih =>
    have fits := (cut.fits h).2
    rw [rest_of_some (cut.stable v h), rest_of_some h, List.drop_append_of_le_length fits, ih]

/-- `f` is a frame. -/
def Whole (cut : Cutter β) (f : List β) : Prop := cut.next f = some f.length

theorem frames_whole (whole : cut.Whole f) (v : List β) : cut.frames (f ++ v) = f :: cut.frames v := by
  rw [frames_of_some (cut.stable v whole), List.take_left, List.drop_left]

theorem rest_whole (whole : cut.Whole f) (v : List β) : cut.rest (f ++ v) = cut.rest v := by
  rw [rest_of_some (cut.stable v whole), List.drop_left]

/-- A frame that is cut from a stream is whole, if its end does not depend on what follows. -/
theorem next_of_prefix (whole : cut.Whole f) (pre : u <+: f) (proper : u ≠ f) : cut.next u = none := by
  cases h : cut.next u with
  | none => rfl
  | some n =>
    obtain ⟨v, rfl⟩ := pre
    have same := (cut.stable v h).symm.trans whole
    have fits := (cut.fits h).2
    simp only [Option.some.injEq, List.length_append] at same
    have empty : v = [] := List.length_eq_zero_iff.mp (by omega)
    exact absurd (by rw [empty, List.append_nil]) proper

/-- The part of a sequence of frames that has arrived is cut into the first of them, and what is left is a part
    of the next one. -/
theorem frames_of_prefix : ∀ {fs : List (List β)}, (∀ f ∈ fs, cut.Whole f) → ∀ {u : List β}, u <+: fs.flatten →
    ∃ k, cut.frames u = fs.take k ∧
      (cut.rest u = [] ∧ fs.length ≤ k ∨ ∃ f, fs[k]? = some f ∧ cut.rest u <+: f ∧ cut.rest u ≠ f)
  | [], _, u, pre => by
    obtain rfl : u = [] := List.prefix_nil.mp pre
    have none : cut.next ([] : List β) = none := by
      cases h : cut.next ([] : List β) with
      | none => rfl
      | some n =>
        have fits := cut.fits h
        simp only [List.length_nil] at fits
        omega
    exact ⟨0, by rw [frames_of_none none]; rfl, .inl ⟨rest_of_none none, Nat.le_refl _⟩⟩
  | f :: fs, whole, u, pre => by
    have here := whole f List.mem_cons_self
    rw [List.flatten_cons] at pre
    have split : (u <+: f ∧ u ≠ f) ∨ ∃ v, u = f ++ v := by
      rcases List.prefix_or_prefix_of_prefix pre (List.prefix_append f fs.flatten) with short | ⟨v, rfl⟩
      · by_cases all : u = f
        · exact .inr ⟨[], by rw [all, List.append_nil]⟩
        · exact .inl ⟨short, all⟩
      · exact .inr ⟨v, rfl⟩
    rcases split with ⟨short, all⟩ | ⟨v, rfl⟩
    · have none := next_of_prefix here short all
      refine ⟨0, by rw [frames_of_none none]; rfl, .inr ⟨f, rfl, ?_⟩⟩
      rw [rest_of_none none]
      exact ⟨short, all⟩
    · have pre : v <+: fs.flatten := (List.prefix_append_right_inj f).mp pre
      obtain ⟨k, frames, left⟩ := frames_of_prefix (fun g hg => whole g (List.mem_cons_of_mem _ hg)) pre
      refine ⟨k + 1, ?_, ?_⟩
      · rw [frames_whole here, frames]
        rfl
      · rw [rest_whole here]
        simpa using left

/-- A stream of whole frames is cut into these. -/
theorem frames_flatten : ∀ {fs : List (List β)}, (∀ f ∈ fs, cut.Whole f) → cut.frames fs.flatten = fs
  | [], _ => by
    have whole : ∀ f ∈ ([] : List (List β)), cut.Whole f := fun f hf => absurd hf List.not_mem_nil
    rcases frames_of_prefix whole List.nil_prefix with ⟨k, frames, -⟩
    rw [List.flatten_nil, frames, List.take_nil]
  | f :: fs, whole => by
    rw [List.flatten_cons, frames_whole (whole f (List.mem_cons_self ..)),
      frames_flatten fun g hg => whole g (List.mem_cons_of_mem _ hg)]

end Rules

end Cutter

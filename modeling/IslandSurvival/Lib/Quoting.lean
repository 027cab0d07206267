import Mathlib.Data.List.Basic

/-! Texts with quoted literals in them. A composed text puts a quote before and behind each literal; a scanner takes
    the text apart again, and finds the literals that were put in where each character of them stands for itself. -/

namespace Quoting

variable {α : Type}

/-- How literals are written. A quote begins and ends a literal, and two quotes in it stand for one. Behind a character
    that escapes, `unescape` says what the next one stands for, or that the two stand for themselves. -/
structure Dialect (α : Type) where
  quote : α
  escapes : α → Bool
  unescape : α → Option α

/-- Where a scanner is: in the text, in a literal, behind a quote in one, or behind an escape -/
inductive Mode (α : Type)
  | text
  | literal
  | quoted
  | escaped (e : α)

/-- A word in front of the first piece -/
def push (w : List α) : List (List α) → List (List α)
  | [] => []
  | x :: pieces => (w ++ x) :: pieces

section
variable (d : Dialect α)

/-- A text composed of pieces, without a look into them -/
def compose (pieces : List (List α)) : List α := [d.quote].intercalate pieces

/-- The pieces begin and end with a text, no text has a quote, and one between literals is not empty. -/
def Texts : List (List α) → Prop
  | [t] => d.quote ∉ t
  | t :: _ :: t' :: pieces => d.quote ∉ t ∧ (pieces ≠ [] → t' ≠ []) ∧ Texts (t' :: pieces)
  | _ => False

variable [DecidableEq α]

/-- The pieces of a text, what is outside the literals and what is in them in turns, if the last literal ends. -/
def scan : Mode α → List α → Option (List (List α))
  | .text, [] => some [[]]
  | .text, a :: s => if a = d.quote then (scan .literal s).map ([] :: ·) else (scan .text s).map (push [a])
  | .literal, [] => none
  | .literal, a :: s =>
    if a = d.quote then scan .quoted s
    else if d.escapes a then scan (.escaped a) s
    else (scan .literal s).map (push [a])
  | .quoted, [] => some [[], []]
  | .quoted, a :: s =>
    if a = d.quote then (scan .literal s).map (push [a]) else (scan .text s).map fun pieces => [] :: push [a] pieces
  | .escaped _, [] => none
  | .escaped e, a :: s => (scan .literal s).map (push ((d.unescape a).elim [e, a] ([·])))

/-- Each character stands for itself, also behind an escape. -/
def verbatim : Bool → List α → Bool
  | escaped, [] => !escaped
  | false, a :: x => a ≠ d.quote && verbatim (d.escapes a) x
  | true, a :: x => (d.unescape a).isNone && verbatim false x

/-- The literals among the pieces, of which the first one is a literal or not, stand for themselves. -/
def Literals : Bool → List (List α) → Prop
  | _, [] => True
  | true, x :: pieces => verbatim d false x ∧ Literals false pieces
  | false, _ :: pieces => Literals true pieces

end

section
variable {d : Dialect α} {s x w : List α} {pieces : List (List α)}

@[simp] theorem push_nil : push ([] : List α) = id := by
  funext pieces
  cases pieces <;> rfl

@[simp] theorem push_comp_push (w w' : List α) : push w ∘ push w' = push (w ++ w') := by
  funext pieces
  cases pieces with
  | nil => rfl
  | cons x pieces => simp [push]

theorem push_ne_nil (some : pieces ≠ []) : push w pieces ≠ [] := by
  cases pieces with
  | nil => exact absurd rfl some
  | cons p rest => exact List.cons_ne_nil _ _

theorem compose_cons (p : List α) (some : pieces ≠ []) : compose d (p :: pieces) = p ++ d.quote :: compose d pieces := by
  simp [compose, List.intercalate_cons_of_ne_nil some]

theorem compose_push (w : List α) (some : pieces ≠ []) : compose d (push w pieces) = w ++ compose d pieces := by
  cases pieces with
  | nil => exact absurd rfl some
  | cons p rest =>
    by_cases last : rest = []
    · subst last
      simp [push, compose]
    · rw [push, compose_cons _ last, compose_cons _ last, List.append_assoc]

theorem Texts.head? {t : List α} (h : Texts d (t :: pieces)) (inner : pieces ≠ [] → t ≠ []) :
    (compose d (t :: pieces)).head? ≠ some d.quote := by
  cases t with
  | nil =>
    by_cases last : pieces = []
    · simp [last, compose]
    · exact absurd rfl (inner last)
  | cons a t =>
    have other : d.quote ∉ a :: t := by
      cases pieces with
      | nil => exact h
      | cons x rest =>
        cases rest with
        | nil => exact h.elim
        | cons t' rest => exact h.1
    have first : (compose d ((a :: t) :: pieces)).head? = some a := by
      by_cases last : pieces = []
      · simp [last, compose]
      · rw [compose_cons _ last]
        rfl
    rw [first, ne_eq, Option.some.injEq]
    exact fun same => other (same ▸ List.mem_cons_self)

end

variable [DecidableEq α] {d : Dialect α} {s x : List α} {pieces : List (List α)}

/-! ### What is put in is found -/

theorem scan_text (none : d.quote ∉ x) : scan d .text (x ++ s) = (scan d .text s).map (push x) := by
  induction x with
  | nil => simp
  | cons a x ih =>
    rw [List.mem_cons, not_or] at none
    rw [List.cons_append, scan, if_neg (Ne.symm none.1), ih none.2, Option.map_map, push_comp_push]
    rfl

/-- Characters that stand for themselves are read as they are, also behind an escape. -/
theorem scan_verbatim : (verbatim d false x → scan d .literal (x ++ s) = (scan d .literal s).map (push x)) ∧
    (∀ e, verbatim d true x → scan d (.escaped e) (x ++ s) = (scan d .literal s).map (push (e :: x))) := by
  induction x with
  | nil => simp [verbatim]
  | cons a x ih =>
    obtain ⟨plain, behind⟩ := ih
    refine ⟨fun same => ?_, fun e same => ?_⟩
    · simp only [verbatim, Bool.and_eq_true, decide_eq_true_eq] at same
      obtain ⟨other, same⟩ := same
      rw [List.cons_append, scan, if_neg other]
      by_cases escape : d.escapes a = true
      · rw [escape] at same
        rw [if_pos escape, behind a same]
      · rw [Bool.not_eq_true] at escape
        rw [escape] at same
        rw [escape, if_neg Bool.false_ne_true, plain same, Option.map_map, push_comp_push]
        rfl
    · simp only [verbatim, Bool.and_eq_true, Option.isNone_iff_eq_none] at same
      obtain ⟨both, same⟩ := same
      rw [List.cons_append, scan, both, Option.elim_none, plain same, Option.map_map, push_comp_push]
      rfl

/-- A literal ends where no second quote follows. -/
theorem scan_quoted (single : s.head? ≠ some d.quote) : scan d .quoted s = (scan d .text s).map ([] :: ·) := by
  cases s with
  | nil => rfl
  | cons a s =>
    rw [List.head?_cons, ne_eq, Option.some.injEq] at single
    rw [scan, if_neg single, scan, if_neg single, Option.map_map]
    rfl

theorem scan_compose : ∀ {pieces : List (List α)}, Texts d pieces → Literals d false pieces →
    scan d .text (compose d pieces) = some pieces
  | [], texts, _ => texts.elim
  | [t], texts, _ => by
    have read := scan_text (s := []) texts
    simpa [compose, scan, push] using read
  | [_, _], texts, _ => texts.elim
  | t :: x :: t' :: pieces, texts, literals => by
    obtain ⟨none, inner, texts⟩ := texts
    obtain ⟨same, literals⟩ := literals
    have rest := scan_compose texts literals
    have single := texts.head? inner
    rw [compose_cons _ (by simp), compose_cons _ (by simp), scan_text none, scan, if_pos rfl, scan_verbatim.1 same, scan,
      if_pos rfl, scan_quoted single, rest]
    simp [push]

/-! ### What is found was put in -/

/-- The characters in front of the place of the scanner that are not yet in a piece -/
def Mode.behind : Mode α → Nat
  | .text | .literal => 0
  | .quoted | .escaped _ => 1

/-- The mode can be reached. -/
def Mode.Proper (d : Dialect α) : Mode α → Prop
  | .escaped e => e ≠ d.quote ∧ d.escapes e
  | _ => True

def Mode.isLiteral : Mode α → Bool
  | .text => false
  | _ => true

/-- The pieces compose to no more than was scanned, and to as much only if the literals stand for themselves. -/
structure Found (d : Dialect α) (length : Nat) (isLiteral : Bool) (pieces : List (List α)) : Prop where
  some : pieces ≠ []
  le : (compose d pieces).length ≤ length
  same : (compose d pieces).length = length → Literals d isLiteral pieces

namespace Found

variable {a e : α} {n : Nat}

/-- One more character of a text -/
theorem text (h : Found d n false pieces) : Found d (n + 1) false (push [a] pieces) where
  some := push_ne_nil h.some
  le := by
    rw [compose_push _ h.some]
    simpa using h.le
  same length := by
    rw [compose_push _ h.some] at length
    have literals := h.same (by simpa using length)
    cases pieces with
    | nil => trivial
    | cons t rest => exact literals

/-- One more character of a literal -/
theorem literal (h : Found d n true pieces) (other : a ≠ d.quote) (plain : d.escapes a = false) :
    Found d (n + 1) true (push [a] pieces) where
  some := push_ne_nil h.some
  le := by
    rw [compose_push _ h.some]
    simpa using h.le
  same length := by
    rw [compose_push _ h.some] at length
    have literals := h.same (by simpa using length)
    cases pieces with
    | nil => trivial
    | cons x rest =>
      refine ⟨?_, literals.2⟩
      have same := literals.1
      simp [verbatim, other, plain, same]

/-- Two characters that stand for one, in a literal -/
theorem shorter (h : Found d n true pieces) : Found d (n + 2) true (push [a] pieces) where
  some := push_ne_nil h.some
  le := by
    rw [compose_push _ h.some]
    have le := h.le
    simp
    omega
  same length := by
    rw [compose_push _ h.some] at length
    have le := h.le
    simp at length
    omega

/-- An escape that stands for itself -/
theorem escape (h : Found d n true pieces) (other : e ≠ d.quote) (escapes : d.escapes e = true)
    (both : d.unescape a = none) : Found d (n + 2) true (push [e, a] pieces) where
  some := push_ne_nil h.some
  le := by
    rw [compose_push _ h.some]
    have le := h.le
    simp
    omega
  same length := by
    rw [compose_push _ h.some] at length
    rw [List.length_append, Nat.add_comm n] at length
    have literals := h.same (Nat.add_left_cancel length)
    cases pieces with
    | nil => trivial
    | cons x rest =>
      refine ⟨?_, literals.2⟩
      have same := literals.1
      simp [verbatim, other, escapes, both, same]

/-- A literal begins. -/
theorem enter (h : Found d n true pieces) : Found d (n + 1) false ([] :: pieces) where
  some := List.cons_ne_nil _ _
  le := by
    rw [compose_cons _ h.some]
    simpa using h.le
  same length := by
    rw [compose_cons _ h.some] at length
    exact h.same (by simpa using length)

/-- A literal ends. -/
theorem leave (h : Found d n false pieces) : Found d (n + 1) true ([] :: pieces) where
  some := List.cons_ne_nil _ _
  le := by
    rw [compose_cons _ h.some]
    simpa using h.le
  same length := by
    rw [compose_cons _ h.some] at length
    exact ⟨rfl, h.same (by simpa using length)⟩

end Found

theorem scan_found : ∀ {s : List α} {m : Mode α} {pieces : List (List α)}, m.Proper d → scan d m s = some pieces →
    Found d (s.length + m.behind) m.isLiteral pieces
  | [], .text, _, _, read => by
    obtain rfl := Option.some.inj read
    exact ⟨List.cons_ne_nil _ _, Nat.le_refl 0, fun _ => trivial⟩
  | [], .literal, _, _, read => by cases read
  | [], .quoted, _, _, read => by
    obtain rfl := Option.some.inj read
    exact .leave ⟨List.cons_ne_nil _ _, Nat.le_refl 0, fun _ => trivial⟩
  | [], .escaped _, _, _, read => by cases read
  | a :: s, .text, pieces, _, read => by
    rw [scan] at read
    split at read
    · obtain ⟨rest, next, rfl⟩ := Option.map_eq_some_iff.mp read
      exact (scan_found (m := .literal) trivial next).enter
    · obtain ⟨rest, next, rfl⟩ := Option.map_eq_some_iff.mp read
      exact (scan_found (m := .text) trivial next).text
  | a :: s, .literal, pieces, _, read => by
    rw [scan] at read
    split at read
    · exact scan_found (m := .quoted) trivial read
    · rename_i other
      split at read
      · rename_i escapes
        exact scan_found (m := .escaped a) ⟨other, escapes⟩ read
      · rename_i plain
        obtain ⟨rest, next, rfl⟩ := Option.map_eq_some_iff.mp read
        exact (scan_found (m := .literal) trivial next).literal other (Bool.not_eq_true _ ▸ plain)
  | a :: s, .quoted, pieces, _, read => by
    rw [scan] at read
    split at read
    · obtain ⟨rest, next, rfl⟩ := Option.map_eq_some_iff.mp read
      exact (scan_found (m := .literal) trivial next).shorter
    · obtain ⟨rest, next, rfl⟩ := Option.map_eq_some_iff.mp read
      exact (scan_found (m := .text) trivial next).text.leave
  | a :: s, .escaped e, pieces, proper, read => by
    obtain ⟨other, escapes⟩ := proper
    obtain ⟨rest, next, rfl⟩ := Option.map_eq_some_iff.mp read
    have found := scan_found (m := .literal) trivial next
    cases both : d.unescape a with
    | none => exact found.escape other escapes both
    | some c => exact found.shorter

/-- The scanner finds the pieces of a composed text if and only if the literals stand for themselves. -/
theorem scan_compose_iff (texts : Texts d pieces) :
    scan d .text (compose d pieces) = some pieces ↔ Literals d false pieces := by
  constructor
  · intro read
    have found : Found d _ false pieces := scan_found (m := .text) trivial read
    exact found.same rfl
  · exact scan_compose texts

end Quoting

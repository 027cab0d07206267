import Mathlib.Data.List.Basic
import Mathlib.Tactic.Common

/-! Readers, which take an item from the front of a string, and grammars, which say what strings stand for an item.
    A reader reads a grammar when it takes what the grammar derives, whatever follows, and nothing else. -/

abbrev Reader (β α : Type) := StateT (List β) Option α

namespace Reader

variable {α β γ : Type}

def take1 : Reader β β
  | [] => none
  | b :: s => some (b, s)

def takeN (n : Nat) : Reader β (List β) := fun s => if n ≤ s.length then some (s.take n, s.drop n) else none

structure Reads (grammar : α → List β → Prop) (read : Reader β α) : Prop where
  sound : ∀ {s x rest}, read s = some (x, rest) → ∃ front, grammar x front ∧ front ++ rest = s
  complete : ∀ {x front}, grammar x front → ∀ rest, read (front ++ rest) = some (x, rest)

section Rules
variable {grammar grammar' : α → List β → Prop} {read : Reader β α} {x y : α} {s rest : List β}

theorem bind_eq_some {f : α → Reader β γ} {z : γ} :
    (read >>= f) s = some (z, rest) ↔ ∃ x s', read s = some (x, s') ∧ f x s' = some (z, rest) := by
  show (read s).bind (fun p => f p.1 p.2) = _ ↔ _
  rw [Option.bind_eq_some_iff]
  exact ⟨fun ⟨p, first, second⟩ => ⟨p.1, p.2, first, second⟩, fun ⟨x, s', first, second⟩ => ⟨(x, s'), first, second⟩⟩

theorem pure_eq_some : (pure y : Reader β α) s = some (x, rest) ↔ x = y ∧ rest = s := by
  show some (y, s) = _ ↔ _
  rw [Option.some_inj, Prod.mk.injEq, eq_comm, @eq_comm _ s]

/-- A string begins with at most one item of a grammar that a reader reads. -/
theorem Reads.unambiguous (R : Reads grammar read) {front front' rest' : List β} (item : grammar x front)
    (item' : grammar y front') (same : front ++ rest = front' ++ rest') : x = y ∧ front = front' ∧ rest = rest' := by
  have first := R.complete item rest
  rw [same, R.complete item' rest'] at first
  obtain ⟨rfl, rfl⟩ := Prod.mk.inj (Option.some.inj first)
  exact ⟨rfl, List.append_cancel_right same, rfl⟩

theorem Reads.eq_none_iff (R : Reads grammar read) :
    read s = none ↔ ∀ x front rest, grammar x front → front ++ rest ≠ s := by
  constructor
  · rintro none x front rest item rfl
    rw [R.complete item rest] at none
    cases none
  · intro never
    rcases eq : read s with _ | ⟨x, rest⟩
    · rfl
    · obtain ⟨front, item, append⟩ := R.sound eq
      exact absurd append (never x front rest item)

theorem Reads.congr (R : Reads grammar read) (same : ∀ x s, grammar x s ↔ grammar' x s) : Reads grammar' read where
  sound eq := by
    obtain ⟨front, item, append⟩ := R.sound eq
    exact ⟨front, (same _ _).mp item, append⟩
  complete item := R.complete ((same _ _).mpr item)

theorem Reads.bind {next : α → γ → List β → Prop} {f : α → Reader β γ} (R : Reads grammar read)
    (F : ∀ x, Reads (next x) (f x)) :
    Reads (fun z s => ∃ x a b, grammar x a ∧ next x z b ∧ a ++ b = s) (read >>= f) where
  sound eq := by
    obtain ⟨x, s', first, second⟩ := bind_eq_some.mp eq
    obtain ⟨a, item, rfl⟩ := R.sound first
    obtain ⟨b, item', rfl⟩ := (F x).sound second
    exact ⟨a ++ b, ⟨x, a, b, item, item', rfl⟩, List.append_assoc ..⟩
  complete := by
    rintro z _ ⟨x, a, b, item, item', rfl⟩ rest
    rw [List.append_assoc]
    exact bind_eq_some.mpr ⟨x, b ++ rest, R.complete item _, (F x).complete item' rest⟩

theorem Reads.pure (y : α) : Reads (fun x s => x = y ∧ s = []) (pure y : Reader β α) where
  sound eq := by
    obtain ⟨rfl, rfl⟩ := pure_eq_some.mp eq
    exact ⟨[], ⟨rfl, rfl⟩, rfl⟩
  complete := by
    rintro x _ ⟨rfl, rfl⟩ rest
    rfl

theorem Reads.failure : Reads (fun _ _ => False) (failure : Reader β α) where
  sound eq := by cases eq
  complete h := h.elim

theorem Reads.map (R : Reads grammar read) (f : α → γ) :
    Reads (fun z s => ∃ x, grammar x s ∧ z = f x) (do return f (← read)) :=
  (R.bind fun x => Reads.pure (f x)).congr fun z s => by
    constructor
    · rintro ⟨x, a, b, item, ⟨eq, rfl⟩, rfl⟩
      exact ⟨x, (List.append_nil a).symm ▸ item, eq⟩
    · rintro ⟨x, item, eq⟩
      exact ⟨x, s, [], item, ⟨eq, rfl⟩, List.append_nil s⟩

theorem Reads.ite {c : Prop} [Decidable c] {other : Reader β α} (R : c → Reads grammar read)
    (R' : ¬c → Reads grammar' other) :
    Reads (fun x s => if c then grammar x s else grammar' x s) (if c then read else other) := by
  by_cases h : c
  · simpa only [if_pos h] using R h
  · simpa only [if_neg h] using R' h

theorem Reads.take1 : Reads (fun b s => s = [b]) (take1 : Reader β β) where
  sound {s _ _} eq := by
    rcases s with _ | ⟨b, s⟩
    · cases eq
    · cases eq
      exact ⟨_, rfl, rfl⟩
  complete := by
    rintro b _ rfl rest
    rfl

theorem Reads.takeN (n : Nat) : Reads (fun x s => s = x ∧ x.length = n) (takeN n : Reader β (List β)) where
  sound {s _ _} eq := by
    unfold Reader.takeN at eq
    split at eq
    · cases eq
      exact ⟨_, ⟨rfl, List.length_take_of_le ‹_›⟩, List.take_append_drop n s⟩
    · cases eq
  complete := by
    rintro x _ ⟨rfl, rfl⟩ rest
    unfold Reader.takeN
    rw [if_pos (by simp), List.take_left, List.drop_left]

end Rules

/-! ### Repetition -/

/-- Items one after the other -/
inductive Many (item : List β → Prop) : List β → Prop
  | nil : Many item []
  | cons {a b : List β} : item a → Many item b → Many item (a ++ b)

theorem Many.append {item : List β → Prop} {a b : List β} (front : Many item a) (back : Many item b) :
    Many item (a ++ b) := by
  induction front with
  | nil => exact back
  | @cons x y first _ ih =>
    rw [List.append_assoc]
    exact .cons first ih

end Reader

import Mathlib.Logic.Basic
import Mathlib.Order.Basic
import Mathlib.Order.Defs.Unbundled

/-! Weakest preconditions for stateful programs with exceptions. A program that stops with an
    exception keeps the state in which it stopped, so both outcomes have a postcondition on states. -/

namespace Prog

variable {ε σ α β : Type}

/-- From `s`, `c` returns in a state satisfying `Q` or stops in a state satisfying `E`. -/
def wp (c : EStateM ε σ α) (Q : α → σ → Prop) (E : ε → σ → Prop) (s : σ) : Prop :=
  match c s with
  | .ok a t => Q a t
  | .error e t => E e t

section Rules
variable {Q : α → σ → Prop} {E : ε → σ → Prop} {s t : σ}

@[simp] theorem wp_pure {a : α} : wp (pure a) Q E s = Q a s := (rfl)

@[simp] theorem wp_throw {e : ε} : wp (throw e) Q E s = E e s := (rfl)

@[simp] theorem wp_get {Q : σ → σ → Prop} : wp (get : EStateM ε σ σ) Q E s = Q s s := (rfl)

theorem get_bind {f : σ → EStateM ε σ α} : (get >>= f) s = f s s := (rfl)

@[simp] theorem wp_set {Q : PUnit → σ → Prop} : wp (set t : EStateM ε σ PUnit) Q E s = Q ⟨⟩ t := (rfl)

@[simp] theorem wp_modify {Q : PUnit → σ → Prop} {f : σ → σ} :
    wp (modify f : EStateM ε σ PUnit) Q E s = Q ⟨⟩ (f s) := (rfl)

@[simp] theorem wp_bind {c : EStateM ε σ β} {f : β → EStateM ε σ α} :
    wp (c >>= f) Q E s = wp c (fun b t => wp (f b) Q E t) E s := by
  show (match EStateM.bind c f s with | .ok a t => Q a t | .error e t => E e t) = _
  unfold wp EStateM.bind
  cases c s <;> rfl

@[simp] theorem wp_map {c : EStateM ε σ β} {f : β → α} :
    wp (f <$> c) Q E s = wp c (fun b t => Q (f b) t) E s := by
  show (match EStateM.map f c s with | .ok a t => Q a t | .error e t => E e t) = _
  unfold wp EStateM.map
  cases c s <;> rfl

@[simp] theorem wp_discard {Q : PUnit → σ → Prop} {c : EStateM ε σ β} :
    wp (discard c) Q E s = wp c (fun _ t => Q ⟨⟩ t) E s := by
  show wp ((fun _ => ⟨⟩) <$> c) Q E s = _
  rw [wp_map]

end Rules

/-- The strongest guarantee of a call is its outcome. -/
theorem wp_self {c : EStateM ε σ α} {s : σ} : wp c (fun a t => c s = .ok a t) (fun e t => c s = .error e t) s := by
  unfold wp
  cases c s <;> rfl

/-- A call is used through what it guarantees. -/
theorem wp_mono {c : EStateM ε σ α} {Q Q' : α → σ → Prop} {E E' : ε → σ → Prop} {s : σ} (h : wp c Q E s)
    (hQ : ∀ a t, Q a t → Q' a t) (hE : ∀ e t, E e t → E' e t) : wp c Q' E' s := by
  unfold wp at *
  cases hc : c s with
  | ok a t => exact hQ a t (by simpa [hc] using h)
  | error e t => exact hE e t (by simpa [hc] using h)

theorem wp_post {c : EStateM ε σ α} {Q Q' : α → σ → Prop} {E : ε → σ → Prop} {s : σ} (h : wp c Q E s)
    (hQ : ∀ a t, Q a t → Q' a t) : wp c Q' E s :=
  wp_mono h hQ fun _ _ => id

theorem wp_and {c : EStateM ε σ α} {Q Q' : α → σ → Prop} {E E' : ε → σ → Prop} {s : σ} (h : wp c Q E s)
    (h' : wp c Q' E' s) : wp c (fun a t => Q a t ∧ Q' a t) (fun e t => E e t ∧ E' e t) s := by
  unfold wp at *
  cases hc : c s <;> simp_all

/-! ### Exceptions -/

/-- From every state, `c` stops with no exception but those in `F`. -/
def Raises (F : ε → Prop) (c : EStateM ε σ α) : Prop := ∀ s, wp c (fun _ _ => True) (fun e _ => F e) s

namespace Raises
variable {F : ε → Prop} {c : EStateM ε σ α}

theorem pure {a : α} : Raises F (pure a : EStateM ε σ α) := fun _ => trivial

theorem throw {e : ε} (h : F e) : Raises F (throw e : EStateM ε σ α) := fun _ => h

theorem get : Raises F (get : EStateM ε σ σ) := fun _ => trivial

theorem set {t : σ} : Raises F (set t : EStateM ε σ PUnit) := fun _ => trivial

theorem modify {f : σ → σ} : Raises F (modify f : EStateM ε σ PUnit) := fun _ => trivial

theorem bind {f : α → EStateM ε σ β} (hc : Raises F c) (hf : ∀ a, Raises F (f a)) : Raises F (c >>= f) := fun s => by
  rw [wp_bind]
  exact wp_post (hc s) fun a t _ => hf a t

theorem discard (hc : Raises F c) : Raises F (discard c) := fun s => by
  rw [wp_discard]
  exact hc s

theorem ite {b : Prop} [Decidable b] {d : EStateM ε σ α} (hc : Raises F c) (hd : Raises F d) :
    Raises F (if b then c else d) := by
  split
  · exact hc
  · exact hd

theorem mono {F' : ε → Prop} (hc : Raises F c) (h : ∀ e, F e → F' e) : Raises F' c := fun s =>
  wp_mono (hc s) (fun _ _ => id) fun e _ => h e

end Raises

/-- From every state, `c` stops in a state in which `E` holds of the exception. -/
def Reports (E : ε → σ → Prop) (c : EStateM ε σ α) : Prop := ∀ s, wp c (fun _ _ => True) E s

namespace Reports
variable {E : ε → σ → Prop} {c : EStateM ε σ α}

theorem pure {a : α} : Reports E (pure a : EStateM ε σ α) := fun _ => trivial

theorem throw {e : ε} (h : ∀ s, E e s) : Reports E (throw e : EStateM ε σ α) := h

theorem get : Reports E (get : EStateM ε σ σ) := fun _ => trivial

theorem set {t : σ} : Reports E (set t : EStateM ε σ PUnit) := fun _ => trivial

theorem modify {f : σ → σ} : Reports E (modify f : EStateM ε σ PUnit) := fun _ => trivial

theorem bind {f : α → EStateM ε σ β} (hc : Reports E c) (hf : ∀ a, Reports E (f a)) : Reports E (c >>= f) := fun s => by
  rw [wp_bind]
  exact wp_post (hc s) fun a t _ => hf a t

/-- What `c` reads is known to what follows. -/
theorem get_bind {f : σ → EStateM ε σ β} (hf : ∀ s, wp (f s) (fun _ _ => True) E s) :
    Reports E ((MonadStateOf.get : EStateM ε σ σ) >>= f) := hf

theorem discard (hc : Reports E c) : Reports E (discard c) := bind hc fun _ => pure

theorem ite {b : Prop} [Decidable b] {d : EStateM ε σ α} (hc : Reports E c) (hd : Reports E d) :
    Reports E (if b then c else d) := by
  split
  · exact hc
  · exact hd

end Reports

theorem wp_ok {c : EStateM ε σ α} {Q : α → σ → Prop} {E : ε → σ → Prop} {s t : σ} {a : α} (h : wp c Q E s)
    (hc : c s = .ok a t) : Q a t := by
  simpa [wp, hc] using h

/-- A call that cannot return stops. -/
theorem wp_stops {c : EStateM ε σ α} {e : ε} {s : σ} (h : wp c (fun _ _ => False) (fun e' _ => e' = e) s) :
    ∃ t, c s = .error e t := by
  unfold wp at h
  cases hc : c s with
  | ok a t => simp [hc] at h
  | error e' t =>
    obtain rfl : e' = e := by simpa [hc] using h
    exact ⟨t, rfl⟩

theorem wp_error {c : EStateM ε σ α} {Q : α → σ → Prop} {E : ε → σ → Prop} {s t : σ} {e : ε} (h : wp c Q E s)
    (hc : c s = .error e t) : E e t := by
  simpa [wp, hc] using h

/-! ### Begin and end -/

/-- From every state, `c` ends in one that is related to it by `R`. -/
def Along (R : σ → σ → Prop) (c : EStateM ε σ α) : Prop := ∀ s, wp c (fun _ t => R s t) (fun _ t => R s t) s

namespace Along
variable {R : σ → σ → Prop} [IsPreorder σ R] {c : EStateM ε σ α}

theorem pure {a : α} : Along R (pure a : EStateM ε σ α) := fun s => refl_of R s

theorem throw {e : ε} : Along R (throw e : EStateM ε σ α) := fun s => refl_of R s

theorem get : Along R (get : EStateM ε σ σ) := fun s => refl_of R s

omit [IsPreorder σ R] in
theorem modify {f : σ → σ} (h : ∀ s, R s (f s)) : Along R (modify f : EStateM ε σ PUnit) := h

/-- From a later state -/
theorem later (hc : Along R c) {s t : σ} (h : R s t) : wp c (fun _ u => R s u) (fun _ u => R s u) t :=
  wp_mono (hc t) (fun _ _ => trans_of R h) fun _ _ => trans_of R h

theorem bind {f : α → EStateM ε σ β} (hc : Along R c) (hf : ∀ a, Along R (f a)) : Along R (c >>= f) := fun s => by
  rw [wp_bind]
  exact wp_post (hc s) fun a t h => (hf a).later h

theorem discard (hc : Along R c) : Along R (discard c) := bind hc fun _ => pure

omit [IsPreorder σ R] in
theorem ite {b : Prop} [Decidable b] {d : EStateM ε σ α} (hc : Along R c) (hd : Along R d) :
    Along R (if b then c else d) := by
  split
  · exact hc
  · exact hd

end Along

/-! ### Invariants -/

/-- From every state with `I`, `c` ends in one with `I`. -/
def Keeps (I : σ → Prop) (c : EStateM ε σ α) : Prop := ∀ s, I s → wp c (fun _ t => I t) (fun _ t => I t) s

namespace Keeps
variable {I : σ → Prop} {c : EStateM ε σ α}

theorem pure {a : α} : Keeps I (pure a : EStateM ε σ α) := fun _ h => h

theorem throw {e : ε} : Keeps I (throw e : EStateM ε σ α) := fun _ h => h

theorem get : Keeps I (get : EStateM ε σ σ) := fun _ h => h

theorem modify {f : σ → σ} (h : ∀ s, I s → I (f s)) : Keeps I (modify f : EStateM ε σ PUnit) := h

theorem bind {f : α → EStateM ε σ β} (hc : Keeps I c) (hf : ∀ a, Keeps I (f a)) : Keeps I (c >>= f) := by
  intro s h
  rw [wp_bind]
  exact wp_post (hc s h) fun a t => hf a t

theorem discard (hc : Keeps I c) : Keeps I (discard c) := bind hc fun _ => pure

theorem ite {b : Prop} [Decidable b] {d : EStateM ε σ α} (hc : Keeps I c) (hd : Keeps I d) :
    Keeps I (if b then c else d) := by
  split
  · exact hc
  · exact hd

end Keeps

/-! ### Two programs -/

/-- From `s`, `c` and `c'` do the same, stop with no exception but those in `F`, and end in a state that is related
    to `s` by `R`. -/
def Alike (F : ε → Prop) (R : σ → σ → Prop) (c c' : EStateM ε σ α) (s : σ) : Prop :=
  c s = c' s ∧ wp c (fun _ t => R s t) (fun e t => F e ∧ R s t) s

namespace Alike
variable {F : ε → Prop} {R : σ → σ → Prop} {c c' : EStateM ε σ α} {s : σ}

theorem of (h : wp c (fun _ t => R s t) (fun e t => F e ∧ R s t) s) : Alike F R c c s := ⟨rfl, h⟩

/-- The second parts have to be alike where the first part can end. -/
theorem bind_of {P : α → σ → Prop} {f f' : α → EStateM ε σ β} (trans : ∀ {s t u}, R s t → R t u → R s u)
    (hc : Alike F R c c' s) (post : wp c P (fun _ _ => True) s)
    (hf : ∀ a t, R s t → P a t → Alike F R (f a) (f' a) t) : Alike F R (c >>= f) (c' >>= f') s := by
  obtain ⟨same, ends⟩ := hc
  constructor
  · show (match c s with | .ok a t => f a t | .error e t => .error e t) = (match c' s with | .ok a t => f' a t | .error e t => .error e t)
    unfold wp at post ends
    rw [← same]
    cases run : c s with
    | ok a t =>
      rw [run] at post ends
      exact (hf a t ends post).1
    | error e t => rfl
  · rw [wp_bind]
    refine wp_mono (wp_and ends post) (fun a t ⟨ends, post⟩ => ?_) fun _ _ h => h.1
    exact wp_mono (hf a t ends post).2 (fun _ _ h => trans ends h) fun _ _ ⟨h, h'⟩ => ⟨h, trans ends h'⟩

theorem bind {f f' : α → EStateM ε σ β} (trans : ∀ {s t u}, R s t → R t u → R s u) (hc : Alike F R c c' s)
    (hf : ∀ a t, R s t → Alike F R (f a) (f' a) t) : Alike F R (c >>= f) (c' >>= f') s := by
  refine bind_of (P := fun _ _ => True) trans hc ?_ fun a t ends _ => hf a t ends
  exact wp_mono hc.2 (fun _ _ _ => trivial) fun _ _ _ => trivial

/-- Two programs that go on alike from a later state -/
theorem of_later {R' : σ → σ → Prop} {d d' : EStateM ε σ α} {t : σ} (later : ∀ u, R' t u → R s u)
    (hc : c s = d t) (hc' : c' s = d' t) (h : Alike F R' d d' t) : Alike F R c c' s := by
  refine ⟨by rw [hc, hc', h.1], ?_⟩
  have ends := h.2
  unfold wp at ends ⊢
  rw [hc]
  cases run : d t with
  | ok a u =>
    rw [run] at ends
    exact later u ends
  | error e u =>
    rw [run] at ends
    exact ⟨ends.1, later u ends.2⟩

theorem mono {R' : σ → σ → Prop} (hc : Alike F R' c c' s) (h : ∀ t, R' s t → R s t) : Alike F R c c' s :=
  of_later h rfl rfl hc

theorem discard (trans : ∀ {s t u}, R s t → R t u → R s u) (refl : ∀ s, R s s) (hc : Alike F R c c' s) :
    Alike F R (discard c) (discard c') s :=
  bind trans hc fun _ t _ => of (refl t)

end Alike

end Prog

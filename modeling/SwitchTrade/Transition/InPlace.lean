import Mathlib.Tactic.Common

/-!
# Code that changes an object in place and may raise

`EStateM ε σ` read as a method that mutates the object `σ` and may raise an `ε`: what it
changed before it raised stays changed. The rules below take a call apart statement by
statement, and say when a call that raises has changed nothing:

* a statement that only reads may be passed over (`AtomicAt.bind_reads`);
* what cannot raise is atomic (`Quiet.atomicAt`).
-/

namespace InPlace

universe u

variable {ε σ α β : Type u}

/-- A check that reads no object and changes none. -/
def check (x : Except ε α) : EStateM ε σ α :=
  match x with
  | .ok a => pure a
  | .error e => throw e

/-- `if c: raise e`. -/
def raiseIf (c : Prop) [Decidable c] (e : ε) : EStateM ε σ PUnit :=
  if c then throw e else pure ⟨⟩

/-! ## Taking a call apart -/

theorem bind_eq_ok {m : EStateM ε σ α} {f : α → EStateM ε σ β} {s u : σ} {b : β} :
    (m >>= f).run s = .ok b u ↔ ∃ a t, m.run s = .ok a t ∧ (f a).run t = .ok b u := by
  rw [EStateM.run_bind]
  cases h : m.run s with
  | ok a t =>
    constructor
    · intro hf
      exact ⟨a, t, rfl, hf⟩
    · rintro ⟨a', t', he, hf⟩
      cases he
      exact hf
  | error e t =>
    constructor
    · intro hf
      cases hf
    · rintro ⟨a', t', he, -⟩
      cases he

theorem bind_eq_error {m : EStateM ε σ α} {f : α → EStateM ε σ β} {s u : σ} {e : ε} :
    (m >>= f).run s = .error e u ↔
      m.run s = .error e u ∨ ∃ a t, m.run s = .ok a t ∧ (f a).run t = .error e u := by
  rw [EStateM.run_bind]
  cases h : m.run s with
  | ok a t =>
    constructor
    · intro hf
      exact .inr ⟨a, t, rfl, hf⟩
    · rintro (he | ⟨a', t', he, hf⟩)
      · cases he
      · cases he
        exact hf
  | error e' t =>
    constructor
    · intro hf
      cases hf
      exact .inl rfl
    · rintro (he | ⟨a', t', he, -⟩)
      · cases he
        rfl
      · cases he

theorem run_bind_of_ok {m : EStateM ε σ α} {f : α → EStateM ε σ β} {s t : σ} {a : α}
    (h : m.run s = .ok a t) : (m >>= f).run s = (f a).run t := by
  rw [EStateM.run_bind, h]

theorem run_bind_of_error {m : EStateM ε σ α} {f : α → EStateM ε σ β} {s t : σ} {e : ε}
    (h : m.run s = .error e t) : (m >>= f).run s = .error e t := by
  rw [EStateM.run_bind, h]

@[simp] theorem pure_eq_ok {s t : σ} {a b : α} :
    (pure a : EStateM ε σ α).run s = .ok b t ↔ a = b ∧ s = t := by
  rw [EStateM.run_pure]
  constructor
  · intro h
    cases h
    exact ⟨rfl, rfl⟩
  · rintro ⟨rfl, rfl⟩
    rfl

@[simp] theorem pure_eq_error {s t : σ} {a : α} {e : ε} :
    (pure a : EStateM ε σ α).run s = .error e t ↔ False := by
  rw [EStateM.run_pure]
  constructor
  · intro h
    cases h
  · intro h
    exact h.elim

@[simp] theorem throw_eq_ok {s t : σ} {a : α} {e : ε} :
    (throw e : EStateM ε σ α).run s = .ok a t ↔ False := by
  constructor
  · intro h
    cases h
  · intro h
    exact h.elim

@[simp] theorem throw_eq_error {s t : σ} {e e' : ε} :
    (throw e : EStateM ε σ α).run s = .error e' t ↔ e = e' ∧ s = t := by
  constructor
  · intro h
    cases h
    exact ⟨rfl, rfl⟩
  · rintro ⟨rfl, rfl⟩
    rfl

@[simp] theorem check_eq_ok {x : Except ε α} {s t : σ} {a : α} :
    (check x : EStateM ε σ α).run s = .ok a t ↔ x = .ok a ∧ s = t := by
  cases x <;> simp [check]

@[simp] theorem check_eq_error {x : Except ε α} {s t : σ} {e : ε} :
    (check x : EStateM ε σ α).run s = .error e t ↔ x = .error e ∧ s = t := by
  cases x <;> simp [check]

@[simp] theorem raiseIf_eq_ok {c : Prop} [Decidable c] {e : ε} {s t : σ} {u : PUnit} :
    (raiseIf c e : EStateM ε σ PUnit).run s = .ok u t ↔ ¬ c ∧ s = t := by
  unfold raiseIf
  split <;> simp [*]

@[simp] theorem raiseIf_eq_error {c : Prop} [Decidable c] {e e' : ε} {s t : σ} :
    (raiseIf c e : EStateM ε σ PUnit).run s = .error e' t ↔ c ∧ e = e' ∧ s = t := by
  unfold raiseIf
  split <;> simp [*]

@[simp] theorem get_eq_ok {s t a : σ} :
    (get : EStateM ε σ σ).run s = .ok a t ↔ s = a ∧ s = t := by
  constructor
  · intro h
    cases h
    exact ⟨rfl, rfl⟩
  · rintro ⟨rfl, rfl⟩
    rfl

@[simp] theorem modify_eq_ok {f : σ → σ} {s t : σ} {u : PUnit} :
    (modify f : EStateM ε σ PUnit).run s = .ok u t ↔ f s = t := by
  constructor
  · intro h
    cases h
    rfl
  · rintro rfl
    rfl

/-! ## What a call leaves behind -/

/-- The object after the call, whatever came of it. -/
def after (m : EStateM ε σ α) (s : σ) : σ :=
  match m.run s with
  | .ok _ t => t
  | .error _ t => t

/-- The call changes nothing. -/
def Reads (m : EStateM ε σ α) : Prop := ∀ s, after m s = s

/-- The call does not raise. -/
def Quiet (m : EStateM ε σ α) : Prop := ∀ s e t, m.run s ≠ .error e t

/-- From this object the call changes nothing if it raises. -/
def AtomicAt (m : EStateM ε σ α) (s : σ) : Prop := ∀ e t, m.run s = .error e t → t = s

theorem Reads.check (x : Except ε α) : Reads (check x : EStateM ε σ α) := by
  intro s
  cases x <;> rfl

theorem Reads.raiseIf (c : Prop) [Decidable c] (e : ε) :
    Reads (raiseIf c e : EStateM ε σ PUnit) := by
  intro s
  unfold InPlace.raiseIf
  split <;> rfl

theorem Reads.get : Reads (MonadState.get : EStateM ε σ σ) := fun _ => rfl

theorem Reads.pure (a : α) : Reads (Pure.pure a : EStateM ε σ α) := fun _ => rfl

theorem Reads.bind {m : EStateM ε σ α} {f : α → EStateM ε σ β} (hm : Reads m)
    (hf : ∀ a, Reads (f a)) : Reads (m >>= f) := by
  intro s
  have hs := hm s
  simp only [after, EStateM.run_bind] at hs ⊢
  cases h : m.run s with
  | ok a t =>
    rw [h] at hs
    cases hs
    exact hf a t
  | error e t =>
    rw [h] at hs
    exact hs

theorem Reads.ok {m : EStateM ε σ α} (hm : Reads m) {s t : σ} {a : α}
    (h : m.run s = .ok a t) : t = s := by
  have he := hm s
  simp only [after, h] at he
  exact he

theorem Reads.error {m : EStateM ε σ α} (hm : Reads m) {s t : σ} {e : ε}
    (h : m.run s = .error e t) : t = s := by
  have he := hm s
  simp only [after, h] at he
  exact he

theorem Quiet.pure (a : α) : Quiet (Pure.pure a : EStateM ε σ α) := by
  intro s e t h
  exact pure_eq_error.mp h

theorem Quiet.modify (f : σ → σ) : Quiet (modify f : EStateM ε σ PUnit) := by
  intro s e t h
  cases h

theorem Quiet.bind {m : EStateM ε σ α} {f : α → EStateM ε σ β} (hm : Quiet m)
    (hf : ∀ a, Quiet (f a)) : Quiet (m >>= f) := by
  intro s e t h
  rcases bind_eq_error.mp h with h | ⟨a, u, -, h⟩
  · exact hm s e t h
  · exact hf a u e t h

theorem Quiet.atomicAt {m : EStateM ε σ α} (hm : Quiet m) (s : σ) : AtomicAt m s :=
  fun e t h => absurd h (hm s e t)

/-- What holds of the object after each of two calls holds after one and then the other. -/
theorem after_bind {P : σ → Prop} {m : EStateM ε σ α} {f : α → EStateM ε σ β} {s : σ}
    (hm : ∀ e t, m.run s = .error e t → P t) (hf : ∀ a t, m.run s = .ok a t → P (after (f a) t)) :
    P (after (m >>= f) s) := by
  unfold after
  rw [EStateM.run_bind]
  cases h : m.run s with
  | ok a t => exact hf a t h
  | error e t => exact hm e t h

theorem Reads.after_bind {P : σ → Prop} {m : EStateM ε σ α} {f : α → EStateM ε σ β} {s : σ}
    (hm : Reads m) (hs : P s) (hf : ∀ a, m.run s = .ok a s → P (after (f a) s)) :
    P (after (m >>= f) s) := by
  apply InPlace.after_bind
  · intro e t h
    rw [hm.error h]
    exact hs
  · intro a t h
    have ht := hm.ok h
    rw [ht] at h ⊢
    exact hf a h

theorem after_modify {g : σ → σ} {f : PUnit → EStateM ε σ β} {s : σ} :
    after (modify g >>= f) s = after (f ⟨⟩) (g s) := rfl

theorem after_map {m : EStateM ε σ α} {g : α → β} {s : σ} : after (g <$> m) s = after m s := by
  show (match EStateM.map g m s with
    | .ok _ t => t
    | .error _ t => t) = match m s with
    | .ok _ t => t
    | .error _ t => t
  unfold EStateM.map
  cases m s <;> rfl

/-- What only reads may be passed over. -/
theorem AtomicAt.bind_reads {m : EStateM ε σ α} {f : α → EStateM ε σ β} {s : σ} (hm : Reads m)
    (hf : ∀ a, m.run s = .ok a s → AtomicAt (f a) s) : AtomicAt (m >>= f) s := by
  intro e t h
  rcases bind_eq_error.mp h with h | ⟨a, u, ha, h⟩
  · exact hm.error h
  · have hu := hm.ok ha
    rw [hu] at ha h
    exact hf a ha e t h

/-- What does not raise may follow an atomic call. -/
theorem AtomicAt.bind_quiet {m : EStateM ε σ α} {f : α → EStateM ε σ β} {s : σ}
    (hm : AtomicAt m s) (hf : ∀ a, Quiet (f a)) : AtomicAt (m >>= f) s := by
  intro e t h
  rcases bind_eq_error.mp h with h | ⟨a, u, -, h⟩
  · exact hm e t h
  · exact absurd h (hf a u e t)

theorem AtomicAt.ite {c : Prop} [Decidable c] {m m' : EStateM ε σ α} {s : σ}
    (h : c → AtomicAt m s) (h' : ¬ c → AtomicAt m' s) :
    AtomicAt (if c then m else m') s := by
  by_cases hc : c
  · rw [if_pos hc]
    exact h hc
  · rw [if_neg hc]
    exact h' hc

end InPlace

import Mathlib.Tactic.Common

/-!
# Code that may raise

`Except ε` read as code that raises. `raiseIf` is the statement `if c: raise e`; the
lemmas here take a call that returned apart, guard by guard, so that no later proof
unfolds the monad.
-/

namespace Fallible

universe u v

variable {ε : Type u} {α β : Type v}

/-- `if c: raise e`. -/
def raiseIf (c : Prop) [Decidable c] (e : ε) : Except ε Unit := if c then .error e else .ok ()

@[simp] theorem raiseIf_eq_ok {c : Prop} [Decidable c] {e : ε} {u : Unit} :
    raiseIf c e = .ok u ↔ ¬ c := by
  unfold raiseIf
  split <;> simp [*]

@[simp] theorem bind_eq_ok {x : Except ε α} {f : α → Except ε β} {b : β} :
    (x >>= f) = .ok b ↔ ∃ a, x = .ok a ∧ f a = .ok b := by
  cases x <;> simp [bind, Except.bind]

@[simp] theorem pure_eq_ok {a b : α} : (pure a : Except ε α) = .ok b ↔ a = b := by
  simp [pure, Except.pure]

@[simp] theorem throw_eq_ok {e : ε} {b : α} : (throw e : Except ε α) = .ok b ↔ False := by
  simp [throw, throwThe, MonadExceptOf.throw]

/-- What holds of the value of a call that returns. -/
instance decidableOk {x : Except ε α} {P : α → Prop} [∀ a, Decidable (P a)] :
    Decidable (∀ a, x = .ok a → P a) :=
  match x with
  | .ok a => decidable_of_iff (P a) ⟨fun h _ heq => Except.ok.inj heq ▸ h, fun h => h a rfl⟩
  | .error _ => .isTrue nofun

/-- A value that has to be there. -/
def orRaise (x : Option α) (e : ε) : Except ε α :=
  match x with
  | some a => .ok a
  | none => .error e

@[simp] theorem orRaise_eq_ok {x : Option α} {e : ε} {a : α} :
    orRaise x e = .ok a ↔ x = some a := by
  cases x <;> simp [orRaise]

theorem raiseIf_eq_error {c : Prop} [Decidable c] {e e' : ε} :
    raiseIf c e = .error e' ↔ c ∧ e = e' := by
  unfold raiseIf
  split <;> simp [*]

theorem bind_eq_error {x : Except ε α} {f : α → Except ε β} {e : ε} :
    (x >>= f) = .error e ↔ x = .error e ∨ ∃ a, x = .ok a ∧ f a = .error e := by
  cases x <;> simp [bind, Except.bind]

theorem pure_eq_error {a : α} {e : ε} : (pure a : Except ε α) = .error e ↔ False := by
  simp [pure, Except.pure]

theorem orRaise_eq_error {x : Option α} {e e' : ε} :
    orRaise x e = .error e' ↔ x = none ∧ e = e' := by
  cases x <;> simp [orRaise]

/-- A loop whose body may raise keeps what each of its rounds keeps. -/
theorem foldlM_keeps {γ : Type v} {f : β → γ → Except ε β} {P : β → Prop}
    (hstep : ∀ b c b', P b → f b c = .ok b' → P b') {xs : List γ} {b b' : β}
    (h : xs.foldlM f b = .ok b') (hb : P b) : P b' := by
  induction xs generalizing b with
  | nil =>
    simp only [List.foldlM_nil, pure_eq_ok] at h
    exact h ▸ hb
  | cons x xs ih =>
    simp only [List.foldlM_cons, bind_eq_ok] at h
    obtain ⟨b₁, h₁, h⟩ := h
    exact ih h (hstep b x b₁ hb h₁)

/-- A loop that collects what its body returns, where the body never raises. -/
theorem mapM_eq_ok_map {γ : Type v} {f : γ → Except ε β} {g : γ → β} {xs : List γ}
    (h : ∀ x ∈ xs, f x = .ok (g x)) : xs.mapM f = .ok (xs.map g) := by
  induction xs with
  | nil => rfl
  | cons x xs ih =>
    have hhead : f x = .ok (g x) := h x (by simp)
    have htail : xs.mapM f = .ok (xs.map g) := ih fun y hy => h y (by simp [hy])
    rw [List.mapM_cons, hhead, htail]
    rfl

/-- A loop raises where its body raises in one of its rounds. -/
theorem mapM_raises {γ : Type v} {f : γ → Except ε β} {xs : List γ} {x : γ} {e : ε} (hx : x ∈ xs)
    (h : f x = .error e) : ∃ e', xs.mapM f = .error e' := by
  induction xs with
  | nil => cases hx
  | cons y xs ih =>
    rw [List.mapM_cons]
    cases hhead : f y with
    | error e' => exact ⟨e', rfl⟩
    | ok b =>
      have hmem : x ∈ xs := by
        rcases List.mem_cons.mp hx with rfl | hmem
        · rw [h] at hhead
          cases hhead
        · exact hmem
      obtain ⟨e', htail⟩ := ih hmem
      rw [htail]
      exact ⟨e', rfl⟩

end Fallible

import SwitchTrade.Transition.InPlace

/-!
# How a call that may raise ends

`Ends m Q E s` says of the call `m` from the object `s` that what it returns and leaves
satisfies `Q`, and that what it raises and leaves satisfies `E`. The rules take a method
apart in the order it is written. With `E` false a call that ends so returns
(`Ends.returns`); with `E` an invariant the call may be cut off anywhere.
-/

namespace InPlace

universe u

variable {ε σ α β : Type u} {Q Q' : α → σ → Prop} {E E' : ε → σ → Prop} {s t : σ}

def Ends (m : EStateM ε σ α) (Q : α → σ → Prop) (E : ε → σ → Prop) (s : σ) : Prop :=
  match m.run s with
  | .ok a t => Q a t
  | .error e t => E e t

namespace Ends

theorem of_ok {m : EStateM ε σ α} {a : α} (h : Ends m Q E s) (hr : m.run s = .ok a t) : Q a t := by
  unfold Ends at h
  rw [hr] at h
  exact h

theorem of_error {m : EStateM ε σ α} {e : ε} (h : Ends m Q E s) (hr : m.run s = .error e t) :
    E e t := by
  unfold Ends at h
  rw [hr] at h
  exact h

theorem intro {m : EStateM ε σ α} (hok : ∀ a t, m.run s = .ok a t → Q a t)
    (herror : ∀ e t, m.run s = .error e t → E e t) : Ends m Q E s := by
  unfold Ends
  cases h : m.run s with
  | ok a t => exact hok a t h
  | error e t => exact herror e t h

/-- A call none of whose ends is a raise returns. -/
theorem returns {m : EStateM ε σ α} (h : Ends m Q (fun _ _ => False) s) :
    ∃ a t, m.run s = .ok a t ∧ Q a t := by
  cases hr : m.run s with
  | ok a t => exact ⟨a, t, rfl, h.of_ok hr⟩
  | error e t => exact (h.of_error hr).elim

theorem mono {m : EStateM ε σ α} (h : Ends m Q E s) (hq : ∀ a t, Q a t → Q' a t)
    (he : ∀ e t, E e t → E' e t) : Ends m Q' E' s :=
  intro (fun a t hr => hq a t (h.of_ok hr)) (fun e t hr => he e t (h.of_error hr))

theorem and {m : EStateM ε σ α} (h : Ends m Q E s) (h' : Ends m Q' E' s) :
    Ends m (fun a t => Q a t ∧ Q' a t) (fun e t => E e t ∧ E' e t) s :=
  intro (fun _ _ hr => ⟨h.of_ok hr, h'.of_ok hr⟩) (fun _ _ hr => ⟨h.of_error hr, h'.of_error hr⟩)

/-- The rule for two statements in a row. -/
theorem bind {m : EStateM ε σ α} {f : α → EStateM ε σ β} {R : β → σ → Prop}
    (h : Ends m (fun a t => Ends (f a) R E t) E s) : Ends (m >>= f) R E s := by
  apply intro
  · intro b u hr
    obtain ⟨a, t, hm, hf⟩ := bind_eq_ok.mp hr
    exact (h.of_ok hm).of_ok hf
  · intro e u hr
    rcases bind_eq_error.mp hr with hm | ⟨a, t, hm, hf⟩
    · exact h.of_error hm
    · exact (h.of_ok hm).of_error hf

/-- Two statements in a row, the first by its own specification. -/
theorem seq {m : EStateM ε σ α} {f : α → EStateM ε σ β} {R : β → σ → Prop}
    (h : Ends m Q E s) (hf : ∀ a t, Q a t → Ends (f a) R E t) : Ends (m >>= f) R E s :=
  bind (h.mono hf fun _ _ he => he)

theorem pure {a : α} (h : Q a s) : Ends (Pure.pure a : EStateM ε σ α) Q E s := h

theorem throw {e : ε} (h : E e s) : Ends (MonadExcept.throw e : EStateM ε σ α) Q E s := h

theorem get {Q : σ → σ → Prop} (h : Q s s) : Ends (MonadState.get : EStateM ε σ σ) Q E s := h

theorem modify {Q : PUnit → σ → Prop} {f : σ → σ} (h : Q ⟨⟩ (f s)) :
    Ends (modify f : EStateM ε σ PUnit) Q E s := h

theorem raiseIf {Q : PUnit → σ → Prop} {c : Prop} [Decidable c] {e : ε} (hn : ¬ c → Q ⟨⟩ s)
    (hc : c → E e s) : Ends (InPlace.raiseIf c e : EStateM ε σ PUnit) Q E s := by
  unfold InPlace.raiseIf
  by_cases h : c
  · rw [if_pos h]
    exact hc h
  · rw [if_neg h]
    exact hn h

theorem check {x : Except ε α} (hok : ∀ a, x = .ok a → Q a s)
    (herror : ∀ e, x = .error e → E e s) : Ends (InPlace.check x : EStateM ε σ α) Q E s := by
  cases x with
  | ok a => exact hok a rfl
  | error e => exact herror e rfl

theorem ite {c : Prop} [Decidable c] {m m' : EStateM ε σ α} (h : c → Ends m Q E s)
    (h' : ¬ c → Ends m' Q E s) : Ends (if c then m else m') Q E s := by
  by_cases hc : c
  · rw [if_pos hc]
    exact h hc
  · rw [if_neg hc]
    exact h' hc

end Ends

/-! ## What every end of a call keeps -/

/-- However the call ends, it leaves `P` as it found it. -/
def Keeps (P : σ → Prop) (m : EStateM ε σ α) : Prop :=
  ∀ s, P s → Ends m (fun _ t => P t) (fun _ t => P t) s

namespace Keeps

variable {P : σ → Prop}

theorem bind {m : EStateM ε σ α} {f : α → EStateM ε σ β} (hm : Keeps P m)
    (hf : ∀ a, Keeps P (f a)) : Keeps P (m >>= f) :=
  fun s hs => (hm s hs).seq fun a t ht => hf a t ht

/-- Two statements in a row, the second by what is known of the value of the first. -/
theorem bind_of {m : EStateM ε σ α} {f : α → EStateM ε σ β} {F : α → Prop}
    (hm : ∀ s, P s → Ends m (fun a t => F a ∧ P t) (fun _ t => P t) s)
    (hf : ∀ a, F a → Keeps P (f a)) : Keeps P (m >>= f) :=
  fun s hs => (hm s hs).seq fun a t ht => hf a ht.1 t ht.2

/-- What the statement after `get` may use of the object. -/
theorem get_bind {f : σ → EStateM ε σ β} (hf : ∀ s, P s → Ends (f s) (fun _ t => P t)
    (fun _ t => P t) s) : Keeps P (MonadState.get >>= f) :=
  fun s hs => Ends.bind (Ends.get (hf s hs))

theorem pure (a : α) : Keeps P (Pure.pure a : EStateM ε σ α) := fun _ hs => Ends.pure hs

theorem throw (e : ε) : Keeps P (MonadExcept.throw e : EStateM ε σ α) := fun _ hs => Ends.throw hs

theorem get : Keeps P (MonadState.get : EStateM ε σ σ) := fun _ hs => Ends.get hs

theorem modify {f : σ → σ} (h : ∀ s, P s → P (f s)) :
    Keeps P (modify f : EStateM ε σ PUnit) := fun s hs => Ends.modify (h s hs)

theorem raiseIf (c : Prop) [Decidable c] (e : ε) :
    Keeps P (InPlace.raiseIf c e : EStateM ε σ PUnit) :=
  fun _ hs => Ends.raiseIf (fun _ => hs) (fun _ => hs)

theorem check (x : Except ε α) : Keeps P (InPlace.check x : EStateM ε σ α) := by
  intro s hs
  cases x with
  | ok a => exact hs
  | error e => exact hs

theorem ite {c : Prop} [Decidable c] {m m' : EStateM ε σ α} (h : c → Keeps P m)
    (h' : ¬ c → Keeps P m') : Keeps P (if c then m else m') :=
  fun s hs => Ends.ite (fun hc => h hc s hs) (fun hc => h' hc s hs)

end Keeps

end InPlace

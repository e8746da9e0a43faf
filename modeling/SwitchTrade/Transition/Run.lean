import Mathlib.Logic.Relation

/-!
# Guarded runs of a labelled transition system

A system has initial states and labelled steps. A guard restricts which label may be
taken from which state, so that "every run whose steps all meet a condition" is a run
of the guarded system. The rules below are the two inductions every later result uses:

* a property of the initial states that every guarded step keeps holds in every reachable
  state (`Reachable.invariant`);
* a preorder that relates the two ends of every guarded step from a reachable state
  relates the two ends of every run from a reachable state (`Run.relates`).
-/

namespace Transition

variable {σ ι : Type*}

/-- A labelled transition system. -/
structure System (σ ι : Type*) where
  init : σ → Prop
  next : σ → ι → σ → Prop

namespace System

variable (T : System σ ι) (G : σ → ι → Prop)

/-- One step whose label the guard admits in the state it starts from. -/
def Step (s t : σ) : Prop := ∃ i, G s i ∧ T.next s i t

/-- Any number of guarded steps. -/
def Run : σ → σ → Prop := Relation.ReflTransGen (T.Step G)

/-- A state some guarded run reaches from an initial state. -/
def Reachable (s : σ) : Prop := ∃ s₀, T.init s₀ ∧ T.Run G s₀ s

/-- The guard that admits every label. -/
def Free : σ → ι → Prop := fun _ _ => True

variable {T G}

theorem Reachable.init {s : σ} (h : T.init s) : T.Reachable G s := ⟨s, h, .refl⟩

theorem Reachable.run {s t : σ} (h : T.Reachable G s) (hr : T.Run G s t) : T.Reachable G t := by
  obtain ⟨s₀, hi, h₀⟩ := h
  exact ⟨s₀, hi, h₀.trans hr⟩

theorem Reachable.step {s t : σ} {i : ι} (h : T.Reachable G s) (hg : G s i) (hn : T.next s i t) :
    T.Reachable G t :=
  h.run (.single ⟨i, hg, hn⟩)

theorem Run.step {s t : σ} {i : ι} (hg : G s i) (hn : T.next s i t) : T.Run G s t :=
  .single ⟨i, hg, hn⟩

theorem Run.mono {G' : σ → ι → Prop} (hG : ∀ s i, G s i → G' s i) {s t : σ} (h : T.Run G s t) :
    T.Run G' s t :=
  Relation.ReflTransGen.mono (fun _ _ ⟨i, hg, hn⟩ => ⟨i, hG _ i hg, hn⟩) _ _ h

theorem Reachable.mono {G' : σ → ι → Prop} (hG : ∀ s i, G s i → G' s i) {s : σ}
    (h : T.Reachable G s) : T.Reachable G' s := by
  obtain ⟨s₀, hi, hr⟩ := h
  exact ⟨s₀, hi, hr.mono hG⟩

/-- A property that every guarded step keeps is kept by every run. -/
theorem Run.keeps {P : σ → Prop} (hstep : ∀ s i t, P s → G s i → T.next s i t → P t) {s t : σ}
    (h : T.Run G s t) (hs : P s) : P t := by
  induction h with
  | refl => exact hs
  | tail _ hlast ih =>
    obtain ⟨i, hg, hn⟩ := hlast
    exact hstep _ i _ ih hg hn

/-- The invariant rule: it holds initially and every guarded step keeps it. -/
theorem Reachable.invariant {P : σ → Prop} (hinit : ∀ s, T.init s → P s)
    (hstep : ∀ s i t, P s → G s i → T.next s i t → P t) {s : σ} (h : T.Reachable G s) : P s := by
  obtain ⟨s₀, hi, hr⟩ := h
  exact hr.keeps hstep (hinit s₀ hi)

/-- A reflexive and transitive relation that holds across every guarded step from a
reachable state holds across every run from a reachable state. -/
theorem Run.relates {R : σ → σ → Prop} (hrefl : ∀ s, R s s)
    (htrans : ∀ s t u, R s t → R t u → R s u)
    (hstep : ∀ s i t, T.Reachable G s → G s i → T.next s i t → R s t) {s t : σ}
    (hs : T.Reachable G s) (h : T.Run G s t) : R s t := by
  induction h with
  | refl => exact hrefl s
  | tail hrun hlast ih =>
    obtain ⟨i, hg, hn⟩ := hlast
    exact htrans _ _ _ ih (hstep _ i _ (hs.run hrun) hg hn)

/-! ## Systems of a partial step function -/

/-- The system whose step from a state is what `step` gives there, if anything. -/
def ofStep (init : σ → Prop) (step : σ → ι → Option σ) : System σ ι where
  init := init
  next s i t := step s i = some t

/-- The state after a list of labels the guard admits. -/
def play (step : σ → ι → Option σ) (G : σ → ι → Prop) [∀ s i, Decidable (G s i)] (s : σ)
    (labels : List ι) : Option σ :=
  labels.foldlM (fun s i => if G s i then step s i else none) s

theorem play_cons {step : σ → ι → Option σ} [∀ s i, Decidable (G s i)] {s t : σ} {i : ι}
    {labels : List ι} :
    play step G s (i :: labels) = some t ↔
      G s i ∧ ∃ u, step s i = some u ∧ play step G u labels = some t := by
  simp only [play, List.foldlM_cons, Option.bind_eq_bind, Option.bind_eq_some_iff]
  by_cases hg : G s i
  · simp [hg]
  · simp [hg]

theorem run_of_play {init : σ → Prop} {step : σ → ι → Option σ} [∀ s i, Decidable (G s i)]
    {labels : List ι} {s t : σ} (h : play step G s labels = some t) :
    (ofStep init step).Run G s t := by
  induction labels generalizing s with
  | nil =>
    cases h
    exact .refl
  | cons i labels ih =>
    obtain ⟨hg, u, hu, h⟩ := play_cons.mp h
    exact .head ⟨i, hg, hu⟩ (ih h)

instance : ∀ (s : σ) (i : ι), Decidable (Free s i) := fun _ _ => .isTrue trivial

end System

end Transition

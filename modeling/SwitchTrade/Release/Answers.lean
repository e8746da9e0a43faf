import SwitchTrade.Release.LocalRelease

/-!
# The answers a pass survives

What a probe may answer without making the pass raise before it has told the coordinator: no
status that cannot be hashed, no evidence that cannot be written, and no lease error whose
text the coordinator refuses.
-/

namespace SwitchTrade.Release

open Coordinator (Record)

/-! ## The answers a pass survives -/

/-- The dictionary is not one of the step's fields with a status that cannot be hashed. -/
def Answer.StatusHashable (fields : List String) : Answer → Prop
  | .dict items => items.hasFields fields = true → (items.get "status").hashable = true
  | _ => True

/-- One observation of D9 shows a quiet radio. -/
def Answer.Clean (a : Answer) : Prop := ∃ e, radioObservation a = .ok e ∧ e.clean = true

instance (a : Answer) : Decidable a.Clean :=
  match h : radioObservation a with
  | .ok e => decidable_of_iff (e.clean = true) (by simp [Answer.Clean, h])
  | .error _ => isFalse (by simp [Answer.Clean, h])

/-- The answers the D9 loop asks for: up to the one that completes a row of clean ones. -/
def asked (stableSamples : Nat) (stable : Nat) : List Answer → List Answer
  | [] => []
  | a :: answers =>
    let stable := if a.Clean then stable + 1 else 0
    a :: if stableSamples ≤ stable then [] else asked stableSamples stable answers

/-- The counts of an answer have a decimal text. -/
def Answer.Rendered (a : Answer) : Prop :=
  ∀ e, radioObservation a = .ok e → e.renders = true

/-- The answers of the radio probe leave evidence that can be written. -/
def RadioAnswers.Told (stableSamples : Nat) (answers : RadioAnswers) : Prop :=
  (∀ a ∈ asked stableSamples 0 (answers.within ++ [answers.last]),
    a.StatusHashable radioFields) ∧
  ∀ a, (asked stableSamples 0 (answers.within ++ [answers.last])).getLast? = some a → a.Rendered

/-- What the lease answers can be written, and a lease error that is the first failure of the
pass has a text the coordinator takes. -/
def LeaseAnswer.Told (d7 : Bool) : LeaseAnswer → Prop
  | .dict items => (UsbEvidence.ofItems items).renders = true
  | .raised e => d7 = true → (Coordinator.bounded (.text e.message) "message" 500).isOk = true
  | .other => True

/-- D8 and D9 are verified by the answers of their probes. -/
def Call.Absent (c : Call) (r : Record) : Prop :=
  ∃ launch radio, verifyLaunchAbsence c.launch = .ok (launch, true) ∧
    radioEvidence c.stableSamples (softwareOnly r.identity.mode) c.radio = .ok (radio, true)

/-- No answer of the pass makes it raise. -/
structure Call.Told (c : Call) (r : Record) : Prop where
  launch : c.launch.StatusHashable launchFields
  radio : softwareOnly r.identity.mode = false → ∀ answers, c.radio = some answers →
    answers.Told c.stableSamples
  lease : softwareOnly r.identity.mode = false → c.Absent r → ∀ lease, c.lease = some lease →
    lease.Told (diagnosticEvidence c.diagnostic (diagnosticMode r.identity.mode)).2

/-! ## What the readers make of an answer -/

theorem memberOf_hashable {α : Type} {members : String → Option α} {value : PyValue}
    (h : value.hashable = true) : ∃ status, memberOf members value = .ok status := by
  unfold memberOf
  rw [h]
  exact ⟨_, rfl⟩

theorem memberOf_unhashable {α : Type} {members : String → Option α} {value : PyValue}
    (h : value.hashable = false) : memberOf members value = .error .unhashable := by
  unfold memberOf
  rw [h]
  rfl

theorem launchRead_ok {items : Items}
    (h : items.hasFields launchFields = true → (items.get "status").hashable = true) :
    ∃ value, LaunchEvidence.read items = .ok value := by
  unfold LaunchEvidence.read
  by_cases hf : items.hasFields launchFields = true
  · obtain ⟨status, hs⟩ := @memberOf_hashable _ launchStatus _ (h hf)
    rw [if_pos hf, hs]
    exact ⟨_, rfl⟩
  · rw [if_neg hf]
    exact ⟨_, rfl⟩

theorem verifyLaunchAbsence_ok {a : Answer} (h : a.StatusHashable launchFields) :
    ∃ launch, verifyLaunchAbsence a = .ok (launch, launch.verified) := by
  cases a with
  | raised => exact ⟨_, rfl⟩
  | other => exact ⟨_, rfl⟩
  | dict items =>
    obtain ⟨value, hv⟩ := launchRead_ok h
    refine ⟨value.getD .unknown, ?_⟩
    simp only [verifyLaunchAbsence, hv]
    rfl

theorem verifyLaunchAbsence_error {a : Answer} (h : ¬ a.StatusHashable launchFields) :
    verifyLaunchAbsence a = .error .unhashable := by
  cases a with
  | raised => exact absurd trivial h
  | other => exact absurd trivial h
  | dict items =>
    obtain ⟨hf, hs⟩ := Classical.not_imp.mp h
    simp only [verifyLaunchAbsence, LaunchEvidence.read, if_pos hf,
      memberOf_unhashable (Bool.not_eq_true _ ▸ hs)]
    rfl

theorem radioObservation_ok {a : Answer} (h : a.StatusHashable radioFields) :
    ∃ radio, radioObservation a = .ok radio := by
  cases a with
  | raised => exact ⟨_, rfl⟩
  | other => exact ⟨_, rfl⟩
  | dict items =>
    by_cases hf : items.hasFields radioFields = true
    · obtain ⟨status, hs⟩ := @memberOf_hashable _ radioStatus _ (h hf)
      simp only [radioObservation, RadioEvidence.read, if_pos hf, hs]
      exact ⟨_, rfl⟩
    · simp only [radioObservation, RadioEvidence.read, if_neg hf]
      exact ⟨_, rfl⟩

theorem radioObservation_error {a : Answer} (h : ¬ a.StatusHashable radioFields) :
    radioObservation a = .error .unhashable := by
  cases a with
  | raised => exact absurd trivial h
  | other => exact absurd trivial h
  | dict items =>
    obtain ⟨hf, hs⟩ := Classical.not_imp.mp h
    simp only [radioObservation, RadioEvidence.read, if_pos hf,
      memberOf_unhashable (Bool.not_eq_true _ ▸ hs)]
    rfl

theorem clean_iff {a : Answer} {radio : RadioEvidence} (h : radioObservation a = .ok radio) :
    a.Clean ↔ radio.clean = true := by
  constructor
  · rintro ⟨e, he, hc⟩
    rw [h] at he
    cases he
    exact hc
  · intro hc
    exact ⟨radio, h, hc⟩

/-- The loop over answers it can read ends with the evidence of the last one it asked for. -/
theorem stableRadio_ok {n : Nat} {within : List Answer} {last : Answer} {stable : Nat}
    (h : ∀ a ∈ asked n stable (within ++ [last]), a.StatusHashable radioFields) :
    ∃ radio ok a, stableRadio n stable within last = .ok (radio, ok) ∧
      (asked n stable (within ++ [last])).getLast? = some a ∧ radioObservation a = .ok radio := by
  induction within generalizing stable with
  | nil =>
    have ha : last ∈ asked n stable ([] ++ [last]) := by simp [asked]
    obtain ⟨radio, hr⟩ := radioObservation_ok (h last ha)
    let ok : Bool := n ≤ if radio.clean = true then stable + 1 else 0
    refine ⟨radio, ok, last, ?_, ?_, hr⟩
    · simp only [stableRadio, hr]
      rfl
    · simp [asked]
  | cons a within ih =>
    have ha : a ∈ asked n stable (a :: within ++ [last]) := by simp [asked]
    obtain ⟨radio, hr⟩ := radioObservation_ok (h a ha)
    have hc := clean_iff hr
    simp only [List.cons_append, asked, hc] at h ⊢
    generalize hs : (if radio.clean = true then stable + 1 else 0) = stable' at h ⊢
    by_cases hn : n ≤ stable'
    · refine ⟨radio, true, a, ?_, ?_, hr⟩
      · simp only [stableRadio, hr]
        show (if n ≤ (if radio.clean = true then stable + 1 else 0) then _ else _) = _
        rw [hs, if_pos hn]
        rfl
      · rw [if_pos hn]
        rfl
    · rw [if_neg hn] at h ⊢
      obtain ⟨radio', ok, b, hrun, hlast, hb⟩ := ih fun x hx => h x (List.mem_cons_of_mem a hx)
      refine ⟨radio', ok, b, ?_, ?_, hb⟩
      · simp only [stableRadio, hr]
        show (if n ≤ (if radio.clean = true then stable + 1 else 0) then _ else _) = _
        rw [hs, if_neg hn]
        exact hrun
      · rw [List.getLast?_cons, hlast]
        rfl

theorem stableRadio_error {n : Nat} {within : List Answer} {last : Answer} {stable : Nat}
    (h : ¬ ∀ a ∈ asked n stable (within ++ [last]), a.StatusHashable radioFields) :
    stableRadio n stable within last = .error .unhashable := by
  induction within generalizing stable with
  | nil =>
    have hl : ¬ last.StatusHashable radioFields := by simpa [asked] using h
    simp only [stableRadio, radioObservation_error hl]
    rfl
  | cons a within ih =>
    by_cases ha : a.StatusHashable radioFields
    · obtain ⟨radio, hr⟩ := radioObservation_ok ha
      have hc := clean_iff hr
      simp only [List.cons_append, asked, hc] at h
      generalize hs : (if radio.clean = true then stable + 1 else 0) = stable' at h
      by_cases hn : n ≤ stable'
      · rw [if_pos hn] at h
        exact absurd (by simpa using ha) h
      · rw [if_neg hn] at h
        simp only [stableRadio, hr]
        show (if n ≤ (if radio.clean = true then stable + 1 else 0) then _ else _) = _
        rw [hs, if_neg hn]
        apply ih
        intro hall
        apply h
        intro x hx
        rcases List.mem_cons.mp hx with rfl | hx
        · exact ha
        · exact hall x hx
    · simp only [stableRadio, radioObservation_error ha]
      rfl

end SwitchTrade.Release

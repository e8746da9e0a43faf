import SwitchTrade.Release.Steps

/-!
# The release is ordered and fails closed

Every step of a pass is allowed by the steps before it, whatever the probes answer. A pass
that does not verify the cleanup leaves the run in need of recovery unless it raises before
it has told the coordinator, and it raises only at the answers it does not survive.
-/

namespace SwitchTrade.Release

open InPlace
open Coordinator (Record Clock Order Value)

/-! ## The property -/

/-- What has to have been done in the pass before an event. -/
def Allowed (done : List Event) : Event → Prop
  | .leaseReleased => .checked .d8 true ∈ done ∧ .checked .d9 true ∈ done
  | .completed true =>
    .checked .d7 true ∈ done ∧ .checked .d8 true ∈ done ∧ .checked .d9 true ∈ done ∧
      .checked .d10 true ∈ done
  | _ => True

/-- Every event of a trace is allowed by those before it. -/
def Ordered : List Event → List Event → Prop
  | _, [] => True
  | done, e :: rest => Allowed done e ∧ Ordered (done ++ [e]) rest

/-- The state one pass leaves. -/
def passOn (py : Library) (c : Call) (w : World) : World :=
  after (release py c) { w with trace := [] }

/-- The pass is ordered, and the run of a pass that checked its resources and did not report
them verified requires recovery. -/
structure FailClosed (py : Library) (c : Call) (w : World) : Prop where
  ordered : Ordered [] (passOn py c w).trace
  recovers : ∀ ok, .checked .d7 ok ∈ (passOn py c w).trace →
    .completed true ∉ (passOn py c w).trace →
    ∃ r, (passOn py c w).run = some r ∧ r.recoveryRequired = true

variable {py : Library} {c : Call} {r : Record} {report : Report} {w : World}

/-! ## The pass, by its answers -/

theorem after_bind_ok {α β : Type} {m : Pass α} {f : α → Pass β} {w w' : World} {a : α}
    (h : m.run w = .ok a w') : after (m >>= f) w = after (f a) w' := by
  unfold after
  rw [run_bind_of_ok h]

theorem after_bind_error {α β : Type} {m : Pass α} {f : α → Pass β} {w w' : World} {e : Raised}
    (h : m.run w = .error e w') : after (m >>= f) w = w' :=
  after_error (run_bind_of_error h)

/-- The report after D7 and D8, and the state they leave. -/
structure Launched (report : Report) (w w' : World) (d7 d8 : Bool) : Prop where
  run : w'.run = w.run
  trace : w'.trace = w.trace ++ [.checked .d7 d7] ++ [.checked .d8 d8]
  bare : report.Bare
  tells : report.Tells
  fails : (d7 && d8) = false → report.failures ≠ []
  failsDiagnostic : d7 = false → report.failures ≠ []
  none : d7 = true → d8 = true → report.failures = []

/-- The report after the three checks, and the state they leave. -/
structure Checked (report : Report) (w w' : World) (radio : RadioEvidence) (d7 d8 d9 : Bool) :
    Prop where
  run : w'.run = w.run
  trace : w'.trace = w.trace ++ [.checked .d7 d7] ++ [.checked .d8 d8] ++ [.checked .d9 d9]
  radio : report.evidence.radio = some radio
  tells : report.Tells
  fails : (d7 && d8 && d9) = false → report.failures ≠ []
  failsDiagnostic : d7 = false → report.failures ≠ []
  none : d7 = true → d8 = true → d9 = true → report.failures = []

section

variable {d7 d8 d9 : Bool} {evidence : DiagnosticEvidence} {launch : LaunchEvidence}
  {radio : RadioEvidence}

theorem teardown_launch_error {e : Raised}
    (hd : diagnosticEvidence c.diagnostic (diagnosticMode r.identity.mode) = (evidence, d7))
    (hl : verifyLaunchAbsence c.launch = .error e) (hb : report.Bare) :
    (after (teardown py c r report) w).run = w.run ∧
      (after (teardown py c r report) w).trace = w.trace ++ [.checked .d7 d7] := by
  obtain ⟨report₁, h₁, -, -⟩ := diagnosticStep_run (w := w) hd hb
  unfold teardown
  rw [after_bind_ok h₁]
  show World.run (after (launchStep c report₁ >>= _) _) = _ ∧
    World.trace (after (launchStep c report₁ >>= _) _) = _
  rw [after_bind_error (launchStep_error hl)]
  exact ⟨rfl, rfl⟩

theorem teardown_launched
    (hd : diagnosticEvidence c.diagnostic (diagnosticMode r.identity.mode) = (evidence, d7))
    (hl : verifyLaunchAbsence c.launch = .ok (launch, d8)) (hb : report.Bare)
    (hnone : report.failures = []) :
    ∃ report' w', Launched report' w w' d7 d8 ∧
      after (teardown py c r report) w =
        after (radioStep c r d8 report' >>= fun x =>
          usbStep c r d8 x.2 x.1 >>= fun y => conclude py c y.1 d7 d8 x.2 y.2) w' := by
  obtain ⟨report₁, h₁, hb₁, ha₁⟩ := diagnosticStep_run (w := w) hd hb
  obtain ⟨report₂, h₂, hb₂, ha₂⟩ := launchStep_run (w := { w with
    trace := w.trace ++ [.checked .d7 d7], report := some report₁ }) hl hb₁
  refine ⟨report₂, { w with
    trace := w.trace ++ [.checked .d7 d7] ++ [.checked .d8 d8], report := some report₂ }, ?_, ?_⟩
  · refine ⟨rfl, rfl, hb₂, ?_, ?_, ?_, ?_⟩
    · apply ha₂.tells
      apply ha₁.tells
      intro f hf
      simp [hnone] at hf
    · intro hv
      cases h7 : d7 with
      | false => exact ha₂.grows (ha₁.fails h7)
      | true =>
        rw [h7, Bool.true_and] at hv
        exact ha₂.fails hv
    · intro h7
      exact ha₂.grows (ha₁.fails h7)
    · intro h7 h8
      rw [ha₂.keeps h8, ha₁.keeps h7, hnone]
  · unfold teardown
    rw [after_bind_ok h₁]
    show after (launchStep c report₁ >>= _) _ = _
    rw [after_bind_ok h₂]

theorem Launched.checked {report₂ report₃ : Report} {w₂ : World}
    (h : Launched report₂ w w₂ d7 d8) (ha : Advances report₂ report₃ d9)
    (hradio : report₃.evidence.radio = some radio) :
    Checked report₃ w
      { w₂ with
        trace := w₂.trace ++ [.checked .d9 d9]
        report := some report₃ } radio d7 d8 d9 where
  run := h.run
  trace := by
    show w₂.trace ++ _ = _
    rw [h.trace]
  radio := hradio
  tells := ha.tells h.tells
  fails hv := by
    cases h9 : d9 with
    | false => exact ha.fails h9
    | true =>
      rw [h9, Bool.and_true] at hv
      exact ha.grows (h.fails hv)
  failsDiagnostic h7 := ha.grows (h.failsDiagnostic h7)
  none h7 h8 h9 := by rw [ha.keeps h9, h.none h7 h8]

end

/-! ## From D10 to the end -/

section

variable {d7 d8 d9 d10 : Bool} {radio : RadioEvidence} {report' : Report} {w' : World}

/-- D11 of a report that can be written and whose first failure the coordinator takes. -/
theorem conclude_closed (hw : w.run = some r) (hr : Completable r) (h : report.renders = true)
    (htell : report.Tells) (hne : (d7 && d8 && d9 && d10) = false → report.failures ≠ []) :
    (after (conclude py c report d7 d8 d9 d10) w).trace =
        w.trace ++ [.completed (d7 && d8 && d9 && d10)] ∧
      ((d7 && d8 && d9 && d10) = false →
        ∃ r', (after (conclude py c report d7 d8 d9 d10) w).run = some r' ∧
          r'.recoveryRequired = true) := by
  refine ⟨conclude_trace h, ?_⟩
  intro hv
  rw [after_conclude h, hv]
  exact tell_failed (w := w.telling report false) hw hr (first_bounded htell (hne hv))

/-- The report after D10 can be written if what D10 put there can. -/
theorem Checked.renders {w₀ : World} (h : Checked report w₀ w radio d7 d8 d9)
    (hrender : radio.renders = true) {usb : UsbEvidence}
    (hradio : report'.evidence.radio = report.evidence.radio)
    (husb : report'.evidence.usb = some usb) : report'.renders = usb.renders := by
  simp [Report.renders, hradio, h.radio, husb, hrender]

theorem Checked.fails_of_advances {w₀ : World} (h : Checked report w₀ w radio d7 d8 d9)
    (ha : Advances report report' d10) (hv : (d7 && d8 && d9 && d10) = false) :
    report'.failures ≠ [] := by
  cases h10 : d10 with
  | false => exact ha.fails h10
  | true =>
    rw [h10, Bool.and_true] at hv
    exact ha.grows (h.fails hv)

/-- What D10 and D11 leave of a pass whose lease, if it is reached, is told. -/
theorem usb_told {w₀ : World} (h : Checked report w₀ w radio d7 d8 d9)
    (hrender : radio.renders = true) (hw : w.run = some r) (hr : Completable r)
    (hlease : softwareOnly r.identity.mode = false → (d8 && d9) = true →
      ∀ lease, c.lease = some lease → lease.Told d7) :
    ∃ mid d10, (mid = [] ∨ mid = [.leaseReleased] ∧ d8 = true ∧ d9 = true) ∧
      (after (usbStep c r d8 d9 report >>= fun x => conclude py c x.1 d7 d8 d9 x.2) w).trace =
        w.trace ++ mid ++ [.checked .d10 d10] ++ [.completed (d7 && d8 && d9 && d10)] ∧
      ((d7 && d8 && d9 && d10) = false → ∃ r',
        (after (usbStep c r d8 d9 report >>= fun x => conclude py c x.1 d7 d8 d9 x.2) w).run =
          some r' ∧ r'.recoveryRequired = true) := by
  by_cases h89 : (d8 && d9) = true
  · have h8 : d8 = true := (Bool.and_eq_true_iff.mp h89).1
    have h9 : d9 = true := (Bool.and_eq_true_iff.mp h89).2
    by_cases hs : softwareOnly r.identity.mode = true
    · obtain ⟨report', hrun, hradio, husb, hf⟩ := @usbStep_software c _ report w _ _
        h89 hs
      have ha : Advances report report' true := .passed hf
      rw [after_bind_ok hrun]
      refine ⟨[], true, .inl rfl, ?_⟩
      rw [List.append_nil]
      exact conclude_closed (w := { w with trace := w.trace ++ [.checked .d10 true] }) hw hr
        (h.renders hrender hradio husb) (ha.tells h.tells) (h.fails_of_advances ha)
    · have hs' := Bool.not_eq_true _ ▸ hs
      cases hl : c.lease with
      | none =>
        obtain ⟨report', hrun, hradio, husb, ha⟩ := @usbStep_missing _ _ report w _ _
          h89 hs' hl
        rw [after_bind_ok hrun]
        refine ⟨[], false, .inl rfl, ?_⟩
        rw [List.append_nil]
        exact conclude_closed (w := { w with trace := w.trace ++ [.checked .d10 false] }) hw hr
          (h.renders hrender hradio husb) (ha.tells h.tells) (h.fails_of_advances ha)
      | some lease =>
        have htold := hlease hs' h89 lease hl
        obtain ⟨report', hrun, hradio, husb, hf⟩ := @usbStep_lease _ _ report w _ _ _
          h89 hs' hl
        have ha := htold.advances hf h.failsDiagnostic
        rw [after_bind_ok hrun]
        refine ⟨[.leaseReleased], (usbOutcome lease).2.1, .inr ⟨rfl, h8, h9⟩, ?_⟩
        exact conclude_closed (w := { w with
          trace := w.trace ++ [.leaseReleased] ++ [.checked .d10 (usbOutcome lease).2.1] }) hw hr
          ((h.renders hrender hradio husb).trans htold.renders) (ha.tells h.tells)
          (h.fails_of_advances ha)
  · have h89' := Bool.not_eq_true _ ▸ h89
    obtain ⟨report', hrun, hradio, husb, hf⟩ := @usbStep_skipped c r report w _ _
      h89'
    rw [after_bind_ok hrun]
    refine ⟨[], false, .inl rfl, ?_⟩
    rw [List.append_nil]
    have hne : report'.failures ≠ [] := by
      rw [hf]
      apply h.fails
      rw [Bool.and_assoc, h89', Bool.and_false]
    exact conclude_closed (w := { w with trace := w.trace ++ [.checked .d10 false] }) hw hr
      (h.renders hrender hradio husb) (fun f hh => h.tells f (hf ▸ hh)) fun _ => hne

/-- A lease the pass does not survive: it is given back, and the run stays as it is. -/
theorem usb_untold {w₀ : World} {lease : LeaseAnswer}
    (h : Checked report w₀ w radio d7 d8 d9) (hrender : radio.renders = true)
    (hw : w.run = some r) (h89 : (d8 && d9) = true)
    (hs : softwareOnly r.identity.mode = false) (hl : c.lease = some lease)
    (huntold : ¬ lease.Told d7) :
    ∃ d10 tail, (tail = [] ∨ tail = [.completed false]) ∧
      (after (usbStep c r d8 d9 report >>= fun x => conclude py c x.1 d7 d8 d9 x.2) w).trace =
        w.trace ++ [.leaseReleased] ++ [.checked .d10 d10] ++ tail ∧
      (after (usbStep c r d8 d9 report >>= fun x => conclude py c x.1 d7 d8 d9 x.2) w).run =
        some r := by
  obtain ⟨report', hrun, hradio, husb, hf⟩ := @usbStep_lease _ _ report w _ _ _ h89 hs hl
  have hrenders := h.renders hrender hradio husb
  rw [after_bind_ok hrun]
  cases lease with
  | other => exact absurd trivial huntold
  | dict items =>
    have hno : report'.renders = false := hrenders.trans (Bool.not_eq_true _ ▸ huntold)
    refine ⟨(usbOutcome (.dict items)).2.1, [], .inl rfl, ?_⟩
    rw [conclude_unrendered hno, List.append_nil]
    exact ⟨rfl, hw⟩
  | raised e =>
    obtain ⟨h7, hm⟩ := Classical.not_imp.mp huntold
    obtain ⟨h8, h9⟩ := Bool.and_eq_true_iff.mp h89
    have hfirst : report'.first = e.message := by
      simp [Report.first, hf, h.none h7 h8 h9, leaseFailures, usbOutcome]
    have hv : (d7 && d8 && d9 && (usbOutcome (.raised e)).2.1) = false := Bool.and_false _
    refine ⟨(usbOutcome (.raised e)).2.1, [.completed false], .inr rfl, ?_, ?_⟩
    · rw [conclude_trace hrenders, hv]
    · rw [after_conclude hrenders, hv]
      exact tell_refused hw (hfirst ▸ hm)

end

/-! ## The theorem -/

/-- The pass gets to its probes: D6 has passed, and the run is in its cleanup. -/
def Enters (py : Library) (c : Call) (w : World) (r : Record) : Prop :=
  w.run = some r ∧ r.settled = false ∧
    ∃ x w', (admission py c r).run { w with trace := [] } = .ok x w'

/-- What the rest of a pass leaves, whatever its probes answer: it is ordered, and ends in
one of two ways. -/
structure TornDown (w u : World) (told : Prop) : Prop where
  ordered : Ordered [] u.trace
  checked : ∃ ok, .checked .d7 ok ∈ u.trace
  recovers : told → .completed true ∉ u.trace → ∃ r, u.run = some r ∧ r.recoveryRequired = true
  stuck : ¬ told → .completed true ∉ u.trace ∧ u.run = w.run

theorem TornDown.of_stuck {u : World} {told : Prop} {d7 : Bool} {rest : List Event} (hn : ¬ told)
    (hu : u.run = w.run) (htrace : u.trace = .checked .d7 d7 :: rest)
    (hordered : Ordered [] (.checked .d7 d7 :: rest)) (hno : .completed true ∉ rest) :
    TornDown w u told where
  ordered := htrace ▸ hordered
  checked := ⟨d7, by simp [htrace]⟩
  recovers ht := absurd ht hn
  stuck _ := ⟨by simpa [htrace] using hno, hu⟩

theorem radioEvidence_ok {n : Nat} {software : Bool} {answers : Option RadioAnswers}
    (h : software = false → ∀ a, answers = some a →
      ∀ x ∈ asked n 0 (a.within ++ [a.last]), x.StatusHashable radioFields) :
    ∃ radio d9, radioEvidence n software answers = .ok (radio, d9) ∧
      ((software = true ∨ answers = none) ∧ radio.renders = true ∨
        ∃ a x, software = false ∧ answers = some a ∧
          (asked n 0 (a.within ++ [a.last])).getLast? = some x ∧
            radioObservation x = .ok radio) := by
  cases software with
  | true => exact ⟨_, _, rfl, .inl ⟨.inl rfl, by decide +kernel⟩⟩
  | false =>
    cases answers with
    | none => exact ⟨_, _, rfl, .inl ⟨.inr rfl, by decide +kernel⟩⟩
    | some a =>
      obtain ⟨radio, ok, x, hrun, hlast, hx⟩ := stableRadio_ok (h rfl a rfl)
      exact ⟨radio, ok, hrun, .inr ⟨a, x, rfl, rfl, hlast, hx⟩⟩

theorem radioEvidence_error {n : Nat} {software : Bool} {answers : Option RadioAnswers}
    (h : ¬ (software = false → ∀ a, answers = some a →
      ∀ x ∈ asked n 0 (a.within ++ [a.last]), x.StatusHashable radioFields)) :
    radioEvidence n software answers = .error .unhashable := by
  obtain ⟨hs, hall⟩ := Classical.not_imp.mp h
  obtain ⟨a, hsome⟩ := not_forall.mp hall
  obtain ⟨ha, hno⟩ := Classical.not_imp.mp hsome
  subst hs ha
  exact stableRadio_error hno

/-- The trace of a pass that comes to its end. -/
theorem ordered_end {d7 d8 d9 d10 : Bool} {mid : List Event}
    (hmid : mid = [] ∨ mid = [.leaseReleased] ∧ d8 = true ∧ d9 = true) :
    Ordered [] ([.checked .d7 d7, .checked .d8 d8, .checked .d9 d9] ++ mid ++
      [.checked .d10 d10] ++ [.completed (d7 && d8 && d9 && d10)]) := by
  rcases hmid with rfl | ⟨rfl, rfl, rfl⟩
  · cases d7 <;> cases d8 <;> cases d9 <;> cases d10 <;> simp [Ordered, Allowed]
  · cases d7 <;> cases d10 <;> simp [Ordered, Allowed]

/-- The answers the three checks took, and what is left to be told of the pass. -/
theorem told_iff {d7 : Bool} {evidence : DiagnosticEvidence} {launch : LaunchEvidence}
    {d8 d9 : Bool} {radio : RadioEvidence}
    (hd : diagnosticEvidence c.diagnostic (diagnosticMode r.identity.mode) = (evidence, d7))
    (hl : c.launch.StatusHashable launchFields)
    (hv : verifyLaunchAbsence c.launch = .ok (launch, d8))
    (hr : softwareOnly r.identity.mode = false → ∀ a, c.radio = some a →
      a.Told c.stableSamples)
    (hradio : radioEvidence c.stableSamples (softwareOnly r.identity.mode) c.radio =
      .ok (radio, d9)) :
    c.Told r ↔ (softwareOnly r.identity.mode = false → (d8 && d9) = true →
      ∀ lease, c.lease = some lease → lease.Told d7) := by
  constructor
  · intro h hs h89 lease hlease
    obtain ⟨h8, h9⟩ := Bool.and_eq_true_iff.mp h89
    have := h.lease hs ⟨launch, radio, h8 ▸ hv, h9 ▸ hradio⟩ lease hlease
    rwa [hd] at this
  · intro h
    refine ⟨hl, hr, ?_⟩
    rintro hs ⟨launch', radio', hv', hradio'⟩ lease hlease
    rw [hd]
    rw [hv] at hv'
    rw [hradio] at hradio'
    cases hv'
    cases hradio'
    exact h hs rfl lease hlease

theorem teardown_tornDown (hw : w.run = some r) (ht : w.trace = []) (hb : report.Bare)
    (hnone : report.failures = []) (hr : Completable r) :
    TornDown w (after (teardown py c r report) w) (c.Told r) := by
  generalize hd : diagnosticEvidence c.diagnostic (diagnosticMode r.identity.mode) = x
  obtain ⟨evidence, d7⟩ := x
  by_cases hl : c.launch.StatusHashable launchFields
  swap
  · -- D8 raises
    obtain ⟨hrun, htrace⟩ := @teardown_launch_error py _ _ _ w _ _ _ hd
      (verifyLaunchAbsence_error hl) hb
    rw [ht] at htrace
    exact .of_stuck (fun told => hl told.launch) hrun htrace (by simp [Ordered, Allowed]) (by simp)
  obtain ⟨launch, hv⟩ := verifyLaunchAbsence_ok hl
  obtain ⟨report₂, w₂, hlaunched, hafter₂⟩ := @teardown_launched py _ _ _ w _ _ _ _ hd hv hb hnone
  have htrace₂ := hlaunched.trace
  rw [ht, List.nil_append] at htrace₂
  rw [hafter₂]
  by_cases hh : softwareOnly r.identity.mode = false → ∀ a, c.radio = some a →
      ∀ x ∈ asked c.stableSamples 0 (a.within ++ [a.last]), x.StatusHashable radioFields
  swap
  · -- D9 raises
    rw [after_bind_error (radioStep_error (radioEvidence_error hh))]
    exact .of_stuck (fun told => hh fun hs a ha => (told.radio hs a ha).1) hlaunched.run htrace₂
      (by simp [Ordered, Allowed]) (by simp)
  obtain ⟨radio, d9, hradio, hlast⟩ := radioEvidence_ok hh
  by_cases hrender : radio.renders = true
  swap
  · -- the report of D9 cannot be written
    rw [after_bind_error (radioStep_unrendered hradio (Bool.not_eq_true _ ▸ hrender))]
    have htrace : w₂.trace ++ [.checked .d9 d9] =
        .checked .d7 d7 :: [.checked .d8 launch.verified, .checked .d9 d9] := by
      rw [htrace₂]
      rfl
    refine .of_stuck ?_ hlaunched.run htrace (by simp [Ordered, Allowed]) (by simp)
    intro told
    rcases hlast with ⟨-, h⟩ | ⟨a, x, hs, ha, hx, hobs⟩
    · exact hrender h
    · exact hrender ((told.radio hs a ha).2 x hx radio hobs)
  obtain ⟨report', hradioStep, ⟨hevidence, -⟩, hadvance⟩ := @radioStep_run c _ _ w₂ _
    launch.verified _ hradio hrender hlaunched.bare.2
  have hchecked := hlaunched.checked hadvance hevidence
  have htold := told_iff hd hl hv (fun hs a ha => ⟨hh hs a ha, fun x hx radio' hobs => by
    rcases hlast with ⟨h | h, -⟩ | ⟨a', x', hs', ha', hx', hobs'⟩
    · rw [hs] at h
      cases h
    · rw [ha] at h
      cases h
    · rw [ha] at ha'
      cases ha'
      rw [hx] at hx'
      cases hx'
      rw [hobs] at hobs'
      cases hobs'
      exact hrender⟩) hradio
  have htrace' := hchecked.trace
  rw [ht, List.nil_append] at htrace'
  rw [after_bind_ok hradioStep]
  by_cases hlease : softwareOnly r.identity.mode = false → (launch.verified && d9) = true →
      ∀ lease, c.lease = some lease → lease.Told d7
  · obtain ⟨mid, d10, hmid, htrace, hrecovers⟩ := @usb_told py _ _ _ _ _ _ _ _ _ hchecked hrender
      (hchecked.run.trans hw) hr hlease
    rw [htrace'] at htrace
    refine ⟨htrace ▸ ordered_end hmid, ⟨d7, by simp [htrace]⟩, ?_, ?_⟩
    · intro _ hno
      apply hrecovers
      by_contra hv
      rw [Bool.not_eq_false] at hv
      exact hno (by simp [htrace, hv])
    · intro hn
      exact absurd (htold.mpr hlease) hn
  · have hn : ¬ c.Told r := fun told => hlease (htold.mp told)
    obtain ⟨hs, hlease⟩ := Classical.not_imp.mp hlease
    obtain ⟨h89, hlease⟩ := Classical.not_imp.mp hlease
    obtain ⟨lease, hlease⟩ := not_forall.mp hlease
    obtain ⟨hc, huntold⟩ := Classical.not_imp.mp hlease
    obtain ⟨d10, tail, htail, htrace, hrun⟩ := @usb_untold py _ _ _ _ _ _ _ _ _ _ hchecked hrender
      (hchecked.run.trans hw) h89 hs hc huntold
    obtain ⟨h8, h9⟩ := Bool.and_eq_true_iff.mp h89
    rw [htrace'] at htrace
    refine .of_stuck hn (hrun.trans hw.symm) htrace ?_ ?_
    · rcases htail with rfl | rfl <;> simp [Ordered, Allowed, h8, h9]
    · rcases htail with rfl | rfl <;> simp

theorem KeepsTrace.reads {α : Type} {m : Pass α} (h : Reads m) : KeepsTrace m := by
  intro w
  rw [h w]

theorem KeepsTrace.admission (r : Record) : KeepsTrace (admission py c r) := by
  have hretried : KeepsTrace (retried py c r) := by
    unfold retried
    split
    · exact .command _ _
    · exact .pure _
  have hbegun (r : Record) : KeepsTrace (begun py c r) := by
    unfold begun
    split
    · exact .command _ _
    · exact .pure _
  unfold Release.admission
  apply hretried.bind
  intro r₁
  apply (KeepsTrace.reads (.raiseIf _ _)).bind
  intro _
  apply (KeepsTrace.reads .get).bind
  intro w
  apply (KeepsTrace.reads (.check _)).bind
  intro d5
  apply (KeepsTrace.reads (.raiseIf _ _)).bind
  intro _
  apply (KeepsTrace.reads (.check _)).bind
  intro state
  apply (hbegun r₁).bind
  intro r₂
  exact (KeepsTrace.persist _).bind fun _ => .pure _

theorem KeepsTrace.finish (runId : Coordinator.RunId) (r : Record) :
    KeepsTrace (finishTerminalReport runId r) := by
  unfold finishTerminalReport
  apply (KeepsTrace.reads .get).bind
  intro w
  apply (KeepsTrace.reads (.check _)).bind
  intro report
  apply (KeepsTrace.reads (.raiseIf _ _)).bind
  intro _
  apply KeepsTrace.bind (fun _ => rfl)
  intro _
  split
  · exact (KeepsTrace.persist _).bind fun _ => .pure _
  · exact .pure _

/-- A pass that does not come to its probes leaves no trace. -/
theorem passOn_trace_nil (h : ∀ r, ¬ Enters py c w r) : (passOn py c w).trace = [] := by
  have hget : (get : Pass World).run { w with trace := [] } = .ok { w with trace := [] }
    { w with trace := [] } := rfl
  unfold passOn release
  rw [after_bind_ok hget]
  cases hw : w.run with
  | none => rfl
  | some r =>
    show World.trace (after (if r.settled = true then _ else _) _) = []
    cases hs : r.settled with
    | true => exact (KeepsTrace.finish c.runId r).bind (fun _ => .pure _) _
    | false =>
      rw [if_neg (by simp)]
      cases ha : (admission py c r).run { w with trace := [] } with
      | ok x w' => exact absurd ⟨hw, hs, x, w', ha⟩ (h r)
      | error e w' =>
        rw [hw] at ha
        rw [after_bind_error ha, ← after_error ha]
        exact KeepsTrace.admission r _

/-- A pass that does is its admission and the rest of it. -/
theorem passOn_tornDown (h : Enters py c w r) :
    ∃ w', w'.run.map Record.recoveryRequired = some r.recoveryRequired ∧
      TornDown w' (passOn py c w) (c.Told r) := by
  obtain ⟨hw, hs, ⟨r', report⟩, w', ha⟩ := h
  have hadmitted := admit_ok (w := { w with trace := [] }) hw ha
  have hget : (get : Pass World).run { w with trace := [] } = .ok { w with trace := [] }
    { w with trace := [] } := rfl
  refine ⟨w', by rw [hadmitted.run, Option.map_some, hadmitted.recovery], ?_⟩
  have htold : c.Told r ↔ c.Told r' := by
    have hid := hadmitted.identity
    constructor
    · rintro ⟨hl, hr, hlease⟩
      refine ⟨hl, ?_, ?_⟩
      · rwa [hid]
      · unfold Call.Absent at hlease ⊢
        rwa [hid]
    · rintro ⟨hl, hr, hlease⟩
      refine ⟨hl, ?_, ?_⟩
      · rwa [hid] at hr
      · unfold Call.Absent at hlease ⊢
        rwa [hid] at hlease
  have heq : passOn py c w = after (teardown py c r' report) w' := by
    unfold passOn release
    rw [after_bind_ok hget]
    simp only [hw]
    show after (if r.settled = true then _ else _) _ = _
    rw [hw] at ha
    rw [hs, if_neg (by simp), after_bind_ok ha]
  rw [heq, propext htold]
  exact teardown_tornDown hadmitted.run hadmitted.trace hadmitted.bare hadmitted.none
    hadmitted.completable

/-- A pass is ordered and fails closed if and only if, when it comes to its probes, the run
is in need of recovery already or no answer makes the pass raise. -/
theorem release_fails_closed (py : Library) (c : Call) (w : World) :
    FailClosed py c w ↔ ∀ r, Enters py c w r → r.recoveryRequired = true ∨ c.Told r := by
  constructor
  · intro h r hr
    obtain ⟨w', hw', htorn⟩ := passOn_tornDown hr
    by_cases told : c.Told r
    · exact .inr told
    · obtain ⟨hno, hrun⟩ := htorn.stuck told
      obtain ⟨ok, hok⟩ := htorn.checked
      obtain ⟨r', hr', hrec⟩ := h.recovers ok hok hno
      left
      rw [← hrun, hr', Option.map_some, hrec] at hw'
      exact (Option.some.inj hw').symm
  · intro h
    by_cases hr : ∃ r, Enters py c w r
    · obtain ⟨r, hr⟩ := hr
      obtain ⟨w', hw', htorn⟩ := passOn_tornDown hr
      refine ⟨htorn.ordered, ?_⟩
      intro ok _ hno
      by_cases told : c.Told r
      · exact htorn.recovers told hno
      · obtain ⟨-, hrun⟩ := htorn.stuck told
        have hrec := (h r hr).resolve_right told
        rw [← hrun, hrec] at hw'
        exact Option.map_eq_some_iff.mp hw'
    · have hnil := passOn_trace_nil (not_exists.mp hr)
      refine ⟨by rw [hnil]; trivial, ?_⟩
      intro ok hok
      rw [hnil] at hok
      cases hok

/-! ## A status that cannot be hashed -/

/-- A canceled run whose closing intent is recorded, bound to the seat of the first member. -/
def canceledRun : Record :=
  { Coordinator.startRecord "0.3.0" .normal (some "adapter") (some "usb") "run" "t" with
    phase := .closing
    currentGate := some "D1_CLOSING_INTENT"
    functional := ⟨.canceled, some "CONNECTION_CANCELED", some "The connection was canceled."⟩
    identity :=
      { Coordinator.startIdentity "0.3.0" .normal (some "adapter") (some "usb") with
        bound
          | .roomId => some (.text "room")
          | .attemptId => some (.text "attempt")
          | .authoritySeat => some (.text "member_a")
          | _ => none } }

/-- The evidence of a clean D5, and the digest both sides carry. -/
def cleanEvidence : Authority.DEvidence := ⟨true, true, true, true, true, false⟩

def measured : D5Payload := ⟨"attempt", 1, .memberA, "run", 1, "digest", cleanEvidence⟩

def terminalSide : Authority.DSideReport := ⟨"run", 1, "digest", cleanEvidence, 0⟩

def terminalRoom : RoomView :=
  ⟨"room", some ⟨"attempt", .canceled, some
    { activationGeneration := 1
      intentGeneration := 1
      outcome := .canceled
      primaryFailureCode := none
      lastPassedGate := "C_SIDE_READY"
      initiatedBySeat := .memberA
      startedAt := 0
      deadlineAt := 30
      sides := ⟨some terminalSide, some terminalSide⟩
      barrierStatus := .twoSideTerminal
      cleanupStatus := .verified
      secondaryFailureCode := none
      terminalizedAt := some 0 }⟩⟩

/-- The fields of a launch probe, all true, under a status. -/
def launchAnswer (status : PyValue) : Answer :=
  .dict [(.text "status", status), (.text "endpoint_exited", .bool true),
    (.text "wrapper_exited", .bool true), (.text "children_absent", .bool true),
    (.text "token_absent", .bool true), (.text "session_absent", .bool true)]

def quietRadio : Answer :=
  .dict [(.text "status", .text "quiescent"), (.text "owned_interfaces", .int 0),
    (.text "driver_threads", .int 0), (.text "phy_active", .bool false)]

def returnedLease : LeaseAnswer :=
  .dict [(.text "prior_state_restored", .bool true), (.text "windows_state_verified", .bool true),
    (.text "linux_state_verified", .bool true), (.text "detached_by_run", .bool true)]

/-- A pass over the canceled run whose launch probe answers with a status. -/
def launchCall (status : PyValue) : Call :=
  { runId := "run"
    room := terminalRoom
    diagnostic := none
    launch := launchAnswer status
    radio := some ⟨[quietRadio, quietRadio], quietRadio⟩
    lease := some returnedLease
    stableSamples := 3
    begun := ⟨"t", "t"⟩
    completed := ⟨"t", "t"⟩ }

def canceledWorld : World := ⟨some canceledRun, .state measured, none, []⟩

def plainLibrary : Library := ⟨⟨some, id⟩, fun _ _ _ _ => none⟩

/-- With the status the probe is to give, the pass runs to its end. -/
example : (passOn plainLibrary (launchCall (.text "absent")) canceledWorld).trace =
    [.checked .d7 true, .checked .d8 true, .checked .d9 true, .leaseReleased,
      .checked .d10 true, .completed true] := by decide +kernel

/-- A launch probe that answers `{"status": [], …}` stops the pass after D7, and the run is
left in its cleanup without a need of recovery. -/
theorem unhashable_status_escapes :
    ¬ FailClosed plainLibrary (launchCall (.object false true)) canceledWorld := by
  intro h
  have htrace : (passOn plainLibrary (launchCall (.object false true)) canceledWorld).trace =
      [.checked .d7 true] := by decide +kernel
  have hrun : (passOn plainLibrary (launchCall (.object false true)) canceledWorld).run.map
      Record.recoveryRequired = some false := by decide +kernel
  obtain ⟨r, hr, hrec⟩ := h.recovers true (by simp [htrace]) (by simp [htrace])
  rw [hr, Option.map_some, hrec] at hrun
  cases hrun

end SwitchTrade.Release

import SwitchTrade.Release.Answers

/-!
# The steps of a pass

What each statement of `release` returns and leaves: one lemma for a step that goes through,
one for each way it raises.
-/

namespace SwitchTrade.Release

open InPlace
open Coordinator (Record Clock Order Value)

/-! ## The statements of a pass -/

theorem note_run (e : Event) (w : World) :
    (note e).run w = .ok ⟨⟩ { w with trace := w.trace ++ [e] } := rfl

theorem persist_run {report : Report} (h : report.renders = true) (w : World) :
    (persist report).run w = .ok ⟨⟩ { w with report := some report } := by
  simp only [persist, raiseIf, h, Bool.true_eq_false, if_false]
  rfl

theorem persist_unrendered {report : Report} (h : report.renders = false) (w : World) :
    (persist report).run w = .error .unrendered w := by
  simp only [persist, raiseIf, h, if_true]
  rfl

theorem get_run (w : World) : (get : Pass World).run w = .ok w w := rfl

theorem check_ok {α : Type} {x : Except Raised α} {a : α} (h : x = .ok a) (w : World) :
    (check x : Pass α).run w = .ok a w := by
  rw [h]
  rfl

theorem check_error {α : Type} {x : Except Raised α} {e : Raised} (h : x = .error e)
    (w : World) : (check x : Pass α).run w = .error e w := by
  rw [h]
  rfl

theorem after_ok {α : Type} {m : Pass α} {w w' : World} {a : α} (h : m.run w = .ok a w') :
    after m w = w' := by
  unfold after
  rw [h]

theorem after_error {α : Type} {m : Pass α} {w w' : World} {e : Raised}
    (h : m.run w = .error e w') : after m w = w' := by
  unfold after
  rw [h]

/-- The coordinator takes the message as the reason of a failed cleanup. -/
def Bounded (message : String) : Prop :=
  (Coordinator.bounded (.text message) "message" 500).isOk = true

/-- The coordinator takes the first failure of the report. -/
def Report.Tells (report : Report) : Prop :=
  ∀ f, report.failures.head? = some f → Bounded f.message

/-- What a step does to the report: it can be written if it could be, no failure is lost, a
step that is not verified adds one, and one that is adds none. -/
structure Advances (a b : Report) (ok : Bool) : Prop where
  tells : a.Tells → b.Tells
  grows : a.failures ≠ [] → b.failures ≠ []
  fails : ok = false → b.failures ≠ []
  keeps : ok = true → b.failures = a.failures

theorem Advances.passed {a b : Report} (h : b.failures = a.failures) : Advances a b true where
  tells ht f hf := ht f (h ▸ hf)
  grows ha := h ▸ ha
  fails hc := by cases hc
  keeps _ := h

theorem Advances.failed {a b : Report} {code message : String} {gate : Gate}
    (h : b.failures = a.failures ++ [⟨code, gate, message⟩]) (hm : Bounded message) :
    Advances a b false where
  tells ht f hf := by
    rw [h] at hf
    cases ha : a.failures with
    | nil =>
      rw [ha] at hf
      cases hf
      exact hm
    | cons first rest =>
      rw [ha] at hf
      cases hf
      exact ht f (by rw [ha]; rfl)
  grows _ := by simp [h]
  fails _ := by simp [h]
  keeps hc := by cases hc

/-- The end of a step: it is noted, and the report is written. -/
theorem step_run {report : Report} (e : Event) (ok : Bool) (w : World)
    (h : report.renders = true) :
    (note e >>= fun _ => persist report >>= fun _ => pure (report, ok)).run w =
      .ok (report, ok) { w with trace := w.trace ++ [e], report := some report } := by
  rw [run_bind_of_ok (note_run e w), run_bind_of_ok (persist_run h _)]
  rfl

theorem step_unrendered {report : Report} (e : Event) (ok : Bool) (w : World)
    (h : report.renders = false) :
    (note e >>= fun _ => persist report >>= fun _ => pure (report, ok)).run w =
      .error .unrendered { w with trace := w.trace ++ [e] } := by
  rw [run_bind_of_ok (note_run e w), run_bind_of_error (persist_unrendered h _)]

variable {py : Library} {c : Call} {r : Record} {report : Report} {w : World}

/-- The report before D9: nothing in it is beyond `json.dump`. -/
def Report.Bare (report : Report) : Prop :=
  report.evidence.radio = none ∧ report.evidence.usb = none

theorem Report.Bare.renders (h : report.Bare) : report.renders = true := by
  simp [Report.renders, h.1, h.2]

theorem diagnosticStep_run {d7 : Bool} {evidence : DiagnosticEvidence}
    (hd : diagnosticEvidence c.diagnostic (diagnosticMode r.identity.mode) = (evidence, d7))
    (h : report.Bare) :
    ∃ report', (diagnosticStep c r report).run w = .ok (report', d7)
        { w with trace := w.trace ++ [.checked .d7 d7], report := some report' } ∧
      report'.Bare ∧ Advances report report' d7 := by
  unfold diagnosticStep
  rw [hd]
  cases d7 with
  | true => exact ⟨_, step_run _ _ w (Report.Bare.renders h), h, .passed rfl⟩
  | false => exact ⟨_, step_run _ _ w (Report.Bare.renders h), h, .failed rfl rfl⟩

theorem launchStep_run {launch : LaunchEvidence} {d8 : Bool}
    (hv : verifyLaunchAbsence c.launch = .ok (launch, d8)) (h : report.Bare) :
    ∃ report', (launchStep c report).run w = .ok (report', d8)
        { w with trace := w.trace ++ [.checked .d8 d8], report := some report' } ∧
      report'.Bare ∧ Advances report report' d8 := by
  unfold launchStep
  rw [run_bind_of_ok (check_ok hv w)]
  cases d8 with
  | true => exact ⟨_, step_run _ _ w (Report.Bare.renders h), h, .passed rfl⟩
  | false => exact ⟨_, step_run _ _ w (Report.Bare.renders h), h, .failed rfl rfl⟩

theorem launchStep_error {e : Raised} (hv : verifyLaunchAbsence c.launch = .error e) :
    (launchStep c report).run w = .error e w :=
  run_bind_of_error (check_error hv w)

/-- The evidence of the radio is the first that may not be writable. -/
theorem radioStep_run {radio : RadioEvidence} {d8 d9 : Bool}
    (hv : radioEvidence c.stableSamples (softwareOnly r.identity.mode) c.radio = .ok (radio, d9))
    (hrender : radio.renders = true) (husb : report.evidence.usb = none) :
    ∃ report', (radioStep c r d8 report).run w = .ok (report', d9)
        { w with trace := w.trace ++ [.checked .d9 d9], report := some report' } ∧
      (report'.evidence.radio = some radio ∧ report'.evidence.usb = none) ∧
      Advances report report' d9 := by
  unfold radioStep
  rw [run_bind_of_ok (check_ok hv w)]
  have h (gate : Gate) (failures : List ReportFailure) : Report.renders { report with
      evidence := { report.evidence with radio := some radio }
      lastPassedGate := gate, failures := failures } = true := by
    simp [Report.renders, hrender, husb]
  cases d9 with
  | true =>
    cases d8 with
    | true => exact ⟨_, step_run _ _ w (h .d9 report.failures), ⟨rfl, husb⟩, .passed rfl⟩
    | false =>
      exact ⟨_, step_run _ _ w (h report.lastPassedGate report.failures), ⟨rfl, husb⟩, .passed rfl⟩
  | false =>
    cases d8 with
    | true => exact ⟨_, step_run _ _ w (h _ _), ⟨rfl, husb⟩, .failed rfl rfl⟩
    | false => exact ⟨_, step_run _ _ w (h _ _), ⟨rfl, husb⟩, .failed rfl rfl⟩

theorem radioStep_error {e : Raised} {d8 : Bool}
    (hv : radioEvidence c.stableSamples (softwareOnly r.identity.mode) c.radio = .error e) :
    (radioStep c r d8 report).run w = .error e w :=
  run_bind_of_error (check_error hv w)

theorem radioStep_unrendered {radio : RadioEvidence} {d8 d9 : Bool}
    (hv : radioEvidence c.stableSamples (softwareOnly r.identity.mode) c.radio = .ok (radio, d9))
    (hrender : radio.renders = false) :
    (radioStep c r d8 report).run w =
      .error .unrendered { w with trace := w.trace ++ [.checked .d9 d9] } := by
  unfold radioStep
  rw [run_bind_of_ok (check_ok hv w)]
  have h (gate : Gate) (failures : List ReportFailure) : Report.renders { report with
      evidence := { report.evidence with radio := some radio }
      lastPassedGate := gate, failures := failures } = false := by
    simp [Report.renders, hrender]
  cases d9 <;> cases d8 <;> exact step_unrendered _ _ w (h _ _)

/-! ## D10 -/

theorem usbStep_skipped {d8 d9 : Bool} (h : (d8 && d9) = false) :
    ∃ report', (usbStep c r d8 d9 report).run w = .ok (report', false)
        { w with trace := w.trace ++ [.checked .d10 false] } ∧
      report'.evidence.radio = report.evidence.radio ∧
      report'.evidence.usb = some .initial ∧ report'.failures = report.failures := by
  unfold usbStep
  rw [h]
  exact ⟨_, rfl, rfl, rfl, rfl⟩

theorem usbStep_software {d8 d9 : Bool} (h : (d8 && d9) = true)
    (hs : softwareOnly r.identity.mode = true) :
    ∃ report', (usbStep c r d8 d9 report).run w = .ok (report', true)
        { w with trace := w.trace ++ [.checked .d10 true] } ∧
      report'.evidence.radio = report.evidence.radio ∧
      report'.evidence.usb = some ⟨.bool true, .bool true, .bool true, .bool false⟩ ∧
      report'.failures = report.failures := by
  unfold usbStep usbRelease
  rw [h, if_pos rfl, if_pos hs]
  exact ⟨_, rfl, rfl, rfl, rfl⟩

theorem usbStep_missing {d8 d9 : Bool} (h : (d8 && d9) = true)
    (hs : softwareOnly r.identity.mode = false) (hl : c.lease = none) :
    ∃ report', (usbStep c r d8 d9 report).run w = .ok (report', false)
        { w with trace := w.trace ++ [.checked .d10 false] } ∧
      report'.evidence.radio = report.evidence.radio ∧
      report'.evidence.usb = some .initial ∧ Advances report report' false := by
  unfold usbStep usbRelease
  rw [h, if_pos rfl, if_neg (by simp [hs]), hl]
  exact ⟨_, rfl, rfl, rfl, .failed rfl rfl⟩

theorem passIf_evidence (ok : Bool) (gate : Gate) (report : Report) :
    (if ok = true then report.pass gate else report).evidence = report.evidence := by
  cases ok <;> rfl

theorem passIf_failures (ok : Bool) (gate : Gate) (report : Report) :
    (if ok = true then report.pass gate else report).failures = report.failures := by
  cases ok <;> rfl

/-- The failures D10 reports of a lease. -/
def leaseFailures (lease : LeaseAnswer) : List ReportFailure :=
  if (usbOutcome lease).2.1 = false ∧ (usbOutcome lease).2.2.isEmpty then [usbUnverified]
  else (usbOutcome lease).2.2

theorem usbStep_lease {d8 d9 : Bool} {lease : LeaseAnswer} (h : (d8 && d9) = true)
    (hs : softwareOnly r.identity.mode = false) (hl : c.lease = some lease) :
    ∃ report', (usbStep c r d8 d9 report).run w = .ok (report', (usbOutcome lease).2.1)
        { w with trace := w.trace ++ [.leaseReleased] ++ [.checked .d10 (usbOutcome lease).2.1] } ∧
      report'.evidence.radio = report.evidence.radio ∧
      report'.evidence.usb = some (usbOutcome lease).1 ∧
      report'.failures = report.failures ++ leaseFailures lease := by
  unfold usbStep usbRelease
  rw [h, if_pos rfl, if_neg (by simp [hs]), hl]
  exact ⟨_, rfl, by rw [passIf_evidence], by rw [passIf_evidence]; rfl,
    by rw [passIf_failures]; rfl⟩

/-- What the lease says can be written, if the pass survives it. -/
theorem LeaseAnswer.Told.renders {lease : LeaseAnswer} {d7 : Bool} (h : lease.Told d7) :
    (usbOutcome lease).1.renders = true := by
  cases lease with
  | dict items => exact h
  | other => rfl
  | raised e => rfl

/-- A lease that is not verified adds its failure, and one the pass survives adds none the
coordinator refuses as the first. -/
theorem LeaseAnswer.Told.advances {lease : LeaseAnswer} {d7 : Bool} {report report' : Report}
    (h : lease.Told d7) (hf : report'.failures = report.failures ++ leaseFailures lease)
    (h7 : d7 = false → report.failures ≠ []) : Advances report report' (usbOutcome lease).2.1 := by
  cases lease with
  | dict items =>
    cases hok : (UsbEvidence.ofItems items).returned with
    | true =>
      have hl : leaseFailures (.dict items) = [] := by simp [leaseFailures, usbOutcome, hok]
      rw [hl, List.append_nil] at hf
      simpa [usbOutcome, hok] using Advances.passed hf
    | false =>
      have hl : leaseFailures (.dict items) = [usbUnverified] := by
        simp [leaseFailures, usbOutcome, hok]
      rw [hl] at hf
      simpa [usbOutcome, hok] using Advances.failed hf rfl
  | other => exact .failed (a := report) hf rfl
  | raised e =>
    cases d7 with
    | true => exact .failed (a := report) hf (h rfl)
    | false =>
      have hne := h7 rfl
      obtain ⟨f, fs, hfs⟩ := List.exists_cons_of_ne_nil hne
      have hhead : report'.failures.head? = report.failures.head? := by
        rw [hf, hfs]
        rfl
      exact {
        tells := fun ht g hg => ht g (hhead ▸ hg)
        grows := fun _ => by simp [hf, hfs]
        fails := fun _ => by simp [hf, hfs]
        keeps := fun hok => by cases hok }

/-! ## D11 -/

theorem command_error {order : Order} {clock : Clock} {r' : Record}
    {e : Coordinator.ConnectionCoordinatorError} (hw : w.run = some r)
    (h : (order.handler py.coordinator clock.now).run r = .error e r') :
    (command py order clock).run w =
      .error (.coordinator e.code e.message) { w with run := some r' } := by
  unfold command
  rw [run_bind_of_ok (get_run w), hw]
  simp only [h]
  rfl

theorem command_persist {order : Order} {clock : Clock} {r' : Record} {event : String}
    (hw : w.run = some r)
    (h : (order.handler py.coordinator clock.now).run r = .ok (.persist event) r') :
    (command py order clock).run w = .ok (r'.stamp event clock.persisted)
      { w with run := some (r'.stamp event clock.persisted) } := by
  unfold command
  rw [run_bind_of_ok (get_run w), hw]
  simp only [h]
  rfl

theorem command_copy {order : Order} {clock : Clock} {r' : Record} (hw : w.run = some r)
    (h : (order.handler py.coordinator clock.now).run r = .ok .copy r') :
    (command py order clock).run w = .ok r' { w with run := some r' } := by
  unfold command
  rw [run_bind_of_ok (get_run w), hw]
  simp only [h]
  rfl

/-- The call leaves the trace of the pass as it is. -/
def KeepsTrace {α : Type} (m : Pass α) : Prop := ∀ w, (after m w).trace = w.trace

theorem KeepsTrace.bind {α β : Type} {m : Pass α} {f : α → Pass β} (hm : KeepsTrace m)
    (hf : ∀ a, KeepsTrace (f a)) : KeepsTrace (m >>= f) := by
  intro w
  refine after_bind (P := fun w' : World => w'.trace = w.trace) ?_ ?_
  · intro e t h
    exact after_error h ▸ hm w
  · intro a t h
    rw [hf a t]
    exact after_ok h ▸ hm w

theorem KeepsTrace.command (order : Order) (clock : Clock) :
    KeepsTrace (command py order clock) := by
  intro w
  cases hw : w.run with
  | none =>
    have : (Release.command py order clock).run w = .error (.coordinator
        Coordinator.runNotFound.code Coordinator.runNotFound.message) w := by
      unfold Release.command
      rw [run_bind_of_ok (get_run w), hw]
      rfl
    rw [after_error this]
  | some r =>
    cases h : (order.handler py.coordinator clock.now).run r with
    | error e r' => rw [after_error (command_error hw h)]
    | ok fin r' =>
      cases fin with
      | copy => rw [after_ok (command_copy hw h)]
      | persist event => rw [after_ok (command_persist hw h)]

theorem KeepsTrace.persist (report : Report) : KeepsTrace (persist report) := by
  intro w
  cases h : report.renders with
  | true => rw [after_ok (persist_run h w)]
  | false => rw [after_error (persist_unrendered h w)]

theorem KeepsTrace.pure {α : Type} (a : α) : KeepsTrace (pure a : Pass α) := fun _ => rfl

/-- The run may be completed: it is in cleanup, and has an outcome. -/
def Completable (r : Record) : Prop := r.phase = .cleaning ∧ r.functional.status ≠ .pending

theorem evidenceOf_cleanup (report : Report) (d7 d8 d9 d10 : Bool) :
    ∃ evidence, Coordinator.evidenceOf (cleanupEvidence report d7 d8 d9 d10) = .ok evidence :=
  ⟨[("d6_terminal", .bool true),
    ("d6_shared_cleanup_verified", .bool report.sharedCleanupVerified),
    ("diagnostic_resources_released", .bool d7), ("endpoint_identity_absent", .bool d8),
    ("radio_stably_quiescent", .bool d9), ("usb_prior_state_restored", .bool d10)], rfl⟩

theorem Bounded.ok {message : String} (h : Bounded message) :
    Coordinator.bounded (.text message) "message" 500 = .ok message := by
  unfold Bounded at h
  cases hx : Coordinator.bounded (.text message) "message" 500 with
  | error e =>
    rw [hx] at h
    cases h
  | ok t =>
    simp only [Coordinator.bounded] at hx
    split at hx
    · cases hx
    · exact hx.symm ▸ rfl

theorem completeCleanup_refused {d7 d8 d9 d10 : Bool} {message now : String}
    (h : ¬ Bounded message) :
    ∃ e, (Coordinator.cmdCompleteCleanup (.bool false) (cleanupEvidence report d7 d8 d9 d10)
      (.text "D_LOCAL_CLEANUP_FAILED") (.text message) now).run r = .error e r := by
  obtain ⟨evidence, he⟩ := evidenceOf_cleanup report d7 d8 d9 d10
  cases hx : Coordinator.bounded (.text message) "message" 500 with
  | ok t => exact absurd (by unfold Bounded; rw [hx]; rfl) h
  | error e =>
    have hm : Coordinator.boundedOrNone (.text message) "message" 500 = .error e := by
      simp [Coordinator.boundedOrNone, hx]
    refine ⟨e, ?_⟩
    have hcode : Coordinator.codeOrNone (.text "D_LOCAL_CLEANUP_FAILED") "code" =
        .ok (some "D_LOCAL_CLEANUP_FAILED") := rfl
    unfold Coordinator.cmdCompleteCleanup
    rw [run_bind_of_ok (get_eq_ok.mpr ⟨rfl, rfl⟩),
      run_bind_of_ok
        (check_eq_ok.mpr ⟨(rfl : Coordinator.verifiedOf (.bool false) = .ok false), rfl⟩),
      run_bind_of_ok (check_eq_ok.mpr ⟨he, rfl⟩), run_bind_of_ok (check_eq_ok.mpr ⟨hcode, rfl⟩),
      run_bind_of_error (check_eq_error.mpr ⟨hm, rfl⟩)]

theorem completeCleanup_failed {d7 d8 d9 d10 : Bool} {message now : String}
    (hr : Completable r) (h : Bounded message) :
    ∃ evidence, (Coordinator.cmdCompleteCleanup (.bool false)
      (cleanupEvidence report d7 d8 d9 d10) (.text "D_LOCAL_CLEANUP_FAILED")
      (.text message) now).run r = .ok (.persist "cleanup_failed")
        (r.complete false evidence (some "D_LOCAL_CLEANUP_FAILED") (some message) now) := by
  obtain ⟨evidence, he⟩ := evidenceOf_cleanup report d7 d8 d9 d10
  refine ⟨evidence, ?_⟩
  have hm : Coordinator.boundedOrNone (.text message) "message" 500 = .ok (some message) := by
    simp [Coordinator.boundedOrNone, h.ok]
  have hcode : Coordinator.codeOrNone (.text "D_LOCAL_CLEANUP_FAILED") "code" =
      .ok (some "D_LOCAL_CLEANUP_FAILED") := rfl
  unfold Coordinator.cmdCompleteCleanup
  simp only [bind_eq_ok, get_eq_ok, check_eq_ok, he, hm, hcode, Coordinator.verifiedOf]
  refine ⟨r, r, ⟨rfl, rfl⟩, false, r, ⟨rfl, rfl⟩, evidence, r, ⟨rfl, rfl⟩, _, r, ⟨rfl, rfl⟩, _, r,
    ⟨rfl, rfl⟩, ?_⟩
  rw [if_neg (by simp [hr.1])]
  simp only [bind_eq_ok, raiseIf_eq_ok, modify_eq_ok, pure_eq_ok]
  exact ⟨⟨⟩, r, ⟨by simp [hr.1], rfl⟩, ⟨⟩, r, ⟨hr.2, rfl⟩, ⟨⟩, r, ⟨by simp, rfl⟩, ⟨⟩, _, rfl, rfl,
    rfl⟩

theorem last_renders (h : report.renders = true) (verified : Bool) :
    (report.last verified).renders = true := h

theorem conclude_unrendered {d7 d8 d9 d10 : Bool} (h : report.renders = false) :
    after (conclude py c report d7 d8 d9 d10) w = w := by
  have hlast : (report.last (d7 && d8 && d9 && d10)).renders = false := h
  exact after_error (run_bind_of_error (persist_unrendered hlast w))

/-- The state in which a pass tells the coordinator. -/
def World.telling (w : World) (report : Report) (verified : Bool) : World :=
  { w with report := some (report.last verified), trace := w.trace ++ [.completed verified] }

theorem after_conclude {d7 d8 d9 d10 : Bool} (h : report.renders = true) :
    after (conclude py c report d7 d8 d9 d10) w =
      after (tell py c (report.last (d7 && d8 && d9 && d10)) (d7 && d8 && d9 && d10)
        (cleanupEvidence (report.last (d7 && d8 && d9 && d10)) d7 d8 d9 d10))
        (w.telling report (d7 && d8 && d9 && d10)) := by
  unfold conclude after
  rw [run_bind_of_ok (persist_run (last_renders h _) w), run_bind_of_ok (note_run _ _)]
  rfl

theorem tell_trace {verified : Bool} {evidence : Coordinator.EvidenceArgument} :
    KeepsTrace (tell py c report verified evidence) := by
  unfold tell
  cases verified with
  | true =>
    apply (KeepsTrace.command _ _).bind
    intro terminal
    exact KeepsTrace.bind (fun _ => rfl) fun _ => (KeepsTrace.persist _).bind fun _ => .pure _
  | false => exact (KeepsTrace.command _ _).bind fun terminal => .pure _

theorem conclude_trace {d7 d8 d9 d10 : Bool} (h : report.renders = true) :
    (after (conclude py c report d7 d8 d9 d10) w).trace =
      w.trace ++ [.completed (d7 && d8 && d9 && d10)] := by
  rw [after_conclude h, tell_trace]
  rfl

/-- The message the coordinator is told. -/
def Report.first (report : Report) : String :=
  ((report.failures.take 16).head?.map ReportFailure.message).getD ""

theorem first_bounded (h : report.Tells) (hne : report.failures ≠ []) : Bounded report.first := by
  obtain ⟨f, fs, hf⟩ := List.exists_cons_of_ne_nil hne
  have hm := h f (by rw [hf]; rfl)
  simpa [Report.first, hf] using hm

section

variable {d7 d8 d9 d10 : Bool}

/-- A cleanup the coordinator is told has failed leaves the run in need of recovery. -/
theorem tell_failed (hw : w.run = some r) (hr : Completable r) (h : Bounded report.first) :
    ∃ r', (after (tell py c (report.last false) false
      (cleanupEvidence (report.last false) d7 d8 d9 d10)) w).run = some r' ∧
      r'.recoveryRequired = true := by
  obtain ⟨evidence, he⟩ := @completeCleanup_failed _ (report.last false) d7 d8 d9 d10 _
    c.completed.now hr h
  have hcommand := @command_persist py _ _ (.completeCleanup (.bool false)
    (cleanupEvidence (report.last false) d7 d8 d9 d10) (.text "D_LOCAL_CLEANUP_FAILED")
    (.text report.first)) c.completed _ _ hw he
  refine ⟨(r.complete false evidence (some "D_LOCAL_CLEANUP_FAILED") (some report.first)
    c.completed.now).stamp "cleanup_failed" c.completed.persisted, ?_, rfl⟩
  have hrun : (tell py c (report.last false) false
      (cleanupEvidence (report.last false) d7 d8 d9 d10)).run w = .ok (.failed, _) _ :=
    run_bind_of_ok hcommand
  rw [after_ok hrun]

/-- A message the coordinator refuses leaves the run as it is. -/
theorem tell_refused (hw : w.run = some r) (h : ¬ Bounded report.first) :
    (after (tell py c (report.last false) false
      (cleanupEvidence (report.last false) d7 d8 d9 d10)) w).run = some r := by
  obtain ⟨e, he⟩ := @completeCleanup_refused r (report.last false) d7 d8 d9 d10 _
    c.completed.now h
  have hcommand := @command_error py _ _ (.completeCleanup (.bool false)
    (cleanupEvidence (report.last false) d7 d8 d9 d10) (.text "D_LOCAL_CLEANUP_FAILED")
    (.text report.first)) c.completed _ _ hw he
  have hrun : (tell py c (report.last false) false
      (cleanupEvidence (report.last false) d7 d8 d9 d10)).run w = .error _ _ :=
    run_bind_of_error hcommand
  rw [after_error hrun]

end

/-! ## The admission of a pass -/

/-- What a pass that has passed D6 works on. -/
structure Admitted (r : Record) (w : World) (r' : Record) (report : Report) (w' : World) :
    Prop where
  run : w'.run = some r'
  trace : w'.trace = w.trace
  bare : report.Bare
  none : report.failures = []
  identity : r'.identity = r.identity
  recovery : r'.recoveryRequired = r.recoveryRequired
  completable : Completable r'

theorem d6_outcome {room : RoomView} {d5 : Option D5Payload} {state : Authority.DState}
    (h : d6 py room r d5 = .ok state) : r.functional.status ≠ .pending := by
  unfold d6 at h
  simp only [Fallible.bind_eq_ok, Fallible.orRaise_eq_ok, Fallible.raiseIf_eq_ok,
    Fallible.pure_eq_ok] at h
  obtain ⟨attempt, -, s, -, side, -, -, -, -, houtcome, -⟩ := h
  intro hp
  apply houtcome
  left
  simp [expectedOutcome, hp]

/-- The run after a command that takes it to its cleanup. -/
structure ToCleanup (r r' : Record) : Prop where
  phase : r'.phase = .cleaning
  identity : r'.identity = r.identity
  recovery : r'.recoveryRequired = r.recoveryRequired
  functional : r'.functional = r.functional

theorem retryCleanup_ok {fin : Coordinator.Finish} {r' : Record}
    (h : Coordinator.cmdRetryCleanup.run r = .ok fin r') : ToCleanup r r' := by
  unfold Coordinator.cmdRetryCleanup at h
  simp only [bind_eq_ok, get_eq_ok] at h
  obtain ⟨r, t, ⟨rfl, rfl⟩, h⟩ := h
  split at h
  · rename_i hp
    simp only [pure_eq_ok] at h
    obtain ⟨rfl, rfl⟩ := h
    exact ⟨hp, rfl, rfl, rfl⟩
  · simp only [bind_eq_ok, raiseIf_eq_ok, modify_eq_ok, pure_eq_ok] at h
    obtain ⟨-, t, ⟨-, rfl⟩, -, t, rfl, rfl, rfl⟩ := h
    exact ⟨rfl, rfl, rfl, rfl⟩

theorem beginCleanup_ok {fin : Coordinator.Finish} {r' : Record}
    (h : Coordinator.cmdBeginCleanup.run r = .ok fin r') : ToCleanup r r' := by
  unfold Coordinator.cmdBeginCleanup at h
  simp only [bind_eq_ok, get_eq_ok] at h
  obtain ⟨r, t, ⟨rfl, rfl⟩, h⟩ := h
  split at h
  · rename_i hp
    simp only [pure_eq_ok] at h
    obtain ⟨rfl, rfl⟩ := h
    exact ⟨hp, rfl, rfl, rfl⟩
  · simp only [bind_eq_ok, raiseIf_eq_ok, modify_eq_ok, pure_eq_ok] at h
    obtain ⟨-, t, ⟨-, rfl⟩, -, t, rfl, rfl, rfl⟩ := h
    exact ⟨rfl, rfl, rfl, rfl⟩

/-- A command that returns leaves its answer as the run, and nothing else changed. -/
theorem command_ok {order : Order} {clock : Clock} {r' : Record} {w' : World}
    (hw : w.run = some r) (h : (command py order clock).run w = .ok r' w') :
    w' = { w with run := some r' } ∧ ∃ fin t,
      (order.handler py.coordinator clock.now).run r = .ok fin t ∧
      (r' = t ∨ ∃ event, r' = t.stamp event clock.persisted) := by
  cases hx : (order.handler py.coordinator clock.now).run r with
  | error e t =>
    rw [command_error hw hx] at h
    cases h
  | ok fin t =>
    cases fin with
    | copy =>
      rw [command_copy hw hx] at h
      cases h
      exact ⟨rfl, _, _, rfl, .inl rfl⟩
    | persist event =>
      rw [command_persist hw hx] at h
      cases h
      exact ⟨rfl, _, _, rfl, .inr ⟨event, rfl⟩⟩

/-- A command of a pass is the command of a coordinator that holds the run. -/
theorem command_call {order : Order} {clock : Clock} {host : Coordinator.Host}
    {p : Coordinator.Process} (hw : w.run = some r) (hp : p.current = some r)
    (hid : Coordinator.requireRun py.coordinator (some r) (.text r.runId) = .ok r) :
    ((host.call py.coordinator p (.onRun (.text r.runId) order) clock).2.process.bind
      Coordinator.Process.current) = (after (command py order clock) w).run := by
  unfold Coordinator.Host.call Coordinator.handle
  simp only [hp, hid]
  cases hx : (order.handler py.coordinator clock.now).run r with
  | error e t => rw [after_error (command_error hw hx)]; rfl
  | ok fin t =>
    cases fin with
    | copy => rw [after_ok (command_copy hw hx)]; rfl
    | persist event => rw [after_ok (command_persist hw hx)]; rfl

theorem ToCleanup.stamped {r' t : Record} {utc : String} (h : ToCleanup r t)
    (hs : r' = t ∨ ∃ event, r' = t.stamp event utc) : ToCleanup r r' := by
  rcases hs with rfl | ⟨event, rfl⟩
  · exact h
  · exact ⟨h.phase, h.identity, h.recovery, h.functional⟩

theorem retried_ok {r' : Record} {w' : World} (hw : w.run = some r)
    (h : (retried py c r).run w = .ok r' w') :
    w' = { w with run := some r' } ∧ r'.identity = r.identity ∧
      r'.recoveryRequired = r.recoveryRequired := by
  unfold retried at h
  split at h
  · obtain ⟨hw', fin, t, ht, hs⟩ := command_ok hw h
    have hc := (retryCleanup_ok ht).stamped hs
    exact ⟨hw', hc.identity, hc.recovery⟩
  · obtain ⟨rfl, rfl⟩ := pure_eq_ok.mp h
    exact ⟨by rw [← hw], rfl, rfl⟩

theorem begun_ok {r' : Record} {w' : World} (hw : w.run = some r)
    (hphase : ¬ (r.phase ≠ .closing ∧ r.phase ≠ .cleaning))
    (hf : r.functional.status ≠ .pending) (h : (begun py c r).run w = .ok r' w') :
    w' = { w with run := some r' } ∧ r'.identity = r.identity ∧
      r'.recoveryRequired = r.recoveryRequired ∧ Completable r' := by
  unfold begun at h
  split at h
  · obtain ⟨hw', fin, t, ht, hs⟩ := command_ok hw h
    have hc := (beginCleanup_ok ht).stamped hs
    exact ⟨hw', hc.identity, hc.recovery, hc.phase, hc.functional ▸ hf⟩
  · rename_i hn
    obtain ⟨rfl, rfl⟩ := pure_eq_ok.mp h
    have hp : r.phase = .cleaning := by
      by_contra hp
      exact hphase ⟨hn, hp⟩
    exact ⟨by rw [← hw], rfl, rfl, hp, hf⟩

theorem admit_ok {r' : Record} {w' : World} (hw : w.run = some r)
    (h : (admission py c r).run w = .ok (r', report) w') : Admitted r w r' report w' := by
  unfold admission at h
  simp only [bind_eq_ok, raiseIf_eq_ok, get_eq_ok, check_eq_ok] at h
  obtain ⟨r₁, w₁, h₁, -, t, ⟨hphase, rfl⟩, w₂, t, ⟨rfl, rfl⟩, d5, t, ⟨-, rfl⟩, -, t, ⟨-, rfl⟩,
    state, t, ⟨hd6, rfl⟩, r₂, w₂, h₂, u, w₃, h₃, h⟩ := h
  obtain ⟨rfl, hid₁, hrec₁⟩ := retried_ok hw h₁
  obtain ⟨rfl, hid₂, hrec₂, hcomplete⟩ := begun_ok rfl hphase (d6_outcome hd6) h₂
  have hbare : (Report.initial c.runId r₂ state).Bare := ⟨rfl, rfl⟩
  rw [persist_run hbare.renders] at h₃
  cases h₃
  obtain ⟨he, rfl⟩ := pure_eq_ok.mp h
  cases he
  exact ⟨rfl, rfl, hbare, rfl, hid₂.trans hid₁, hrec₂.trans hrec₁, hcomplete⟩

end SwitchTrade.Release

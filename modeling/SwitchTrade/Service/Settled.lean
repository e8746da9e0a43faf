import SwitchTrade.Service.Step

/-!
# Late events and finishes

`_cmd_event` and `_cmd_finished` do not look at the phase, so what arrives for a run that is
terminal with verified cleanup is carried out like anything else. Which events and finishes
leave the outcome of such a run as it is can be told from the record and the message.
-/

namespace SwitchTrade.Service

/-! ## Events -/

/-- An event that a settled run survives. -/
def Event.Harmless (r : Record) : Event → Prop
  | .phase target _ _ _ => target ∈ [none, some "", some terminalPhase]
  | .checkpoint _ => False
  | .checkpointCleared => False
  | .cleanupStarted => False
  | .watchdogFailed failure => failure = none ∨ r.functional.failure ≠ none
  | _ => True

/-- A finish that says of a settled run what the run says already. -/
structure Confirms (r : Record) (report : Report) (failure : Option RawFailure) : Prop where
  cleanup : report.cleanupStatus = some "verified"
  failure : r.functional.failure ≠ none ∨ (failure = none ∧ report.primaryFailure = none)
  silent : report.functionalStatus ∈ [none, some ""] →
    r.functional.status = if r.functional.failure = none then "interrupted" else "failed"
  status : ∀ status, report.functionalStatus = some status → status ≠ "" →
    r.functional.status =
      if r.functional.failure ≠ none ∧ status = "canceled" then "failed" else status

/-- The command has nothing new to say of a settled run. -/
def Command.Timely (r : Record) : Command → Prop
  | .event runId value => r.runId = runId → value.Harmless r
  | .finished runId report failure =>
    r.runId = runId → Confirms r (Report.orEmpty report) failure
  | _ => True

theorem orElse_eq {value : Option String} {default : String} :
    orElse value default = default ↔ value ∈ [none, some "", some default] := by
  cases value with
  | none => simp [orElse]
  | some text =>
    by_cases he : text = ""
    · simp [orElse, he]
    · simp [orElse, he]

theorem failureOf_eq_none {component : String} {value : Option RawFailure} :
    failureOf component value = none ↔ value = none := by
  cases value <;> simp [failureOf]

/-- An event after the end keeps the outcome exactly if it is harmless. -/
theorem event_harmless_iff {r r' : Record} {value : Event} (hs : r.Settled)
    (h : r.onEvent value = .ok r') : r'.outcome = r.outcome ↔ value.Harmless r := by
  obtain ⟨hp, hst, hv⟩ := hs
  cases value with
  | phase target gate last peer =>
    cases h
    show Outcome.mk (orElse target r.phase) r.functional r.cleanup = ⟨_, _, _⟩ ↔ _
    rw [hp]
    constructor
    · intro ho
      exact orElse_eq.mp (congrArg Outcome.phase ho)
    · intro ho
      rw [orElse_eq.mpr ho]
  | checkpoint checkpoint =>
    cases h
    have hne : "awaiting_user" ≠ terminalPhase := by decide
    exact ⟨fun ho => absurd ((congrArg Outcome.phase ho).trans hp) hne, fun hf => hf.elim⟩
  | checkpointCleared =>
    cases h
    have hne : "running" ≠ terminalPhase := by decide
    exact ⟨fun ho => absurd ((congrArg Outcome.phase ho).trans hp) hne, fun hf => hf.elim⟩
  | cleanupStarted =>
    cases h
    have hne : "cleaning" ≠ terminalPhase := by decide
    exact ⟨fun ho => absurd ((congrArg Outcome.phase ho).trans hp) hne, fun hf => hf.elim⟩
  | authority room =>
    cases room with
    | none => cases h
    | some room =>
      cases h
      exact ⟨fun _ => trivial, fun _ => rfl⟩
  | role role =>
    cases h
    exact ⟨fun _ => trivial, fun _ => rfl⟩
  | endpoint identity =>
    cases h
    exact ⟨fun _ => trivial, fun _ => rfl⟩
  | other name =>
    cases h
    exact ⟨fun _ => trivial, fun _ => rfl⟩
  | watchdogFailed failure =>
    unfold Record.onEvent at h
    by_cases hf : r.functional.failure = none
    · simp only [if_pos hf] at h
      cases h
      constructor
      · intro ho
        have hfail : failureOf "endpoint" failure = r.functional.failure :=
          congrArg (fun o => o.functional.failure) ho
        rw [hf] at hfail
        exact .inl (failureOf_eq_none.mp hfail)
      · rintro (rfl | hne)
        · show Outcome.mk r.phase { r.functional with failure := none } r.cleanup = r.outcome
          rw [← hf]
          rfl
        · exact absurd hf hne
    · simp only [if_neg hf] at h
      cases h
      exact ⟨fun _ => .inr hf, fun _ => rfl⟩

/-- The only event that raises is an `authority` without a room. -/
theorem onEvent_error {r : Record} {value : Event} {e : ConnectionRunServiceError}
    (h : r.onEvent value = .error e) : value = .authority none := by
  unfold Record.onEvent at h
  split at h
  case h_5 =>
    split at h
    · rfl
    · cases h
  case h_8 =>
    split at h
    · cases h
    · cases h
  all_goals cases h

theorem orElse_silent {value : Option String} {default : String} (h : value ∈ [none, some ""]) :
    orElse value default = default := by
  rcases List.mem_cons.mp h with rfl | h
  · rfl
  · cases List.mem_singleton.mp h
    rfl

theorem orElse_given {text default : String} (h : text ≠ "") :
    orElse (some text) default = text := by
  show (if text = "" then default else text) = text
  rw [if_neg h]

theorem endStatus_silent {failure : Option Failure} {status : Option String}
    (h : status ∈ [none, some ""]) :
    endStatus failure status = if failure = none then "interrupted" else "failed" := by
  unfold endStatus
  simp only [orElse_silent h]
  cases failure with
  | none => rfl
  | some f => rfl

theorem endStatus_given {failure : Option Failure} {status : String} (h : status ≠ "") :
    endStatus failure (some status) =
      if failure ≠ none ∧ status = "canceled" then "failed" else status := by
  unfold endStatus
  simp only [orElse_given h]
  cases failure with
  | none => rfl
  | some f => simp

theorem endFailure_eq {recorded : Option Failure} {report : Report}
    {failure : Option RawFailure} :
    endFailure recorded report failure = recorded ↔
      recorded ≠ none ∨ (failure = none ∧ report.primaryFailure = none) := by
  cases recorded with
  | some first => simp [endFailure]
  | none =>
    cases failure with
    | none =>
      simp [endFailure, failureOf_eq_none, show failureOf "connection-service" none = none from rfl]
    | some value => simp [endFailure, failureOf]

theorem orElse_verified {status : Option String} :
    orElse status "failed" = "verified" ↔ status = some "verified" := by
  constructor
  · intro hs
    cases status with
    | none => exact absurd hs (by decide)
    | some text =>
      by_cases he : text = ""
      · subst he
        exact absurd hs (by decide)
      · rw [orElse_given he] at hs
        rw [hs]
  · rintro rfl
    rfl

theorem endCleanup_eq {cleanup : Cleanup} {status : Option String}
    (hst : cleanup.status = "verified") (hv : cleanup.verified = true) :
    endCleanup cleanup status = cleanup ↔ status = some "verified" := by
  constructor
  · intro h
    exact orElse_verified.mp ((congrArg Cleanup.status h).trans hst)
  · rintro rfl
    obtain ⟨status, verified, failures⟩ := cleanup
    cases hst
    cases hv
    rfl

/-- A second end keeps the outcome exactly if it confirms it. -/
theorem finish_confirms_iff {r : Record} {report : Option Report} {failure : Option RawFailure}
    (hs : r.Settled) :
    (r.onFinished report failure).outcome = r.outcome ↔
      Confirms r (Report.orEmpty report) failure := by
  obtain ⟨hp, hst, hv⟩ := hs
  generalize hrep : Report.orEmpty report = rep
  have hout : (r.onFinished report failure).outcome =
      ⟨if (endCleanup r.cleanup rep.cleanupStatus).verified then terminalPhase else "cleaning",
        ⟨endStatus (endFailure r.functional.failure rep failure) rep.functionalStatus,
          endFailure r.functional.failure rep failure⟩,
        endCleanup r.cleanup rep.cleanupStatus⟩ := by
    rw [← hrep]
    rfl
  rw [hout]
  constructor
  · intro ho
    have hcleanup : endCleanup r.cleanup rep.cleanupStatus = r.cleanup :=
      congrArg Outcome.cleanup ho
    have hfailure : endFailure r.functional.failure rep failure = r.functional.failure :=
      congrArg (fun o => o.functional.failure) ho
    have hstatus : endStatus (endFailure r.functional.failure rep failure)
        rep.functionalStatus = r.functional.status :=
      congrArg (fun o => o.functional.status) ho
    rw [hfailure] at hstatus
    refine ⟨(endCleanup_eq hst hv).mp hcleanup, endFailure_eq.mp hfailure, ?_, ?_⟩
    · intro hsilent
      rw [← hstatus, endStatus_silent hsilent]
    · intro status hgiven hne
      rw [← hstatus, hgiven, endStatus_given hne]
  · rintro ⟨hc, hf, hsilent, hgiven⟩
    rw [endFailure_eq.mpr hf, (endCleanup_eq hst hv).mpr hc]
    have hstatus : endStatus r.functional.failure rep.functionalStatus = r.functional.status := by
      cases hfs : rep.functionalStatus with
      | none =>
        have hmem : rep.functionalStatus ∈ [none, some ""] := by
          rw [hfs]
          exact List.mem_cons_self
        rw [hsilent hmem, ← hfs, endStatus_silent hmem]
      | some status =>
        by_cases hne : status = ""
        · have hmem : rep.functionalStatus ∈ [none, some ""] := by
            rw [hfs, hne]
            exact List.mem_cons_of_mem _ (List.mem_singleton.mpr rfl)
          rw [hsilent hmem, ← hfs, endStatus_silent hmem]
        · rw [hgiven status hfs hne, endStatus_given hne]
    rw [hstatus, hv]
    show Outcome.mk terminalPhase r.functional r.cleanup = _
    rw [← hp]
    rfl

/-- On a settled run a command leaves the outcome as it is exactly if it is timely. -/
theorem timely_iff {r : Record} {c : Command} (hs : r.Settled) :
    c.outcomeOn r = r.outcome ↔ c.Timely r := by
  cases c with
  | event runId value =>
    show (if r.runId = runId then _ else _) = r.outcome ↔ (r.runId = runId → value.Harmless r)
    by_cases hid : r.runId = runId
    · rw [if_pos hid]
      cases hev : r.onEvent value with
      | ok r' =>
        rw [event_harmless_iff hs hev]
        exact ⟨fun h _ => h, fun h => h hid⟩
      | error e =>
        constructor
        · intro _ _
          rw [onEvent_error hev]
          trivial
        · exact fun _ => rfl
    · rw [if_neg hid]
      exact ⟨fun _ h => absurd h hid, fun _ => rfl⟩
  | finished runId report failure =>
    show (if r.runId = runId then _ else _) = r.outcome ↔
      (r.runId = runId → Confirms r (Report.orEmpty report) failure)
    by_cases hid : r.runId = runId
    · rw [if_pos hid, finish_confirms_iff hs]
      exact ⟨fun h _ => h, fun h => h hid⟩
    · rw [if_neg hid]
      exact ⟨fun _ h => absurd h hid, fun _ => rfl⟩
  | start commandId expectedRevision request => exact ⟨fun _ => trivial, fun _ => rfl⟩
  | command commandId runId expectedRevision action checkpoint switchRole =>
    exact ⟨fun _ => trivial, fun _ => rfl⟩
  | retry commandId runId expectedRevision => exact ⟨fun _ => trivial, fun _ => rfl⟩
  | shutdown commandId runId expectedRevision => exact ⟨fun _ => trivial, fun _ => rfl⟩

end SwitchTrade.Service

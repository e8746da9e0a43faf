import Mathlib.Tactic.Common

/-!
# A diagnostic run

`DiagnosticRun` of `switchtrade/production_diagnostics.py`: the record of a run and what each call
makes of it. A call that changes the record writes it to the report afterwards; whether that
succeeds is the business of the caller here. Times are left out, and a JSON value is its text.
-/

namespace SwitchTrade.Diagnostics

/-- The `status` of a run; `inPart` is the text `partial`. -/
inductive RunStatus where
  | created
  | preflight
  | running
  | awaitingUser
  | cleaning
  | passed
  | inPart
  | failed
  | canceled
  deriving DecidableEq, Repr

/-- `TERMINAL`. -/
def RunStatus.terminal : RunStatus → Bool
  | .passed | .inPart | .failed | .canceled => true
  | _ => false

/-- The keys of `DEFINITIONS`. -/
def definitions : List String := ["automated", "room_detection", "ap_association", "recommended"]

structure Checkpoint where
  id : String
  instructions : String
  deriving DecidableEq, Repr

structure Stage where
  name : String
  status : String
  code : String
  message : String
  details : String
  deriving DecidableEq, Repr

inductive CleanupStatus where
  | pending
  | passed
  | failed
  | interrupted
  deriving DecidableEq, Repr

structure Cleanup where
  status : CleanupStatus
  recovered : Bool := false
  evidence : String := "\x7b\x7d"
  deriving DecidableEq, Repr

structure Failure where
  code : String
  message : String
  deriving DecidableEq, Repr

/-- `DiagnosticFailure`; of the failure before it only the code and the message are used. -/
structure DiagnosticFailure where
  code : String
  message : String
  resultLevel : Option String := none
  preceding : Option Failure := none
  deriving DecidableEq, Repr

structure Record where
  test : String
  status : RunStatus := .created
  currentStage : String := "created"
  checkpoint : Option Checkpoint := none
  stages : List Stage := []
  resultLevel : Option String := none
  cleanup : Cleanup := { status := .pending }
  failure : Option Failure := none
  precedingFailure : Option Failure := none
  deriving DecidableEq, Repr

/-- The arguments of `finish`. -/
structure Finish where
  status : RunStatus
  code : Option String := none
  message : Option String := none
  resultLevel : Option String := none
  cleanupOk : Bool := true
  cleanup : Option Cleanup := none
  precedingFailure : Option Failure := none
  deriving DecidableEq, Repr

structure DiagnosticRun where
  runId : Nat
  record : Record
  cancelRequested : Bool := false
  continuedCheckpoint : Option String := none
  deriving DecidableEq, Repr

/-- The status that `finish` writes. -/
def Finish.result (f : Finish) : RunStatus := if f.cleanupOk then f.status else .failed

namespace DiagnosticRun

/-- `transition`; after a terminal status there is no change. -/
def transition (run : DiagnosticRun) (status : RunStatus) (stage : String)
    (checkpoint : Option Checkpoint) : Option DiagnosticRun :=
  if run.record.status.terminal then none
  else some { run with record := { run.record with status, currentStage := stage, checkpoint } }

/-- `stage`. -/
def stage (run : DiagnosticRun) (value : Stage) : DiagnosticRun :=
  let stages := run.record.stages
  let stages :=
    match stages.findIdx? fun item => item.name = value.name with
    | none => stages ++ [value]
    | some i => stages.set i value
  { run with record := { run.record with stages, currentStage := value.name } }

/-- `set_result`. -/
def setResult (run : DiagnosticRun) (level : String) : DiagnosticRun :=
  { run with record := { run.record with resultLevel := some level } }

/-- `continue_run`; `none` is `False`. -/
def continueRun (run : DiagnosticRun) (checkpointId : String) : Option DiagnosticRun :=
  if run.record.status ≠ .awaitingUser ∨
      run.record.checkpoint.map Checkpoint.id ≠ some checkpointId then none
  else some { run with continuedCheckpoint := some checkpointId }

/-- `cancel`; `none` is `False`. -/
def cancel (run : DiagnosticRun) : Option DiagnosticRun :=
  if run.record.status.terminal then none
  else some { run with
    cancelRequested := true
    record := { run.record with
      status := .cleaning
      currentStage := "cleanup"
      checkpoint := none } }

/-- `finish`; `none` is the `ValueError`. -/
def finish (run : DiagnosticRun) (f : Finish) : Option DiagnosticRun :=
  if f.status.terminal then
    let code := if f.cleanupOk then f.code else some "DIAG_CLEANUP_FAILED"
    let message := if f.cleanupOk then f.message else some "Diagnostic cleanup did not complete."
    some { run with record := { run.record with
      status := f.result
      currentStage := if f.result = .passed then "completed" else "failed"
      checkpoint := none
      cleanup := f.cleanup.getD { status := if f.cleanupOk then .passed else .failed }
      resultLevel := f.resultLevel.or run.record.resultLevel
      failure :=
        match code.filter (· ≠ "") with
        | some code =>
          some { code, message := (message.filter (· ≠ "")).getD "Diagnostic failed." }
        | none => run.record.failure
      precedingFailure := f.precedingFailure.or run.record.precedingFailure } }
  else none

/-! ## What the calls leave -/

variable {run run' : DiagnosticRun}

theorem transition_eq_some {status : RunStatus} {name : String} {checkpoint : Option Checkpoint}
    (h : run.transition status name checkpoint = some run') :
    run.record.status.terminal = false ∧ run'.runId = run.runId ∧ run'.record.status = status ∧
      run'.record.cleanup = run.record.cleanup ∧
      run'.continuedCheckpoint = run.continuedCheckpoint := by
  unfold transition at h
  split at h
  · cases h
  · next hopen =>
      cases h
      exact ⟨Bool.eq_false_iff.mpr hopen, rfl, rfl, rfl, rfl⟩

theorem cancel_eq_some (h : run.cancel = some run') :
    run.record.status.terminal = false ∧ run'.runId = run.runId ∧
      run'.record.status = .cleaning ∧ run'.record.cleanup = run.record.cleanup ∧
      run'.continuedCheckpoint = run.continuedCheckpoint := by
  unfold cancel at h
  split at h
  · cases h
  · next hopen =>
      cases h
      exact ⟨Bool.eq_false_iff.mpr hopen, rfl, rfl, rfl, rfl⟩

theorem continueRun_eq_some {checkpointId : String}
    (h : run.continueRun checkpointId = some run') :
    run.record.status = .awaitingUser ∧
      run' = { run with continuedCheckpoint := some checkpointId } := by
  unfold continueRun at h
  split at h
  · cases h
  · next hopen =>
      cases h
      exact ⟨not_not.mp (not_or.mp hopen).1, rfl⟩

theorem finish_eq_some {f : Finish} (h : run.finish f = some run') :
    f.status.terminal = true ∧ run'.runId = run.runId ∧ run'.record.status = f.result := by
  unfold finish at h
  split at h
  · next hterminal =>
      cases h
      exact ⟨hterminal, rfl, rfl⟩
  · cases h

end DiagnosticRun

end SwitchTrade.Diagnostics

import SwitchTrade.Diagnostics.DiagnosticRun
import SwitchTrade.Transition.Dict
import SwitchTrade.Transition.Run

/-!
# The lifecycle of production diagnostics

`ProductionDiagnostics` of `switchtrade/production_diagnostics.py` with the thread of its worker,
the calls of the control service, and the two files: the report of each run and the recovery file.
One move is what one thread does while it holds a lock. A write may raise after the record in
memory was changed, and the process may end between any two moves.

`Lifecycle` is what the record, the events and the recovery file owe to a caller. The code keeps it
in every run whose moves are careful (`careful_lifecycle`): `finish` guards neither against another
terminal status nor against a cancellation, `transition` not against the latter, `await_continue`
takes a continue that came too late for an earlier one, and `start` has made its run the active one
before the recovery file is written and the thread runs.
-/

namespace SwitchTrade.Diagnostics

open Transition

/-- The recovery file. -/
structure Recovery where
  runId : Nat
  status : String
  recoveryError : Option String := none
  deriving DecidableEq, Repr

/-- Where the thread of the worker is: not started, in the worker, in the loop of an
`await_continue` or after it, in the containment of what the worker raised, before the last block,
or gone. -/
inductive Phase where
  | idle
  | starting
  | working
  | awaiting (checkpointId : String) (number : Nat)
  | resuming (checkpointId : String)
  | raised (error : DiagnosticFailure ⊕ String)
  | closing
  | ended
  deriving DecidableEq, Repr

/-- There is a thread for the run, or there will be. -/
def Phase.busy : Phase → Bool
  | .idle | .ended => false
  | _ => true

/-- What happened so far: a worker took its first step, a status was given to a record, a
cancellation was accepted, a continue that was accepted at the checkpoint of one number was consumed
by the await of another, a cleanup status became `passed`, a `start` raised and left an active run
behind or not. -/
inductive Event where
  | started (run : Nat)
  | status (run : Nat) (status : RunStatus)
  | canceled (run : Nat)
  | consumed (run accepted await : Nat)
  | cleanupPassed (run : Nat)
  | startRaised (leaves : Bool)
  deriving DecidableEq, Repr

/-- The process and the files. `run` is the run of the last `start`, `active` says that
`self.active` is it. Checkpoints are numbered as they are shown (`shows`); `shownAt` is the number
of the last one, `acceptedAt` the one it had when a continue was accepted. -/
structure State where
  live : Bool := false
  run : Option DiagnosticRun := none
  active : Bool := false
  worker : Phase := .idle
  cleanupIncomplete : Bool := false
  recovery : Option Recovery := none
  reports : Dict Nat Record := .empty
  nextRun : Nat := 0
  shows : Nat := 0
  shownAt : Nat := 0
  acceptedAt : Nat := 0
  log : List Event := []

/-- How the part of `start` under the lock ends: `DiagnosticRun` raises, the recovery file cannot be
written, or both succeed. -/
inductive Began where
  | runFails
  | recoveryFails
  | writes
  deriving DecidableEq, Repr

/-- What a thread does under a lock; `ok` says that its write succeeds. -/
inductive Move where
  | boot (ok : Bool)
  | crash
  | completeRecovery (evidence : String) (writes unlinks : Bool)
  | failRecovery (message : String) (ok : Bool)
  | updateRecovery (runId : Nat) (status : String) (ok : Bool)
  | start (test : String) (began : Began)
  | launch (ok : Bool)
  | transition (status : RunStatus) (stage : String) (checkpoint : Option Checkpoint) (ok : Bool)
  | stage (value : Stage) (ok : Bool)
  | setResult (level : String) (ok : Bool)
  | finish (f : Finish) (ok : Bool)
  | await (checkpoint : Checkpoint) (ok : Bool)
  | resume
  | resumed (ok : Bool)
  | awaitCanceled
  | awaitTimeout
  | workerRaises (error : DiagnosticFailure ⊕ String)
  | workerReturns
  | contain (ok : Bool)
  | close (ok : Bool)
  | continueRun (runId : Nat) (checkpointId : String)
  | cancel (runId : Nat) (ok : Bool)
  deriving DecidableEq, Repr

/-- The `finish` of `execute` after the worker raised a `DiagnosticFailure`, or an exception of
another type. -/
def containment : DiagnosticFailure ⊕ String → Finish
  | .inl error =>
    { status := if error.code = "DIAG_CANCELED" then .canceled else .failed
      code := some error.code
      message := some error.message
      resultLevel := error.resultLevel
      cleanupOk := error.code ≠ "DIAG_CLEANUP_FAILED"
      precedingFailure := error.preceding }
  | .inr typeName =>
    { status := .failed
      code := some "DIAG_INTERNAL_ERROR"
      message := some ("The diagnostic stopped unexpectedly (" ++ typeName ++ ").")
      cleanupOk := false }

namespace State

def emit (s : State) (events : List Event) : State := { s with log := s.log ++ events }

/-- The record of a run is changed and written to its report, and the worker goes on. -/
def put (s : State) (run : DiagnosticRun) (ok : Bool) (events : List Event) (worker : Phase) :
    State :=
  { s with
    run := some run
    reports := if ok then s.reports.set run.runId run.record else s.reports
    worker := worker
    log := s.log ++ events }

/-- The events of `finish`. -/
def finishEvents (run : DiagnosticRun) : List Event :=
  .status run.runId run.record.status ::
    if run.record.cleanup.status = .passed then [.cleanupPassed run.runId] else []

/-- A `start` that raises before there is a run. -/
def refused (s : State) : State := s.emit [.startRaised false]

/-- The part of `start` under the lock. -/
def start (s : State) (test : String) (began : Began) : State :=
  if test ∉ definitions then s.refused
  else if s.cleanupIncomplete || s.active then s.refused
  else
    let run : DiagnosticRun := { runId := s.nextRun, record := { test } }
    let made : State := { s with
      run := some run
      active := true
      worker := .idle
      reports := s.reports.set run.runId run.record
      nextRun := s.nextRun + 1
      log := s.log ++ [.status run.runId .created] }
    match began with
    | .runFails => s.refused
    | .recoveryFails => made.emit [.startRaised true]
    | .writes =>
      { made with
        recovery := some { runId := run.runId, status := "active" }
        worker := .starting }

/-- The last block of `execute`. -/
def close (s : State) (run : DiagnosticRun) (ok : Bool) : State :=
  let names := s.recovery.any fun r => r.runId = run.runId
  if run.record.cleanup.status = .passed then
    if names && !ok then { s with worker := .ended }
    else
      { s with
        recovery := if names then none else s.recovery
        cleanupIncomplete := false
        active := false
        worker := .ended }
  else if names && !ok then { s with cleanupIncomplete := true, worker := .ended }
  else
    { s with
      recovery :=
        if names then s.recovery.map fun r => { r with status := "unresolved" } else s.recovery
      cleanupIncomplete := true
      active := false
      worker := .ended }

/-- `ProductionDiagnostics()`, with `_recover_incomplete`. -/
def boot (s : State) (ok : Bool) : State :=
  match s.recovery with
  | none => { s with live := true }
  | some recovery =>
    match s.reports.get? recovery.runId with
    | none => { s with live := true, cleanupIncomplete := true }
    | some report =>
      if report.status.terminal then { s with live := true, cleanupIncomplete := true }
      else if ok then
        { s with
          live := true
          cleanupIncomplete := true
          reports := s.reports.set recovery.runId { report with
            status := .failed
            currentStage := "failed"
            checkpoint := none
            cleanup := { status := .interrupted }
            failure := some ⟨"DIAG_RUN_INTERRUPTED",
              "The diagnostic was interrupted; startup cleanup is required."⟩ }
          log := s.log ++ [.status recovery.runId .failed] }
      else s

/-- `complete_recovery`. -/
def completeRecovery (s : State) (recovery : Recovery) (evidence : String)
    (writes unlinks : Bool) : State :=
  match s.reports.get? recovery.runId with
  | none => if unlinks then { s with recovery := none, cleanupIncomplete := false } else s
  | some report =>
    if !writes then s
    else
      let written : State := { s with
        reports := s.reports.set recovery.runId { report with
          cleanup := { status := .passed, recovered := true, evidence } }
        log := s.log ++ [.cleanupPassed recovery.runId] }
      if unlinks then { written with recovery := none, cleanupIncomplete := false } else written

/-- A call of the worker on its run. -/
def call (s : State) (run : DiagnosticRun) : Move → Option State
  | .transition status stage checkpoint ok =>
    let shown : State :=
      if checkpoint.isSome then { s with shows := s.shows + 1, shownAt := s.shows + 1 } else s
    match run.transition status stage checkpoint with
    | none => some s
    | some run' => some (shown.put run' ok [.status run.runId status] .working)
  | .stage value ok => some (s.put (run.stage value) ok [] .working)
  | .setResult level ok => some (s.put (run.setResult level) ok [] .working)
  | .finish f ok =>
    match run.finish f with
    | none => some s
    | some run' => some (s.put run' ok (finishEvents run') .working)
  | .await checkpoint ok =>
    let number := s.shows + 1
    match run.transition .awaitingUser checkpoint.id (some checkpoint) with
    | none => some { s with shows := number, worker := .awaiting checkpoint.id number }
    | some run' =>
      some ({ s with shows := number, shownAt := number }.put run' ok
        [.status run.runId .awaitingUser]
        (if ok then .awaiting checkpoint.id number else .working))
  | .workerRaises error => some { s with worker := .raised error }
  | .workerReturns => some { s with worker := .closing }
  | _ => none

/-- What the thread of the worker does in each of its phases. -/
def work (s : State) (run : DiagnosticRun) (move : Move) : Option State :=
  match s.worker, move with
  | .starting, .launch ok =>
    if ok then some { s with worker := .working, log := s.log ++ [.started run.runId] }
    else some { s with worker := .idle, log := s.log ++ [.startRaised true] }
  | .working, move => s.call run move
  | .awaiting checkpointId number, .resume =>
    if run.continuedCheckpoint = some checkpointId then
      some (s.put { run with continuedCheckpoint := none } false
        [.consumed run.runId s.acceptedAt number] (.resuming checkpointId))
    else none
  | .awaiting checkpointId _, .awaitCanceled =>
    if run.continuedCheckpoint ≠ some checkpointId ∧ run.cancelRequested = true then
      some { s with worker := .working }
    else none
  | .awaiting checkpointId _, .awaitTimeout =>
    if run.continuedCheckpoint ≠ some checkpointId ∧ run.cancelRequested = false then
      some { s with worker := .working }
    else none
  | .resuming checkpointId, .resumed ok =>
    match run.transition .running checkpointId none with
    | none => some { s with worker := .working }
    | some run' => some (s.put run' ok [.status run.runId .running] .working)
  | .raised error, .contain ok =>
    match run.finish (containment error) with
    | none => some { s with worker := .closing }
    | some run' => some (s.put run' ok (finishEvents run') .closing)
  | .closing, .close ok => some (s.close run ok)
  | _, _ => none

/-- A call of the control service on the active run. -/
def control (s : State) (run : DiagnosticRun) (move : Move) : Option State :=
  match move with
  | .continueRun runId checkpointId =>
    match if s.active && run.runId = runId then run.continueRun checkpointId else none with
    | none => some s
    | some run' => some { s with run := some run', acceptedAt := s.shownAt }
  | .cancel runId ok =>
    match if s.active && run.runId = runId then run.cancel else none with
    | none => some s
    | some run' =>
      some (s.put run' ok
        (.status run.runId .cleaning :: if ok then [.canceled run.runId] else []) s.worker)
  | _ => none

def step (s : State) (move : Move) : Option State :=
  match move with
  | .boot ok => if s.live then none else some (s.boot ok)
  | .crash =>
    if s.live then
      some { s with
        live := false
        run := none
        active := false
        worker := .idle
        cleanupIncomplete := false }
    else none
  | .start test began => if s.live then some (s.start test began) else none
  | .updateRecovery runId status ok =>
    if s.live then
      if ok && s.recovery.any fun r => r.runId = runId then
        some { s with recovery := s.recovery.map fun r => { r with status := status } }
      else some s
    else none
  | .completeRecovery evidence writes unlinks =>
    -- the control service recovers before it serves
    match s.run, s.recovery with
    | none, some recovery =>
      if s.live && s.cleanupIncomplete then
        some (s.completeRecovery recovery evidence writes unlinks)
      else none
    | _, _ => none
  | .failRecovery message ok =>
    match s.run with
    | none =>
      if s.live && s.cleanupIncomplete then
        if ok then
          some { s with recovery := s.recovery.map fun r =>
            { r with status := "unresolved", recoveryError := some (String.ofList
              (message.toList.take 500)) } }
        else some s
      else none
    | some _ => none
  | .continueRun .. | .cancel .. =>
    if s.live then
      match s.run with
      | none => some s
      | some run => s.control run move
    else none
  | _ =>
    match s.run with
    | none => none
    | some run => s.work run move

end State

def diagnostics : System State Move := .ofStep (· = {}) State.step

/-! ## What is owed -/

/-- A terminal status never changes to another one; after an accepted cancellation the status is
never again `running` or `awaiting_user`, nor `passed`; a continue is consumed by the await it was
accepted for; the recovery file names every run whose worker was started until its cleanup status
passed; and no `start` that raised left an active run behind. -/
structure Lifecycle (s : State) : Prop where
  terminal : s.log.Pairwise fun a b => ∀ run status status', a = .status run status →
    b = .status run status' → status.terminal = true → status' = status
  canceled : s.log.Pairwise fun a b => ∀ run status, a = .canceled run → b = .status run status →
    status ≠ .running ∧ status ≠ .awaitingUser ∧ status ≠ .passed
  consumed : ∀ run accepted await, Event.consumed run accepted await ∈ s.log → accepted = await
  named : ∀ run, Event.started run ∈ s.log → Event.cleanupPassed run ∉ s.log →
    s.recovery.map Recovery.runId = some run
  inactive : Event.startRaised true ∉ s.log

namespace State

/-- The status may be given to the record: an accepted cancellation does not rule it out, it is no
change of a terminal status, and a terminal one but `failed` is written. -/
def allows (s : State) (run : DiagnosticRun) (status : RunStatus) (ok : Bool) : Bool :=
  (decide (Event.canceled run.runId ∉ s.log) ||
    decide (status ≠ .running ∧ status ≠ .awaitingUser ∧ status ≠ .passed)) &&
  if run.record.status.terminal then decide (status = run.record.status)
  else !status.terminal || status = .failed || ok

/-- The moves that go wrong nowhere. The status that a `finish` gives, or a `transition` of a record
that is open, is allowed; an `await_continue` whose write does not raise meets no continue for its
checkpoint; and `start` does not raise after it made its run the active one. -/
def careful (s : State) (move : Move) : Bool :=
  match move with
  | .start _ began => began ≠ .recoveryFails
  | .launch ok => ok
  | .transition status _ _ ok =>
    s.run.all fun run => run.record.status.terminal || s.allows run status ok
  | .await checkpoint ok =>
    s.run.all fun run =>
      (run.record.status.terminal || s.allows run .awaitingUser ok) &&
        (!run.record.status.terminal && !ok || run.continuedCheckpoint ≠ some checkpoint.id)
  | .resumed ok => s.run.all fun run => run.record.status.terminal || s.allows run .running ok
  | .finish f ok => s.run.all fun run => !f.status.terminal || s.allows run f.result ok
  | .contain ok =>
    s.run.all fun run =>
      match s.worker with
      | .raised error => s.allows run (containment error).result ok
      | _ => true
  | _ => true

end State

/-- The guard of careful runs. -/
def Careful (s : State) (move : Move) : Prop := s.careful move = true

instance : ∀ (s : State) (move : Move), Decidable (Careful s move) := fun s move =>
  inferInstanceAs (Decidable (s.careful move = true))

end SwitchTrade.Diagnostics

import SwitchTrade.Coordinator.Process
import SwitchTrade.Release.Probes

/-!
# `LocalDRelease.release`

One pass of D7 to D11 over the run the coordinator holds. A pass checks the relay's terminal
barrier against the run and against the measured D5 state, asks its probes in order, persists
its report after every step and reports the cleanup to the coordinator. It works in place on
what it leaves behind: the record of the run, the two files, and the trace of what it did.
-/

namespace SwitchTrade.Release

open InPlace
open Authority (Seat AttemptPhase BarrierStatus CleanupStatus DOutcome DSideReport DState
  DEvidence)
open Coordinator (Record Clock Order Value Scalar RunId ConnectionCoordinatorError StrEnum
  EvidenceArgument)
open Closing (DControlError)

/-! ## What a pass reads -/

/-- `payload` of the measured D5 state. -/
structure D5Payload where
  attemptId : String
  activationGeneration : Int
  sourceSeat : Seat
  runId : String
  stageGeneration : Int
  launchIdentitySha256 : String
  evidence : DEvidence
  deriving DecidableEq, Repr

/-- `d5_state_path`: absent, what `load_d5_state` refuses, or a state. -/
inductive D5File where
  | absent
  | invalid
  | state (payload : D5Payload)
  deriving DecidableEq, Repr

structure AttemptView where
  attemptId : String
  phase : AttemptPhase
  d : Option DState

/-- The room as the relay shows it to the member. -/
structure RoomView where
  roomId : String
  attempt : Option AttemptView

/-! ## What a pass leaves -/

/-- `GATES`. -/
inductive Gate where
  | d6 | d7 | d8 | d9 | d10 | d11
  deriving DecidableEq, Repr

def Gate.name : Gate → String
  | .d6 => "D6_TWO_SIDE_BARRIER"
  | .d7 => "D7_DIAGNOSTIC_RESOURCES"
  | .d8 => "D8_ENDPOINT_VERIFICATION"
  | .d9 => "D9_RADIO_QUIESCENCE"
  | .d10 => "D10_USB_RETURN"
  | .d11 => "D11_RELEASE"

structure ReportFailure where
  code : String
  gate : Gate
  message : String
  deriving DecidableEq, Repr

inductive ReportStatus where
  | running | passed | failed
  deriving DecidableEq, Repr

/-- `report["evidence"]`, each step's once it is taken. -/
structure ReportEvidence where
  diagnostic : Option DiagnosticEvidence
  launch : Option LaunchEvidence
  radio : Option RadioEvidence
  usb : Option UsbEvidence
  deriving DecidableEq, Repr

structure Report where
  runId : RunId
  attemptId : Option Scalar
  status : ReportStatus
  lastPassedGate : Gate
  sharedBarrierStatus : BarrierStatus
  sharedCleanupVerified : Bool
  evidence : ReportEvidence
  failures : List ReportFailure
  deriving DecidableEq, Repr

/-- `json.dump` renders the report: only the counts of D9 and what the lease said can be
beyond it. -/
def Report.renders (report : Report) : Bool :=
  report.evidence.radio.all RadioEvidence.renders && report.evidence.usb.all UsbEvidence.renders

/-- What a pass did, in order: the steps it checked, the lease it gave back and the cleanup
it reported to the coordinator. -/
inductive Event where
  | checked (gate : Gate) (ok : Bool)
  | leaseReleased
  | completed (verified : Bool)
  deriving DecidableEq, Repr

/-- The coordinator's record of the run, if it has the run; the two files, a report that
cannot be read being none; and the trace of the pass. -/
structure World where
  run : Option Record
  d5 : D5File
  report : Option Report
  trace : List Event

abbrev Pass := EStateM Raised World

/-- What the object was made with and what one call of `release` meets. -/
structure Call where
  runId : RunId
  room : RoomView
  diagnostic : Option Answer
  launch : Answer
  radio : Option RadioAnswers
  lease : Option LeaseAnswer
  stableSamples : Nat
  begun : Clock
  completed : Clock

/-- What a pass takes from outside: the coordinator's library, and `launch_identity_hash`, a
digest that is only compared, nothing where it raises. -/
structure Library where
  coordinator : Coordinator.Stdlib
  launchIdentityHash : RunId → Nat → Option Scalar → Option Scalar → Option String

variable (py : Library)

def raise (code : String) (gate : Gate) (message : String) : Raised :=
  .control ⟨code, gate.name, message⟩

def note (event : Event) : Pass PUnit := modify fun w => { w with trace := w.trace ++ [event] }

/-- `_persist`. -/
def persist (report : Report) : Pass PUnit := do
  raiseIf (report.renders = false) .unrendered
  modify fun w => { w with report := some report }

/-- A command on the run: the record in memory changes in place, and is the answer. -/
def command (order : Order) (clock : Clock) : Pass Record := do
  let w ← get
  match w.run with
  | none => throw (.coordinator Coordinator.runNotFound.code Coordinator.runNotFound.message)
  | some r =>
    match (order.handler py.coordinator clock.now).run r with
    | .error e r' => do
      modify fun w => { w with run := some r' }
      throw (.coordinator e.code e.message)
    | .ok .copy r' => do
      modify fun w => { w with run := some r' }
      return r'
    | .ok (.persist event) r' => do
      modify fun w => { w with run := some (r'.stamp event clock.persisted) }
      return r'.stamp event clock.persisted

/-! ## D6 -/

def seatOf : Option Scalar → Option Seat
  | some (.text "member_a") => some .memberA
  | some (.text "member_b") => some .memberB
  | _ => none

/-- The side of the run's seat. -/
def sideOf (r : Record) (state : DState) : Option DSideReport :=
  (seatOf (r.identity.bound .authoritySeat)).bind state.sides.get

/-- `invalid` of `_d6`, once the attempt has a state. -/
def d6Invalid (room : RoomView) (attempt : AttemptView) (state : DState) (r : Record) : Bool :=
  r.identity.bound .roomId ≠ some (.text room.roomId) ||
  r.identity.bound .attemptId ≠ some (.text attempt.attemptId) ||
  !attempt.phase.terminal ||
  state.barrierStatus = .waitingForSides ||
  state.cleanupStatus = .pending ||
  state.terminalizedAt = none ||
  state.activationGeneration < 1 ||
  ((state.barrierStatus = .forcedTimeout || state.barrierStatus = .forcedFailure) &&
    state.cleanupStatus ≠ .failed)

/-- `side_valid` of `_d6`. -/
def sideValid (r : Record) (state : DState) (d5 : Option D5Payload) : Except Raised Bool :=
  match sideOf r state, d5 with
  | none, _ => .ok false
  | some side, some payload =>
    .ok (side.runId = payload.runId && side.stageGeneration = payload.stageGeneration &&
      side.launchIdentitySha256 = payload.launchIdentitySha256 && side.evidence = payload.evidence)
  | some side, none =>
    match py.launchIdentityHash r.runId r.identity.stageGeneration
        (r.identity.bound .launchNonce) (r.identity.bound .endpointPid) with
    | none => .error .launchIdentity
    | some expected =>
      .ok (side.runId = r.runId && side.stageGeneration = r.identity.stageGeneration &&
        side.launchIdentitySha256 = expected)

/-- `recovery_without_side` of `_d6`. -/
def recoveryWithoutSide (r : Record) (state : DState) (d5 : Option D5Payload) : Bool :=
  d5.isNone && r.recoveryRequired && (sideOf r state).isNone &&
    (state.barrierStatus = .forcedTimeout || state.barrierStatus = .forcedFailure)

def expectedOutcome (r : Record) : Option DOutcome :=
  match r.functional.status with
  | .passed => some .completed
  | .canceled => some .canceled
  | .failed | .interrupted => some .failed
  | .pending => none

def barrierUnverified : Raised :=
  raise "D_BARRIER_UNVERIFIED" .d6
    "the relay D6 terminal barrier does not contain this run's measured D5 evidence"

def outcomeMismatch (what result : String) : Raised :=
  raise "D_OUTCOME_MISMATCH" .d6
    ("the relay " ++ what ++ " does not match the coordinator " ++ result)

/-- `_d6`. -/
def d6 (room : RoomView) (r : Record) (d5 : Option D5Payload) : Except Raised DState := do
  let attempt ← Fallible.orRaise room.attempt barrierUnverified
  let state ← Fallible.orRaise attempt.d barrierUnverified
  let side ← sideValid py r state d5
  let activation := d5.all fun payload => state.activationGeneration = payload.activationGeneration
  Fallible.raiseIf (d6Invalid room attempt state r = true ∨ activation = false ∨
    ¬ (side = true ∨ recoveryWithoutSide r state d5 = true)) barrierUnverified
  Fallible.raiseIf (some attempt.phase ≠ (expectedOutcome r).map DOutcome.phase ∨
    some state.outcome ≠ expectedOutcome r) (outcomeMismatch "terminal outcome" "result")
  Fallible.raiseIf (state.primaryFailureCode ≠
    (if expectedOutcome r = some .failed then r.functional.code else none))
    (outcomeMismatch "primary result" "result")
  return state

/-! ## A settled run -/

/-- `valid` of `_finish_terminal_report`. -/
def Report.finishes (report : Report) (runId : RunId) (r : Record) : Bool :=
  report.runId = runId && report.attemptId = r.identity.bound .attemptId &&
  (report.status = .running || report.status = .passed) &&
  (report.lastPassedGate = .d10 || report.lastPassedGate = .d11) && report.failures.isEmpty

/-- `_finish_terminal_report`. -/
def finishTerminalReport (runId : RunId) (r : Record) : Pass Report := do
  let w ← get
  let report ← check (Fallible.orRaise w.report (raise "D_RELEASE_REPORT_INVALID" .d11
    "the verified terminal run has no recoverable local release report"))
  raiseIf (report.finishes runId r = false) (raise "D_RELEASE_REPORT_INVALID" .d11
    "the verified terminal run's local release report is inconsistent")
  modify fun w => { w with d5 := .absent }
  if report.status ≠ .passed ∨ report.lastPassedGate ≠ .d11 then
    let report := { report with status := .passed, lastPassedGate := .d11 }
    persist report
    return report
  else return report

/-! ## The pass -/

/-- `_DIAGNOSTIC_MODES`. -/
def diagnosticMode (mode : Coordinator.RunMode) : Bool :=
  mode ∈ [.diagnosticAutomated, .diagnosticA, .diagnosticB, .diagnosticSuite]

/-- `_SOFTWARE_ONLY_MODES`. -/
def softwareOnly (mode : Coordinator.RunMode) : Bool := mode = .cHarness

def runStateInvalid (message : String) : Raised := raise "D_RUN_STATE_INVALID" .d6 message

/-- `d5` of the pass: the state, or none where the file is absent. -/
def loadD5 : D5File → Except Raised (Option D5Payload)
  | .absent => .ok none
  | .state payload => .ok (some payload)
  | .invalid => .error (.control ⟨"D_CONTROL_STATE_INVALID", "D5_SIDE_QUIESCENT",
      "the persisted D5 control state is invalid"⟩)

/-- The report a pass starts from. -/
def Report.initial (runId : RunId) (r : Record) (state : DState) : Report :=
  { runId := runId
    attemptId := r.identity.bound .attemptId
    status := .running
    lastPassedGate := .d6
    sharedBarrierStatus := state.barrierStatus
    sharedCleanupVerified := state.cleanupStatus = .verified
    evidence := ⟨none, none, none, none⟩
    failures := [] }

def Report.fail (report : Report) (code : String) (gate : Gate) (message : String) : Report :=
  { report with failures := report.failures ++ [⟨code, gate, message⟩] }

def Report.pass (report : Report) (gate : Gate) : Report := { report with lastPassedGate := gate }

/-- A terminal run goes back to its cleanup. -/
def retried (c : Call) (r : Record) : Pass Record :=
  if r.phase = .terminal then command py .retryCleanup c.begun else pure r

/-- A closing run begins its cleanup. -/
def begun (c : Call) (r : Record) : Pass Record :=
  if r.phase = .closing then command py .beginCleanup c.begun else pure r

/-- The pass up to its first report: the record it works on, and that report. -/
def admission (c : Call) (r : Record) : Pass (Record × Report) := do
  let r ← retried py c r
  raiseIf (r.phase ≠ .closing ∧ r.phase ≠ .cleaning)
    (runStateInvalid "the coordinator run is not in D cleanup")
  let w ← get
  let d5 ← check (loadD5 w.d5)
  raiseIf (d5 = none ∧ r.recoveryRequired = false) (raise "D_CONTROL_STATE_INVALID" .d6
    "the measured D5 state is missing outside startup recovery")
  let state ← check (d6 py c.room r d5)
  let r ← begun py c r
  let report := Report.initial c.runId r state
  persist report
  return (r, report)

def diagnosticStep (c : Call) (r : Record) (report : Report) : Pass (Report × Bool) := do
  let (evidence, ok) := diagnosticEvidence c.diagnostic (diagnosticMode r.identity.mode)
  note (.checked .d7 ok)
  let report := { report with evidence := { report.evidence with diagnostic := some evidence } }
  let report := if ok then report.pass .d7 else
    report.fail "D_DIAGNOSTIC_CLEANUP_FAILED" .d7
      "diagnostic-owned resources were not fully released"
  persist report
  return (report, ok)

def launchStep (c : Call) (report : Report) : Pass (Report × Bool) := do
  let (evidence, ok) ← check (verifyLaunchAbsence c.launch)
  note (.checked .d8 ok)
  let report := { report with evidence := { report.evidence with launch := some evidence } }
  let report := if ok then report.pass .d8 else
    report.fail "D_ENDPOINT_UNVERIFIED" .d8
      "the exact endpoint launch is active or its state is unknown"
  persist report
  return (report, ok)

def radioStep (c : Call) (r : Record) (d8 : Bool) (report : Report) : Pass (Report × Bool) := do
  let (evidence, ok) ←
    check (radioEvidence c.stableSamples (softwareOnly r.identity.mode) c.radio)
  note (.checked .d9 ok)
  let report := { report with evidence := { report.evidence with radio := some evidence } }
  let report := if d8 && ok then report.pass .d9 else if ok then report else
    report.fail "D_RADIO_NOT_QUIESCENT" .d9 "Linux radio quiescence was not stable or was unknown"
  persist report
  return (report, ok)

/-- What D10 makes of the lease: the evidence, whether it is verified, and the failures it
adds to the report. -/
def usbOutcome (lease : LeaseAnswer) : UsbEvidence × Bool × List ReportFailure :=
  match lease with
  | .dict items =>
    let usb := UsbEvidence.ofItems items
    (usb, usb.returned, [])
  | .other => (.initial, UsbEvidence.initial.returned, [])
  | .raised e => (.initial, false, [⟨e.code?, .d10, e.message⟩])

/-- The failure of a D10 that says nothing of its own. -/
def usbUnverified : ReportFailure :=
  ⟨"D_USB_RETURN_UNVERIFIED", .d10, "the exact prior USB ownership state was not verified"⟩

/-- D10 of a pass whose D8 and D9 are verified. -/
def usbRelease (c : Call) (r : Record) (report : Report) : Pass (Report × UsbEvidence × Bool) :=
  if softwareOnly r.identity.mode then
    return (report, ⟨.bool true, .bool true, .bool true, .bool false⟩, true)
  else match c.lease with
    | none => return (report.fail "D_USB_OWNERSHIP_MISSING" .d10
        "the run-owned USB lease is unavailable", .initial, false)
    | some lease => do
      note .leaseReleased
      let (usb, ok, failures) := usbOutcome lease
      let failures := if ok = false ∧ failures.isEmpty then [usbUnverified] else failures
      return ({ report with failures := report.failures ++ failures }, usb, ok)

def usbStep (c : Call) (r : Record) (d8 d9 : Bool) (report : Report) : Pass (Report × Bool) := do
  let (report, usb, ok) ←
    if d8 && d9 then usbRelease c r report else pure (report, UsbEvidence.initial, false)
  note (.checked .d10 ok)
  let report := { report with evidence := { report.evidence with usb := some usb } }
  return (if ok then report.pass .d10 else report, ok)

/-- `cleanup_evidence`. -/
def cleanupEvidence (report : Report) (d7 d8 d9 d10 : Bool) : EvidenceArgument :=
  .dict [(.text "d6_terminal", .bool true),
    (.text "d6_shared_cleanup_verified", .bool report.sharedCleanupVerified),
    (.text "diagnostic_resources_released", .bool d7),
    (.text "endpoint_identity_absent", .bool d8),
    (.text "radio_stably_quiescent", .bool d9),
    (.text "usb_prior_state_restored", .bool d10)]

/-- What the coordinator is told of a pass, after its last report. -/
def tell (c : Call) (report : Report) (verified : Bool) (evidence : EvidenceArgument) :
    Pass (ReportStatus × Record) :=
  if verified then do
    let terminal ← command py (.completeCleanup (.bool true) evidence .none .none) c.completed
    modify fun w => { w with d5 := .absent }
    persist { report with status := .passed, lastPassedGate := .d11 }
    return (.passed, terminal)
  else do
    let first := (report.failures.head?.map ReportFailure.message).getD ""
    let terminal ← command py (.completeCleanup (.bool false) evidence
      (.text "D_LOCAL_CLEANUP_FAILED") (.text first)) c.completed
    return (.failed, terminal)

/-- The report a pass leaves before it tells the coordinator. -/
def Report.last (report : Report) (verified : Bool) : Report :=
  { report with
    status := if verified then .running else .failed
    failures := report.failures.take 16 }

/-- D11. -/
def conclude (c : Call) (report : Report) (d7 d8 d9 d10 : Bool) :
    Pass (ReportStatus × Record) := do
  let verified := d7 && d8 && d9 && d10
  let report := report.last verified
  persist report
  let evidence := cleanupEvidence report d7 d8 d9 d10
  note (.completed verified)
  tell py c report verified evidence

/-- D7 to D11. -/
def teardown (c : Call) (r : Record) (report : Report) : Pass (ReportStatus × Record) := do
  let (report, d7) ← diagnosticStep c r report
  let (report, d8) ← launchStep c report
  let (report, d9) ← radioStep c r d8 report
  let (report, d10) ← usbStep c r d8 d9 report
  conclude py c report d7 d8 d9 d10

/-- `release`: the status, and the record of the run. -/
def release (c : Call) : Pass (ReportStatus × Record) := do
  let w ← get
  match w.run with
  | none => throw (runStateInvalid "the coordinator run is unavailable")
  | some r =>
    if r.settled then
      let _ ← finishTerminalReport c.runId r
      return (.passed, r)
    else
      let (r, report) ← admission py c r
      teardown py c r report

end SwitchTrade.Release

import SwitchTrade.Release.LocalRelease

/-!
# `MeasuredD5Control`

`switchtrade/connection/d_control.py`: what one call of `acknowledge` checks, measures and
writes before it asks the relay. `_prepare` is taken in two parts, up to its first probe
(`admitted`) and from there to the state it is about to write (`measured`), because a
process may die between them. The state file holds what `load_d5_state` is to read, and a
probe that never lets a loop end has no answer here.
-/

namespace SwitchTrade.Acknowledge

open Fallible
open Authority (Seat DState DEvidence sha256Pattern)
open Coordinator (Record Scalar RunId)
open Closing (DControlError Json endpointReport)
open Release (D5Payload Answer Items PyValue Raised RadioStatus radioStatus memberOf)

/-! ## What a call meets -/

/-- The room as the relay shows it to the member. -/
structure Room extends Release.RoomView where
  roomVersion : Nat

/-- The endpoint report as it is read: the dictionary, and the digest of the bytes. -/
structure ReportFile where
  value : List (String × Json)
  sha256 : String

/-- What came of one call of `process_probe`. -/
inductive ProcessAnswer where
  | raised
  | absent
  | ticks (n : Int)
  deriving DecidableEq, Repr

/-- One turn of a measuring loop: the answer of the probe, and whether the clock read after
it is past the deadline. -/
structure Turn (α : Type) where
  answer : α
  late : Bool

/-- `measurement` of the state. -/
structure Measurement where
  processStateKnown : Bool
  temporaryInterfaceStateKnown : Bool
  deriving DecidableEq, Repr

/-- The persisted D5 control state. -/
structure D5State where
  runId : RunId
  roomId : String
  attemptId : String
  expectedRoomVersion : Nat
  commandId : String
  endpointReportSha256 : String
  measurement : Measurement
  payload : D5Payload
  deriving DecidableEq, Repr

/-- What the object was made with and what one call of `acknowledge` meets: the record is
none where the coordinator does not have the run, and the report where it cannot be read. -/
structure Call where
  room : Room
  run : Option Record
  memberToken : Authority.Token
  stableSamples : Nat
  report : Option ReportFile
  stateReadable : Bool
  process : List (Turn ProcessAnswer)
  radio : Option (List (Turn Answer))
  commandId : String

variable (py : Release.Library)

/-! ## The checks -/

def raise (code message : String) : Raised := .control ⟨code, "D5_SIDE_QUIESCENT", message⟩

def runNotReady : Raised :=
  raise "D_RUN_STATE_INVALID" "the coordinator run is not ready for measured D5"

/-- The keys of the identity that have to be bound. -/
def requiredKeys : List Coordinator.Key :=
  [.roomId, .attemptId, .authoritySeat, .launchNonce, .endpointPid, .endpointStartTicks]

/-- `_run`. -/
def runOf (c : Call) : Except Raised Record := do
  let r ← orRaise c.run runNotReady
  raiseIf ((r.phase ≠ .closing ∧ r.phase ≠ .cleaning) ∨ r.functional.status = .pending ∨
    r.ownership.endpointStarted = false ∨
    (requiredKeys.all fun key => (r.identity.bound key).isSome) = false) runNotReady
  return r

def authorityMismatch : Raised :=
  raise "D_AUTHORITY_STATE_INVALID" "the authority D1 state does not match this run"

/-- `_authority_d`. -/
def authorityD (room : Room) (r : Record) : Except Raised DState := do
  let attempt ← orRaise room.attempt authorityMismatch
  let state ← orRaise attempt.d authorityMismatch
  raiseIf (r.identity.bound .roomId ≠ some (.text room.roomId) ∨
    r.identity.bound .attemptId ≠ some (.text attempt.attemptId) ∨
    ¬ (attempt.phase = .closing ∨ attempt.phase.terminal) ∨ room.roomVersion < 1 ∨
    state.activationGeneration < 1) authorityMismatch
  return state

/-- The authority holds the outcome the coordinator preserved, with its failure code. -/
def outcomeAgrees (r : Record) (state : DState) : Bool :=
  some state.outcome = Release.expectedOutcome r &&
    state.primaryFailureCode =
      (if Release.expectedOutcome r = some .failed then r.functional.code else none)

def scalarJson : Option Scalar → Json
  | some (.text t) => .text t
  | some (.int n) => .int n
  | none => .null

/-- `value == expected`, of an expected text, integer or null. -/
def sameJson : Json → Json → Bool
  | .null, .null => true
  | .int m, .int n => m = n
  | .text s, .text t => s = t
  | _, _ => false

/-- `expected` of `_validate_binding`. -/
def expectedBinding (r : Record) (state : DState) (launch : String) : List (String × Json) :=
  [("run_id", .text r.runId), ("attempt_id", scalarJson (r.identity.bound .attemptId)),
    ("activation_generation", .int state.activationGeneration),
    ("source_seat", scalarJson (r.identity.bound .authoritySeat)),
    ("stage_generation", .int r.identity.stageGeneration),
    ("launch_identity_sha256", .text launch), ("outcome", .text state.outcome.phase.name),
    ("primary_failure_code", Json.ofOption state.primaryFailureCode)]

/-- `_validate_binding`. -/
def validateBinding (r : Record) (state : DState) (report : List (String × Json)) :
    Except Raised Unit := do
  let launch ← orRaise (py.launchIdentityHash r.runId r.identity.stageGeneration
    (r.identity.bound .launchNonce) (r.identity.bound .endpointPid)) .launchIdentity
  raiseIf ((expectedBinding r state launch).any fun item =>
      sameJson (Json.get report item.1) item.2 = false)
    (raise "D_ENDPOINT_IDENTITY_MISMATCH"
      "the endpoint D2-D4 report is stale or belongs to another launch")

/-! ## The measurement -/

/-- The process with the start ticks is gone; a probe that raised found it there. -/
def ProcessAnswer.gone (startTicks : Option Scalar) : ProcessAnswer → Bool
  | .raised => false
  | .absent => true
  | .ticks n => startTicks ≠ some (.int n)

/-- `_measure_process_exit`: whether the process has exited, and whether a probe raised. -/
def measureProcessExit (startTicks : Option Scalar) (unknown : Bool) :
    List (Turn ProcessAnswer) → Option (Bool × Bool)
  | [] => none
  | turn :: turns =>
    let unknown := unknown || turn.answer = .raised
    if turn.answer.gone startTicks then some (true, unknown)
    else if turn.late then some (false, unknown)
    else measureProcessExit startTicks unknown turns

/-- `value == 0`. -/
def isZero : PyValue → Bool
  | .int n => n = 0
  | .bool b => b = false
  | _ => false

/-- One answer of the radio probe: its status, and whether no interface is owned. -/
def radioResult : Answer → Except Raised (RadioStatus × Bool)
  | .dict items => do
    let status ← memberOf radioStatus (items.get "status")
    return match status with
      | some status => (status, isZero (items.get "owned_interfaces"))
      | none => (.unknown, false)
  | _ => return (.unknown, false)

/-- The loop of `_measure_interfaces`, from `stable` clean answers in a row. -/
def measureRadio (stableSamples : Nat) (stable : Nat) (unknown : Bool) :
    List (Turn Answer) → Except Raised (Option (Bool × Bool))
  | [] => .ok none
  | turn :: turns => do
    let (status, clear) ← radioResult turn.answer
    let unknown := unknown || status = .unknown
    let stable := if status = .quiescent && clear then stable + 1 else 0
    if stableSamples ≤ stable then return some (true, unknown)
    else if turn.late then return some (false, unknown)
    else measureRadio stableSamples stable unknown turns

/-- `_measure_interfaces`: whether the interfaces are absent, and whether an answer was
unknown. -/
def measureInterfaces (c : Call) (r : Record) : Except Raised (Option (Bool × Bool)) :=
  if Release.softwareOnly r.identity.mode then .ok (some (true, false))
  else match c.radio with
    | none => .ok (some (false, true))
    | some turns => measureRadio c.stableSamples 0 false turns

/-! ## `_prepare` -/

/-- What `_prepare` has checked when it takes its first measurement. -/
structure Admitted where
  run : Record
  authority : DState
  report : ReportFile

/-- `_prepare`, up to its first probe. -/
def admitted (c : Call) : Except Raised Admitted := do
  let r ← runOf c
  let state ← authorityD c.room r
  raiseIf (outcomeAgrees r state = false) (raise "D_OUTCOME_MISMATCH"
    "the authority D1 outcome does not match the coordinator's preserved result")
  let file ← orRaise c.report (raise "D_ENDPOINT_REPORT_INVALID"
    "the endpoint D2-D4 report is unreadable")
  let _ ← (endpointReport file.value).mapError Raised.control
  validateBinding py r state file.value
  return ⟨r, state, file⟩

/-- `endpoint[key]`, of a report that has passed its contract. -/
def evidenceFlag (report : List (String × Json)) (key : String) : Bool :=
  match Json.get report "evidence" with
  | .dict items => (Json.get items key).isBoolean true
  | _ => false

def textOf : Json → String
  | .text t => t
  | _ => ""

def textOfScalar : Option Scalar → String
  | some (.text t) => t
  | some (.int n) => toString n
  | none => "None"

/-- `evidence`, from the report and the two measurements. -/
def evidenceOf (report : List (String × Json)) (exited processUnknown absent radioUnknown : Bool) :
    DEvidence where
  endpointExited := exited
  transportExited := evidenceFlag report "bridge_transport_exited"
  threadsExited := evidenceFlag report "observer_stopped" &&
    evidenceFlag report "simulation_closed" && evidenceFlag report "radio_thread_exited"
  ldnReleased := evidenceFlag report "ldn_released"
  interfacesAbsent := absent
  forced := (Json.get report "forced").isBoolean true || processUnknown || radioUnknown ||
    !exited || !absent

/-- `_prepare`, from its first probe to the state it writes; nothing where a loop of the
measurement does not end. A seat that is none of the two has not passed the binding. -/
def measured (c : Call) (a : Admitted) : Except Raised (Option D5State) := do
  let exit := measureProcessExit (a.run.identity.bound .endpointStartTicks) false c.process
  match exit, Release.seatOf (a.run.identity.bound .authoritySeat) with
  | some (exited, processUnknown), some seat =>
    let interfaces ← measureInterfaces c a.run
    return interfaces.map fun (absent, radioUnknown) =>
      { runId := a.run.runId
        roomId := textOfScalar (a.run.identity.bound .roomId)
        attemptId := textOfScalar (a.run.identity.bound .attemptId)
        expectedRoomVersion := c.room.roomVersion
        commandId := c.commandId
        endpointReportSha256 := a.report.sha256
        measurement := ⟨!processUnknown, !radioUnknown⟩
        payload :=
          { attemptId := textOfScalar (a.run.identity.bound .attemptId)
            activationGeneration := a.authority.activationGeneration
            sourceSeat := seat
            runId := a.run.runId
            stageGeneration := a.run.identity.stageGeneration
            launchIdentitySha256 := textOf (Json.get a.report.value "launch_identity_sha256")
            evidence := evidenceOf a.report.value exited processUnknown absent radioUnknown } }
  | _, _ => return none

/-! ## `_load_or_prepare` of a persisted state -/

/-- The text of a UUID of version 7 and of the standard's variant. -/
def version7 (s : String) : Bool :=
  Uuid.accepts s && (Uuid.bare s.toList)[12]? = some '7' &&
    ((Uuid.bare s.toList)[16]?.any fun c => c ∈ ['8', '9', 'a', 'b', 'A', 'B'])

/-- `_quiescent_payload`. -/
def quiescentPayload (p : D5Payload) : Bool :=
  p.attemptId ≠ "" && 1 ≤ p.activationGeneration && 1 ≤ p.stageGeneration &&
    sha256Pattern p.launchIdentitySha256 && Uuid.accepts p.runId

def stateInvalid : Raised :=
  raise "D_CONTROL_STATE_INVALID" "the persisted D5 control state is invalid"

/-- `load_d5_state`. -/
def loadD5State (readable : Bool) (s : D5State) : Except Raised D5State := do
  raiseIf (readable = false) (raise "D_CONTROL_STATE_INVALID"
    "the persisted D5 control state is unreadable")
  raiseIf (¬ (s.roomId ≠ "" ∧ s.attemptId ≠ "" ∧ 1 ≤ s.expectedRoomVersion ∧
    sha256Pattern s.endpointReportSha256 ∧ quiescentPayload s.payload ∧ Uuid.accepts s.runId ∧
    version7 s.commandId)) stateInvalid
  return s

/-- The persisted payload as `_validate_binding` reads it, with the authority's outcome. -/
def boundItems (p : D5Payload) (state : DState) : List (String × Json) :=
  [("contract_version", .text "d-side-quiescent.v1"), ("attempt_id", .text p.attemptId),
    ("activation_generation", .int p.activationGeneration),
    ("source_seat", .text (Closing.seatText p.sourceSeat)), ("run_id", .text p.runId),
    ("stage_generation", .int p.stageGeneration),
    ("launch_identity_sha256", .text p.launchIdentitySha256),
    ("outcome", .text state.outcome.phase.name),
    ("primary_failure_code", Json.ofOption state.primaryFailureCode)]

/-- `_load_or_prepare`, where the state file exists. -/
def loaded (c : Call) (file : D5State) : Except Raised D5State := do
  let state ← loadD5State c.stateReadable file
  let r ← runOf c
  let authority ← authorityD c.room r
  raiseIf (¬ (state.runId = r.runId ∧ r.identity.bound .roomId = some (.text state.roomId) ∧
    r.identity.bound .attemptId = some (.text state.attemptId) ∧
    state.payload.activationGeneration = authority.activationGeneration ∧
    outcomeAgrees r authority)) stateInvalid
  let report ← orRaise c.report (raise "D_CONTROL_STATE_INVALID"
    "the report bound to the persisted D5 state is unavailable")
  raiseIf (report.sha256 ≠ state.endpointReportSha256) (raise "D_CONTROL_STATE_INVALID"
    "the report bound to the persisted D5 state changed")
  validateBinding py r authority (boundItems state.payload authority)
  return state

theorem loaded_eq {c : Call} {file state : D5State} (h : loaded py c file = .ok state) :
    state = file := by
  simp only [loaded, loadD5State, bind_eq_ok, raiseIf_eq_ok, orRaise_eq_ok, pure_eq_ok] at h
  obtain ⟨_, ⟨-, -, -, -, rfl⟩, r, -, authority, -, -, -, report, -, -, -, -, -, rfl⟩ := h
  rfl

end SwitchTrade.Acknowledge

import SwitchTrade.Coordinator.Record
import SwitchTrade.Transition.InPlace

/-!
# The commands of the coordinator

Every handler of `ConnectionCoordinator` works on the record in memory, in place: what it
wrote before it raised stays written. A handler ends in one of two ways, by returning a
copy of the record or by `_persist`, so it gives back which; the files are written in
`Process.lean`.
-/

namespace SwitchTrade.Coordinator

open InPlace

/-- How a handler ends: it returns a copy, or it calls `_persist` with an event. -/
inductive Finish where
  | copy
  | persist (event : String)
  deriving DecidableEq, Repr

/-- A handler on the record `_require_run` gave it. -/
abbrev Handler := EStateM ConnectionCoordinatorError Record

/-- The two readings of the clock a command may take: its own, and that of `_persist`. -/
structure Clock where
  now : String
  persisted : String
  deriving DecidableEq, Repr

def transitionInvalid (message : String) : ConnectionCoordinatorError :=
  ⟨"CONNECTION_TRANSITION_INVALID", message⟩

def identityMismatch (key : Key) : ConnectionCoordinatorError :=
  ⟨"CONNECTION_IDENTITY_MISMATCH", key.name ++ " does not match the bound run identity"⟩

/-- `_require_running`, once the run is found. -/
def requireRunning : Handler PUnit := do
  let record ← get
  raiseIf (record.phase ≠ .running) (transitionInvalid "the run is not in running state")

/-- `_bind_once`: the keys in order, each written before the next is compared. -/
def bindOnce : List (Key × Scalar) → Handler Bool
  | [] => pure false
  | (key, value) :: updates => do
    let record ← get
    match record.identity.bound key with
    | some current =>
      raiseIf (current ≠ value) (identityMismatch key)
      bindOnce updates
    | none =>
      modify fun r => r.bind key value
      let _ ← bindOnce updates
      return true

/-- `_assert_bound`. -/
def assertBound : List (Key × Scalar) → Handler PUnit
  | [] => pure ⟨⟩
  | (key, value) :: expected => do
    let record ← get
    raiseIf (record.identity.bound key ≠ some value) (identityMismatch key)
    assertBound expected

/-! ## The commands on a run -/

def cmdTransition (phase gate : Value) : Handler Finish := do
  let record ← get
  let target ← check (enumOf Phase phase "phase")
  raiseIf (target = .terminal)
    (transitionInvalid "terminal state requires verified cleanup")
  let current := record.phase
  let nextGate ← check (if gate = .none then .ok record.currentGate else some <$> gateOf gate)
  if target = current ∧ nextGate = record.currentGate then return .copy
  raiseIf (target ≠ current ∧ target ∉ current.allowedTransitions)
    (transitionInvalid
      ("cannot move from " ++ StrEnum.value current ++ " to " ++ StrEnum.value target))
  modify fun r => { r with phase := target, currentGate := nextGate }
  return .persist ("phase_" ++ StrEnum.value target)

def cmdPassGate (gate : Value) : Handler Finish := do
  let record ← get
  raiseIf (record.phase ∉ [.preflight, .running, .awaitingUser])
    ⟨"CONNECTION_GATE_INVALID", "a gate cannot pass in the current phase"⟩
  let passed ← check (gateOf gate)
  if record.lastPassedGate = some passed ∧ record.currentGate = some passed then return .copy
  modify fun r => { r with lastPassedGate := some passed, currentGate := some passed }
  return .persist "gate_passed"

def SwitchRole.ldnRole : SwitchRole → LdnRole
  | .aRoomJoiner => .station
  | .bApHost => .ap

def SwitchRole.tunnelDirection : SwitchRole → TunnelDirection
  | .aRoomJoiner => .aToB
  | .bApHost => .bToA

/-- The updates of `_cmd_bind_authority`, in the order of its dictionary. -/
def authorityUpdates (roomId : String) (roomVersion : Int) (seat : AuthoritySeat)
    (role : SwitchRole) : List (Key × Scalar) :=
  [(.roomId, .text roomId), (.roomVersion, .int roomVersion),
    (.authoritySeat, .text (StrEnum.value seat)), (.switchRole, .text (StrEnum.value role)),
    (.ldnRole, .text (StrEnum.value role.ldnRole)),
    (.tunnelDirection, .text (StrEnum.value role.tunnelDirection))]

def cmdBindAuthority (roomId roomVersion seat switchRole : Value) : Handler Finish := do
  requireRunning
  let selectedSeat ← check (enumOf AuthoritySeat seat "authority seat")
  let selectedRole ← check (enumOf SwitchRole switchRole "Switch role")
  let room ← check (bounded roomId "room_id" 128)
  let version ← check (positiveInt roomVersion "room_version")
  let changed ← bindOnce (authorityUpdates room version selectedSeat selectedRole)
  if changed then return .persist "authority_bound" else return .copy

/-- The updates of `_cmd_acquire_wrapper`. -/
def wrapperUpdates (pid ticks : Int) (adapter usb bus : String) : List (Key × Scalar) :=
  [(.wrapperPid, .int pid), (.processStartTicks, .int ticks), (.adapterInstanceId, .text adapter),
    (.usbId, .text usb), (.busId, .text bus)]

def cmdAcquireWrapper (py : Stdlib)
    (wrapperPid processStartTicks adapterInstanceId usbId busId : Value) : Handler Finish := do
  requireRunning
  let record ← get
  raiseIf (¬ record.identity.mode.direct ∧ ¬ record.has .roomId)
    ⟨"CONNECTION_AUTHORITY_REQUIRED", "authority must be bound before P0b"⟩
  let pid ← check (positiveInt wrapperPid "wrapper_pid")
  let ticks ← check (positiveInt processStartTicks "process_start_ticks")
  let adapter ← check (bounded adapterInstanceId "adapter_instance_id" 512)
  let usb ← check (py.lower <$> bounded usbId "usb_id" 32)
  let bus ← check (bounded busId "bus_id" 64)
  let updates := wrapperUpdates pid ticks adapter usb bus
  raiseIf (record.identity.bound .adapterInstanceId ≠ some (.text adapter) ∨
      record.identity.bound .usbId ≠ some (.text usb))
    ⟨"CONNECTION_IDENTITY_MISMATCH", "wrapper adapter identity does not match the run"⟩
  if record.ownership.wrapperAcquired then
    assertBound updates
    return .copy
  let _ ← bindOnce updates
  modify fun r => { r with
    ownership := { r.ownership with wrapperAcquired := true, wrapperCount := 1 } }
  return .persist "wrapper_acquired"

def cmdMarkP0Ready (wrapperPid processStartTicks phy netdev : Value) : Handler Finish := do
  requireRunning
  let record ← get
  raiseIf (¬ record.ownership.wrapperAcquired)
    ⟨"CONNECTION_WRAPPER_REQUIRED", "the wrapper must be acquired before P0 readiness"⟩
  let pid ← check (positiveInt wrapperPid "wrapper_pid")
  let ticks ← check (positiveInt processStartTicks "process_start_ticks")
  assertBound [(.wrapperPid, .int pid), (.processStartTicks, .int ticks)]
  let phy ← check (bounded phy "phy" 64)
  let netdev ← check (bounded netdev "netdev" 64)
  let updates := [(Key.phy, Scalar.text phy), (.netdev, .text netdev)]
  if record.ownership.p0SideReady then
    assertBound updates
    return .copy
  let _ ← bindOnce updates
  modify fun r => { r with
    ownership := { r.ownership with p0SideReady := true }
    lastPassedGate := some "P0_SIDE_READY", currentGate := some "P0_SIDE_READY" }
  return .persist "p0_side_ready"

def cmdLockAttempt (attemptId roleLockVersion : Value) : Handler Finish := do
  requireRunning
  let record ← get
  raiseIf (¬ record.has .roomId ∨ ¬ record.ownership.p0SideReady)
    ⟨"CONNECTION_P0_REQUIRED",
      "authority and P0 readiness are required before attempt lock"⟩
  let attempt ← check (bounded attemptId "attempt_id" 128)
  let version ← check (positiveInt roleLockVersion "role_lock_version")
  let changed ← bindOnce [(.attemptId, .text attempt), (.roleLockVersion, .int version)]
  if changed then return .persist "attempt_locked" else return .copy

def cmdReserveEndpointLaunch (launchNonce : Value) : Handler Finish := do
  requireRunning
  let record ← get
  raiseIf (¬ record.ownership.p0SideReady)
    ⟨"CONNECTION_P0_REQUIRED", "P0 readiness is required before endpoint launch"⟩
  raiseIf (¬ record.identity.mode.direct ∧ ¬ record.has .attemptId)
    ⟨"CONNECTION_ATTEMPT_REQUIRED", "a locked attempt is required before endpoint launch"⟩
  let nonce ← check (bounded launchNonce "launch_nonce" 128)
  raiseIf (nonce.length < 32) ⟨"CONNECTION_INPUT_INVALID", "launch_nonce is too short"⟩
  if record.ownership.launchReserved then
    assertBound [(.launchNonce, .text nonce)]
    return .copy
  let _ ← bindOnce [(.launchNonce, .text nonce)]
  modify fun r => { r with
    ownership := { r.ownership with launchReserved := true, launchCount := 1 } }
  return .persist "endpoint_launch_reserved"

def cmdAcknowledgeEndpoint (launchNonce endpointPid processStartTicks : Value) :
    Handler Finish := do
  requireRunning
  let record ← get
  raiseIf (¬ record.ownership.launchReserved)
    ⟨"CONNECTION_LAUNCH_REQUIRED", "endpoint launch must be reserved first"⟩
  let nonce ← check (bounded launchNonce "launch_nonce" 128)
  assertBound [(.launchNonce, .text nonce)]
  let pid ← check (positiveInt endpointPid "endpoint_pid")
  let ticks ← check (positiveInt processStartTicks "process_start_ticks")
  let updates := [(Key.endpointPid, Scalar.int pid), (.endpointStartTicks, .int ticks)]
  if record.ownership.endpointStarted then
    assertBound updates
    return .copy
  let _ ← bindOnce updates
  modify fun r => { r with ownership := { r.ownership with endpointStarted := true } }
  return .persist "endpoint_started"

def cmdRequestCancel (code message : Value) : Handler Finish := do
  let record ← get
  if record.phase = .terminal then return .copy
  if record.cancelRequested then return .copy
  -- the flag is set before the code and the message are looked at
  modify fun r => { r with cancelRequested := true }
  let code ← check (codeOf code "code")
  let message ← check (bounded message "message" 500)
  modify fun r => (r.setFunctional .canceled (some code) (some message)).closingIntent
  return .persist "cancel_requested"

def cmdCloseRun (outcome code message : Value) : Handler Finish := do
  let record ← get
  let selected ← check (enumOf FunctionalOutcome outcome "functional outcome")
  raiseIf (selected = .pending)
    ⟨"CONNECTION_INPUT_INVALID", "functional outcome cannot remain pending"⟩
  let code ← check (codeOrNone code "code")
  let message ← check (boundedOrNone message "message" 500)
  raiseIf ((selected = .failed ∨ selected = .interrupted) ∧ code = none)
    ⟨"CONNECTION_INPUT_INVALID", "failed and interrupted outcomes require a code"⟩
  if record.phase = .terminal then return .copy
  if record.functional.status ≠ .pending ∧
      (record.phase = .closing ∨ record.phase = .cleaning) then return .copy
  modify fun r => (r.setFunctional selected code message).closingIntent
  return .persist "closing_intent_recorded"

def cmdBeginCleanup : Handler Finish := do
  let record ← get
  if record.phase = .cleaning then return .copy
  raiseIf (record.phase ≠ .closing) (transitionInvalid "cleanup requires closing intent")
  modify fun r => { r with phase := .cleaning, currentGate := some "D8_LOCAL_RELEASE" }
  return .persist "cleanup_started"

def cmdRetryCleanup : Handler Finish := do
  let record ← get
  if record.phase = .cleaning then return .copy
  raiseIf (record.phase ≠ .terminal ∨ record.cleanup.verified)
    ⟨"CONNECTION_CLEANUP_RETRY_INVALID", "cleanup retry is not required"⟩
  modify fun r => { r with
    phase := .cleaning, currentGate := some "D8_LOCAL_RELEASE"
    cleanup := { r.cleanup with status := .pending } }
  return .persist "cleanup_retry_started"

/-- `isinstance(verified, bool)`. -/
def verifiedOf (value : Value) : Checked Bool :=
  match value with
  | .bool b => .ok b
  | _ => .error ⟨"CONNECTION_INPUT_INVALID", "verified must be Boolean"⟩

/-- The cleanup a completed cleanup leaves, with at most sixteen failures. -/
def Cleanup.complete (c : Cleanup) (verified : Bool) (evidence : Evidence)
    (code message : Option String) (utc : String) : Cleanup :=
  let failures := c.failures ++ [⟨code, message, utc⟩]
  { status := if verified then .verified else .failed
    verified := verified
    code := if verified then none else code
    message := if verified then none else message
    evidence := evidence
    failures := if verified then c.failures else failures.drop (failures.length - 16) }

/-- What `_cmd_complete_cleanup` makes of the record. -/
def Record.complete (r : Record) (verified : Bool) (evidence : Evidence)
    (code message : Option String) (utc : String) : Record :=
  { r with
    cleanup := r.cleanup.complete verified evidence code message utc
    recoveryRequired := !verified
    phase := .terminal
    currentGate := some (if verified then "D11_RELEASE" else "D_CLEANUP_FAILED") }

def cmdCompleteCleanup (verified : Value) (evidence : EvidenceArgument) (code message : Value)
    (now : String) : Handler Finish := do
  let record ← get
  let verified ← check (verifiedOf verified)
  let evidence ← check (evidenceOf evidence)
  let code ← check (codeOrNone code "code")
  let message ← check (boundedOrNone message "message" 500)
  if record.phase = .terminal then
    raiseIf (¬ (record.cleanup.verified = verified ∧
        record.cleanup.code = (if verified then none else code) ∧
        record.cleanup.message = (if verified then none else message) ∧
        record.cleanup.evidence.same evidence))
      ⟨"CONNECTION_CLEANUP_RESULT_MISMATCH", "terminal cleanup evidence does not match"⟩
    return .copy
  raiseIf (record.phase ≠ .cleaning)
    (transitionInvalid "cleanup completion requires cleaning state")
  raiseIf (record.functional.status = .pending)
    ⟨"CONNECTION_OUTCOME_REQUIRED", "functional outcome is required before terminal cleanup"⟩
  raiseIf (¬ verified ∧ code = none)
    ⟨"CONNECTION_INPUT_INVALID", "failed cleanup requires a code"⟩
  modify fun r => r.complete verified evidence code message now
  return .persist (if verified then "cleanup_verified" else "cleanup_failed")

/-! ## One command -/

/-- A command on a run, by the handler it goes to and its arguments. -/
inductive Order where
  | transition (phase gate : Value)
  | passGate (gate : Value)
  | bindAuthority (roomId roomVersion seat switchRole : Value)
  | acquireWrapper (wrapperPid processStartTicks adapterInstanceId usbId busId : Value)
  | markP0Ready (wrapperPid processStartTicks phy netdev : Value)
  | lockAttempt (attemptId roleLockVersion : Value)
  | reserveEndpointLaunch (launchNonce : Value)
  | acknowledgeEndpoint (launchNonce endpointPid processStartTicks : Value)
  | requestCancel (code message : Value)
  | closeRun (outcome code message : Value)
  | beginCleanup
  | retryCleanup
  | completeCleanup (verified : Value) (evidence : EvidenceArgument) (code message : Value)
  deriving DecidableEq, Repr

/-- The handler of an order. -/
def Order.handler (py : Stdlib) (now : String) : Order → Handler Finish
  | .transition phase gate => cmdTransition phase gate
  | .passGate gate => cmdPassGate gate
  | .bindAuthority roomId roomVersion seat switchRole =>
    cmdBindAuthority roomId roomVersion seat switchRole
  | .acquireWrapper pid ticks adapter usb bus => cmdAcquireWrapper py pid ticks adapter usb bus
  | .markP0Ready pid ticks phy netdev => cmdMarkP0Ready pid ticks phy netdev
  | .lockAttempt attemptId roleLockVersion => cmdLockAttempt attemptId roleLockVersion
  | .reserveEndpointLaunch nonce => cmdReserveEndpointLaunch nonce
  | .acknowledgeEndpoint nonce pid ticks => cmdAcknowledgeEndpoint nonce pid ticks
  | .requestCancel code message => cmdRequestCancel code message
  | .closeRun outcome code message => cmdCloseRun outcome code message
  | .beginCleanup => cmdBeginCleanup
  | .retryCleanup => cmdRetryCleanup
  | .completeCleanup verified evidence code message =>
    cmdCompleteCleanup verified evidence code message now

/-- A command: `start`, whose `fresh` is what `uuid.uuid4` would draw, or an order on the
run its `run_id` names. -/
inductive Command where
  | start (mode adapterInstanceId usbId runId : Value) (fresh : String)
  | onRun (runId : Value) (order : Order)
  deriving DecidableEq, Repr

def runNotFound : ConnectionCoordinatorError :=
  ⟨"CONNECTION_RUN_NOT_FOUND", "connection run not found"⟩

/-- `_run_id`. -/
def runIdOf (py : Stdlib) (text : String) : Checked RunId :=
  match py.uuid text with
  | some runId => .ok runId
  | none => .error (inputInvalid "run_id")

/-- The identity `_cmd_start` makes: the direct modes bind their roles at once. -/
def startIdentity (release : String) (mode : RunMode) (adapter usb : Option String) : Identity :=
  { release := release
    mode := mode
    runGeneration := 1
    stageGeneration := 1
    bound
      | .adapterInstanceId => adapter.map .text
      | .usbId => usb.map .text
      | .switchRole =>
        match mode with
        | .directA => some (.text (StrEnum.value SwitchRole.aRoomJoiner))
        | .directB => some (.text (StrEnum.value SwitchRole.bApHost))
        | _ => none
      | .ldnRole =>
        match mode with
        | .directA => some (.text (StrEnum.value LdnRole.station))
        | .directB => some (.text (StrEnum.value LdnRole.ap))
        | _ => none
      | _ => none }

/-- The record of a run `_cmd_start` creates. -/
def startRecord (release : String) (mode : RunMode) (adapter usb : Option String)
    (runId : RunId) (now : String) : Record :=
  { runId := runId
    revision := 0
    createdUtc := now
    updatedUtc := now
    phase := .created
    currentGate := none
    lastPassedGate := none
    functional := ⟨.pending, none, none⟩
    cleanup := ⟨.pending, false, none, none, [], []⟩
    recoveryRequired := false
    cancelRequested := false
    identity := startIdentity release mode adapter usb
    ownership := ⟨false, false, false, false, 0, 0⟩
    history := [] }

end SwitchTrade.Coordinator

import SwitchTrade.Transition.Dict

/-!
# The record of the connection service

`connection-service-state.json` as `ConnectionRunService` keeps it in memory and on disk,
its published projection, and what the worker events and the end of a run make of it.

Phases, gates and statuses are texts: the executor that runs the connection chooses them.
The dictionaries of the relay and of the endpoint are kept as the keys the service reads
and the text of the rest. The constants `contract_version` and `schema` are left out.
-/

namespace SwitchTrade.Service

structure ConnectionRunServiceError where
  code : String
  message : String
  deriving DecidableEq, Repr

scoped instance lawfulBEqText : LawfulBEq (Option String) := inferInstance

/-- `value or default`, of a text that may be missing. -/
def orElse (value : Option String) (default : String) : String :=
  match value with
  | some text => if text = "" then default else text
  | none => default

/-- `value or current`, where `current` may be missing too. -/
def orKeep (value current : Option String) : Option String :=
  match value with
  | some text => if text = "" then current else some text
  | none => current

/-! ## Failures -/

/-- `text[:n]`. -/
def clip (text : String) (n : Nat) : String := String.ofList (text.toList.take n)

/-- The keys `_failure` reads of a failure somebody reports. -/
structure RawFailure where
  component : Option String
  stage : Option String
  gate : Option String
  code : Option String
  message : Option String
  deriving DecidableEq, Repr

structure Failure where
  component : String
  stage : String
  gate : String
  code : String
  message : String
  deriving DecidableEq, Repr

/-- `_failure`: nothing of what is no dictionary. -/
def failureOf (component : String) : Option RawFailure → Option Failure
  | none => none
  | some value =>
    let gate := clip (orElse value.gate (orElse value.stage "unknown")) 96
    some {
      component := clip (orElse value.component component) 96
      stage := clip (orElse value.stage gate) 96
      gate := gate
      code := clip (orElse value.code "CONNECTION_FAILED") 96
      message := clip (orElse value.message "connection failed") 500 }

/-! ## The record -/

/-- The failures `cleanup` lists. -/
structure CleanupFailure where
  code : String
  message : String
  deriving DecidableEq, Repr

structure Functional where
  status : String
  failure : Option Failure
  deriving DecidableEq, Repr

structure Cleanup where
  status : String
  verified : Bool
  failures : List CleanupFailure
  deriving DecidableEq, Repr

structure Checkpoint where
  checkpoint : String
  instructions : String
  deadlineUtc : String
  deriving DecidableEq, Repr

structure Room where
  membershipRole : Option String
  rest : String
  deriving DecidableEq, Repr

/-- The request of a run, of which `kind`, `switch_role` and `client_id` are read. -/
structure Request where
  kind : Option String
  switchRole : Option String
  clientId : Option String
  rest : String
  deriving DecidableEq, Repr

/-- What `_project` publishes of a record. -/
structure Projection where
  runId : String
  revision : Int
  phase : String
  currentGate : Option String
  lastPassedGate : Option String
  localRole : Option String
  peerState : String
  userCheckpoint : Option Checkpoint
  functional : Functional
  cleanup : Cleanup
  createdUtc : String
  updatedUtc : String
  room : Option Room
  allowedActions : List String
  deriving DecidableEq, Repr

/-- One entry of `commands`. -/
structure Recorded where
  fingerprint : String
  result : Projection
  deriving DecidableEq, Repr

structure Record where
  runId : String
  revision : Int
  phase : String
  currentGate : Option String
  lastPassedGate : Option String
  localRole : Option String
  peerState : String
  userCheckpoint : Option Checkpoint
  request : Request
  functional : Functional
  cleanup : Cleanup
  createdUtc : String
  updatedUtc : String
  commands : Dict String Recorded
  endpoint : Option String
  room : Option Room

def terminalPhase : String := "terminal"

/-- The `allowed_actions` of `_project`, in the order they are appended. -/
def Record.allowedActions (r : Record) : List String :=
  (if r.phase ∈ ["created", "preflight", "running", "awaiting_user"] then ["stop"] else []) ++
  (if r.room.isSome ∧ r.localRole = none ∧ r.phase ∈ ["preflight", "running"] then ["connect"]
    else []) ++
  (if r.phase = "awaiting_user" then ["continue"] else []) ++
  (if r.phase = "running" then ["end", "leave", "close"] else []) ++
  (if r.phase = terminalPhase ∧ r.cleanup.verified = true then
    ["retry"] ++
      (match r.room.bind Room.membershipRole with
      | some role =>
        if role = "owner" then ["close"] else if role = "member" then ["leave"] else []
      | none => [])
    else [])

/-- `_project`. -/
def project (r : Record) : Projection where
  runId := r.runId
  revision := r.revision
  phase := r.phase
  currentGate := r.currentGate
  lastPassedGate := r.lastPassedGate
  localRole := r.localRole
  peerState := r.peerState
  userCheckpoint := r.userCheckpoint
  functional := r.functional
  cleanup := r.cleanup
  createdUtc := r.createdUtc
  updatedUtc := r.updatedUtc
  room := r.room
  allowedActions := r.allowedActions

/-- `record["revision"] += 1` and `record["updated_utc"] = _utc()`. -/
def Record.stamp (r : Record) (utc : String) : Record :=
  { r with revision := r.revision + 1, updatedUtc := utc }

/-- What becomes of a run: its phase, its functional result and its cleanup. -/
structure Outcome where
  phase : String
  functional : Functional
  cleanup : Cleanup
  deriving DecidableEq, Repr

def Record.outcome (r : Record) : Outcome := ⟨r.phase, r.functional, r.cleanup⟩

/-- Terminal with verified cleanup. -/
def Record.Settled (r : Record) : Prop :=
  r.phase = terminalPhase ∧ r.cleanup.status = "verified" ∧ r.cleanup.verified = true

instance (r : Record) : Decidable r.Settled := inferInstanceAs (Decidable (_ ∧ _ ∧ _))

/-! ## Worker events -/

/-- The events a run publishes, with the keys `_cmd_event` reads of their values. An
`authority` without a room is one whose room is no dictionary. -/
inductive Event where
  | phase (phase gate lastPassedGate peerState : Option String)
  | checkpoint (value : Checkpoint)
  | checkpointCleared
  | cleanupStarted
  | authority (room : Option Room)
  | role (role : Option String)
  | endpoint (identity : Option String)
  | watchdogFailed (failure : Option RawFailure)
  | other (name : String)
  deriving DecidableEq, Repr

/-- `_cmd_event` on the record, before the revision is counted up. -/
def Record.onEvent (r : Record) : Event → Except ConnectionRunServiceError Record
  | .phase phase gate lastPassedGate peerState =>
    .ok { r with
      phase := orElse phase r.phase
      currentGate := gate
      lastPassedGate := orKeep lastPassedGate r.lastPassedGate
      peerState := orElse peerState r.peerState }
  | .checkpoint value => .ok { r with phase := "awaiting_user", userCheckpoint := some value }
  | .checkpointCleared => .ok { r with phase := "running", userCheckpoint := none }
  | .cleanupStarted =>
    .ok { r with
      phase := "cleaning"
      userCheckpoint := none
      cleanup := { r.cleanup with status := "running" } }
  | .authority room =>
    match room with
    | none => .error ⟨"AUTHORITY_INVALID", "relay authority projection is invalid"⟩
    | some room => .ok { r with room := some room }
  | .role role => .ok { r with localRole := role }
  | .endpoint identity => .ok { r with endpoint := identity }
  | .watchdogFailed failure =>
    if r.functional.failure = none then
      .ok { r with functional := { r.functional with failure := failureOf "endpoint" failure } }
    else .ok r
  | .other _ => .ok r

/-- What the watchdog of a run submits when the endpoint's heartbeat stops. -/
def watchdogFired : Event :=
  .watchdogFailed (some {
    component := some "endpoint"
    stage := some "supervision"
    gate := some "ENDPOINT_HEARTBEAT"
    code := some "ENDPOINT_HEARTBEAT_TIMEOUT"
    message := some "identity-bound endpoint heartbeat stopped" })

/-! ## The end of a run -/

/-- The keys `_cmd_finished` reads of the executor's report. -/
structure Report where
  primaryFailure : Option RawFailure
  functionalStatus : Option String
  cleanupStatus : Option String
  roomFinalization : Option String
  deriving DecidableEq, Repr

/-- `report or {}`. -/
def Report.orEmpty : Option Report → Report
  | some report => report
  | none => ⟨none, none, none, none⟩

/-- The failure a run ends with: the one recorded first, else the service's own, else the
report's. -/
def endFailure (recorded : Option Failure) (report : Report) (failure : Option RawFailure) :
    Option Failure :=
  match recorded with
  | some first => some first
  | none =>
    match failureOf "connection-service" failure with
    | some own => some own
    | none => failureOf "connection" report.primaryFailure

/-- The functional status a run ends with, once its failure is known. -/
def endStatus (failure : Option Failure) (status : Option String) : String :=
  let functional := orElse status (if failure.isSome then "failed" else "interrupted")
  if failure.isSome ∧ functional = "canceled" then "failed" else functional

def cleanupUnverified : CleanupFailure := ⟨"CLEANUP_UNVERIFIED", "cleanup was not verified"⟩

/-- The cleanup a run ends with. -/
def endCleanup (cleanup : Cleanup) (status : Option String) : Cleanup :=
  let status := orElse status "failed"
  { status := status
    verified := status = "verified"
    failures := if status = "verified" then cleanup.failures
      else cleanup.failures ++ [cleanupUnverified] }

/-- `_cmd_finished` on the record, before the revision is counted up. -/
def Record.onFinished (r : Record) (report : Option Report) (failure : Option RawFailure) :
    Record :=
  let report := Report.orEmpty report
  let failure := endFailure r.functional.failure report failure
  let cleanup := endCleanup r.cleanup report.cleanupStatus
  { r with
    functional := ⟨endStatus failure report.functionalStatus, failure⟩
    cleanup := cleanup
    room := if report.roomFinalization ∈ [some "room_closed", some "member_left"] then none
      else r.room
    phase := if cleanup.verified then terminalPhase else "cleaning" }

/-! ## The startup recovery -/

/-- The failure of a run that a restart found unfinished. -/
def interruption (currentGate : Option String) : Failure where
  component := "connection-service"
  stage := "startup_recovery"
  gate := orElse currentGate "unknown"
  code := "CONNECTION_RUN_INTERRUPTED"
  message := "the previous application session ended during a connection"

/-- `_recover_startup` on an unfinished run, before the revision is counted up. -/
def Record.onRecovery (r : Record) (cleanupVerified : Bool) : Record :=
  if cleanupVerified then
    { r with
      phase := terminalPhase
      functional := ⟨"interrupted", some (interruption r.currentGate)⟩
      cleanup := ⟨"verified", true, []⟩ }
  else
    { r with
      phase := "cleaning"
      cleanup := ⟨"failed", false,
        [⟨"CLEANUP_UNVERIFIED", "startup recovery could not prove cleanup"⟩]⟩ }

end SwitchTrade.Service

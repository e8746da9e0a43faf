import Mathlib.Logic.Function.Basic
import SwitchTrade.Authority.Commands

/-!
# The record of one local run

`connection-run.json` as `ConnectionCoordinator` keeps it in memory and on disk, the
values a caller may pass to a command, and the checks every command makes on them.

The keys of `identity` that start as null and are bound later are one map, so that what
`_bind_once` does to them is said once. The constant fields `contract_version` and
`schema` are left out.
-/

namespace SwitchTrade.Coordinator

open Authority (fullmatch asciiUpper asciiDigit dGate)

abbrev RunId := String

/-! ## Enumerations -/

/-- A `str` enumeration: its members in order, and the text of each. -/
class StrEnum (α : Type) where
  members : List α
  value : α → String

inductive RunMode where
  | normal | p0Harness | directA | directB | cHarness
  | diagnosticAutomated | diagnosticA | diagnosticB | diagnosticSuite
  deriving DecidableEq, Repr

inductive Phase where
  | created | preflight | running | awaitingUser | closing | cleaning | terminal
  deriving DecidableEq, Repr

inductive AuthoritySeat where
  | memberA | memberB
  deriving DecidableEq, Repr

inductive SwitchRole where
  | aRoomJoiner | bApHost
  deriving DecidableEq, Repr

inductive LdnRole where
  | station | ap
  deriving DecidableEq, Repr

inductive TunnelDirection where
  | aToB | bToA
  deriving DecidableEq, Repr

inductive FunctionalOutcome where
  | pending | passed | failed | canceled | interrupted
  deriving DecidableEq, Repr

inductive CleanupOutcome where
  | pending | verified | failed
  deriving DecidableEq, Repr

instance : StrEnum RunMode where
  members := [.normal, .p0Harness, .directA, .directB, .cHarness, .diagnosticAutomated,
    .diagnosticA, .diagnosticB, .diagnosticSuite]
  value
    | .normal => "normal"
    | .p0Harness => "p0_harness"
    | .directA => "direct_a"
    | .directB => "direct_b"
    | .cHarness => "c_harness"
    | .diagnosticAutomated => "diagnostic_automated"
    | .diagnosticA => "diagnostic_a"
    | .diagnosticB => "diagnostic_b"
    | .diagnosticSuite => "diagnostic_suite"

instance : StrEnum Phase where
  members := [.created, .preflight, .running, .awaitingUser, .closing, .cleaning, .terminal]
  value
    | .created => "created"
    | .preflight => "preflight"
    | .running => "running"
    | .awaitingUser => "awaiting_user"
    | .closing => "closing"
    | .cleaning => "cleaning"
    | .terminal => "terminal"

instance : StrEnum AuthoritySeat where
  members := [.memberA, .memberB]
  value
    | .memberA => "member_a"
    | .memberB => "member_b"

instance : StrEnum SwitchRole where
  members := [.aRoomJoiner, .bApHost]
  value
    | .aRoomJoiner => "a_room_joiner"
    | .bApHost => "b_ap_host"

instance : StrEnum LdnRole where
  members := [.station, .ap]
  value
    | .station => "station"
    | .ap => "ap"

instance : StrEnum TunnelDirection where
  members := [.aToB, .bToA]
  value
    | .aToB => "a_to_b"
    | .bToA => "b_to_a"

instance : StrEnum FunctionalOutcome where
  members := [.pending, .passed, .failed, .canceled, .interrupted]
  value
    | .pending => "pending"
    | .passed => "passed"
    | .failed => "failed"
    | .canceled => "canceled"
    | .interrupted => "interrupted"

/-- `_DIRECT_MODES`. -/
def RunMode.direct (mode : RunMode) : Bool := mode ∈ [.p0Harness, .directA, .directB]

/-- `_ALLOWED_TRANSITIONS`. -/
def Phase.allowedTransitions : Phase → List Phase
  | .created => [.preflight, .closing]
  | .preflight => [.running, .closing]
  | .running => [.awaitingUser, .closing]
  | .awaitingUser => [.running, .closing]
  | .closing => [.cleaning]
  | .cleaning => []
  | .terminal => []

/-! ## The record -/

/-- The keys of `identity` that may be null. -/
inductive Key where
  | roomId | roomVersion | attemptId | roleLockVersion | authoritySeat | switchRole | ldnRole
  | rfuRole | tunnelDirection | launchNonce | wrapperPid | endpointPid | processStartTicks
  | endpointStartTicks | adapterInstanceId | usbId | busId | phy | netdev
  deriving DecidableEq, Repr

def Key.name : Key → String
  | .roomId => "room_id"
  | .roomVersion => "room_version"
  | .attemptId => "attempt_id"
  | .roleLockVersion => "role_lock_version"
  | .authoritySeat => "authority_seat"
  | .switchRole => "switch_role"
  | .ldnRole => "ldn_role"
  | .rfuRole => "rfu_role"
  | .tunnelDirection => "tunnel_direction"
  | .launchNonce => "launch_nonce"
  | .wrapperPid => "wrapper_pid"
  | .endpointPid => "endpoint_pid"
  | .processStartTicks => "process_start_ticks"
  | .endpointStartTicks => "endpoint_start_ticks"
  | .adapterInstanceId => "adapter_instance_id"
  | .usbId => "usb_id"
  | .busId => "bus_id"
  | .phy => "phy"
  | .netdev => "netdev"

inductive Scalar where
  | text (t : String)
  | int (n : Int)
  deriving DecidableEq, Repr

/-- `bool(value)` of a bound key. -/
def Scalar.truthy : Scalar → Bool
  | .text t => t ≠ ""
  | .int n => n ≠ 0

structure Identity where
  release : String
  mode : RunMode
  runGeneration : Nat
  stageGeneration : Nat
  bound : Key → Option Scalar

structure Ownership where
  wrapperAcquired : Bool
  p0SideReady : Bool
  launchReserved : Bool
  endpointStarted : Bool
  wrapperCount : Nat
  launchCount : Nat
  deriving DecidableEq, Repr

structure Functional where
  status : FunctionalOutcome
  code : Option String
  message : Option String
  deriving DecidableEq, Repr

/-- A value of the cleanup evidence: null, a Boolean or an integer. -/
inductive EvidenceItem where
  | null
  | bool (b : Bool)
  | int (n : Int)
  deriving DecidableEq, Repr

abbrev Evidence := List (String × EvidenceItem)

structure Failure where
  code : Option String
  message : Option String
  utc : String
  deriving DecidableEq, Repr

structure Cleanup where
  status : CleanupOutcome
  verified : Bool
  code : Option String
  message : Option String
  evidence : Evidence
  failures : List Failure
  deriving DecidableEq, Repr

/-- An entry of `history`. -/
structure Entry where
  revision : Nat
  event : String
  phase : Phase
  gate : Option String
  utc : String
  deriving DecidableEq, Repr

structure Record where
  runId : RunId
  revision : Nat
  createdUtc : String
  updatedUtc : String
  phase : Phase
  currentGate : Option String
  lastPassedGate : Option String
  functional : Functional
  cleanup : Cleanup
  recoveryRequired : Bool
  cancelRequested : Bool
  identity : Identity
  ownership : Ownership
  history : List Entry

/-- The run is terminal with verified cleanup. -/
def Record.settled (r : Record) : Bool := r.phase = .terminal && r.cleanup.verified

/-- `identity[key]` is bound to a value that counts as true. -/
def Record.has (r : Record) (key : Key) : Bool :=
  match r.identity.bound key with
  | some v => v.truthy
  | none => false

/-! ## Values a caller may pass -/

/-- A value that comes with a command: null, a Boolean, an integer, a text (a member of a
`str` enumeration is one), or any other object, by what `str` makes of it. -/
inductive Value where
  | none
  | bool (b : Bool)
  | int (n : Int)
  | text (t : String)
  | object (str : String) (truthy : Bool)
  deriving DecidableEq, Repr

/-- `str(value)`. -/
def Value.str : Value → String
  | .none => "None"
  | .bool true => "True"
  | .bool false => "False"
  | .int n => toString n
  | .text t => t
  | .object t _ => t

/-- `bool(value)`. -/
def Value.truthy : Value → Bool
  | .none => false
  | .bool b => b
  | .int n => n ≠ 0
  | .text t => t ≠ ""
  | .object _ b => b

/-- What the commands take from the standard library: `uuid` is `str(uuid.UUID(text))`
with nothing for its `ValueError`, and `lower` is `str.lower`. -/
structure Stdlib where
  uuid : String → Option RunId
  lower : String → String

/-- `ConnectionCoordinatorError`. -/
structure ConnectionCoordinatorError where
  code : String
  message : String
  deriving DecidableEq, Repr

abbrev Checked := Except ConnectionCoordinatorError

def inputInvalid (name : String) : ConnectionCoordinatorError :=
  ⟨"CONNECTION_INPUT_INVALID", name ++ " is invalid"⟩

/-- `_bounded` of a required value. -/
def bounded (value : Value) (name : String) (maximum : Nat) : Checked String :=
  match value with
  | .text t =>
    if t = "" ∨ maximum < t.length ∨ Char.ofNat 0 ∈ t.toList then .error (inputInvalid name)
    else .ok t
  | _ => .error (inputInvalid name)

/-- `_bounded(…, required=False)`. -/
def boundedOrNone (value : Value) (name : String) (maximum : Nat) : Checked (Option String) :=
  match value with
  | .none => .ok none
  | _ => some <$> bounded value name maximum

/-- `_CODE`. -/
def codePattern : String → Bool :=
  fullmatch asciiUpper (fun c => asciiUpper c || asciiDigit c || c ∈ ['_', '.', '-']) 95

/-- `_code`. -/
def codeOf (value : Value) (name : String) : Checked String := do
  let text ← bounded value name 96
  if codePattern text then .ok text else .error (inputInvalid name)

/-- `_code(code) if code is not None else None`. -/
def codeOrNone (value : Value) (name : String) : Checked (Option String) :=
  match value with
  | .none => .ok none
  | _ => some <$> codeOf value name

/-- `_gate`. -/
def gateOf (value : Value) : Checked String := do
  let text ← bounded value "gate" 96
  if dGate text then .ok text else .error (inputInvalid "gate")

/-- `_positive_int`. -/
def positiveInt (value : Value) (name : String) : Checked Int :=
  match value with
  | .int n => if n ≤ 0 then .error (inputInvalid name) else .ok n
  | _ => .error (inputInvalid name)

/-- `_enum`. -/
def enumOf (α : Type) [StrEnum α] (value : Value) (name : String) : Checked α :=
  match value with
  | .text t =>
    match (StrEnum.members : List α).find? fun a => StrEnum.value a = t with
    | some a => .ok a
    | none => .error (inputInvalid name)
  | _ => .error (inputInvalid name)

/-- The `evidence` argument: null, a dictionary by its items, or anything else. -/
inductive EvidenceArgument where
  | none
  | dict (items : List (Value × Value))
  | other
  deriving DecidableEq, Repr

def evidenceKey (key : Value) : Checked String :=
  match key with
  | .text t =>
    if dGate t then .ok t
    else .error ⟨"CONNECTION_INPUT_INVALID", "cleanup evidence key is invalid"⟩
  | _ => .error ⟨"CONNECTION_INPUT_INVALID", "cleanup evidence key is invalid"⟩

def evidenceItem (item : Value) : Checked EvidenceItem :=
  match item with
  | .none => .ok .null
  | .bool b => .ok (.bool b)
  | .int n => .ok (.int n)
  | _ => .error
    ⟨"CONNECTION_INPUT_INVALID", "cleanup evidence values must be Boolean or integer"⟩

/-- `_evidence`. -/
def evidenceOf (value : EvidenceArgument) : Checked Evidence :=
  match value with
  | .none => .ok []
  | .other => .error ⟨"CONNECTION_INPUT_INVALID", "cleanup evidence is invalid"⟩
  | .dict items =>
    if 64 < items.length then .error ⟨"CONNECTION_INPUT_INVALID", "cleanup evidence is invalid"⟩
    else items.mapM fun (key, item) => do
      let key ← evidenceKey key
      let item ← evidenceItem item
      pure (key, item)

/-- The number Python compares an item as: a Boolean is an integer. -/
def EvidenceItem.number : EvidenceItem → Option Int
  | .null => none
  | .bool b => some (if b then 1 else 0)
  | .int n => some n

/-- `==` of two evidence dictionaries, in whatever order their items stand. -/
def Evidence.same (a b : Evidence) : Bool :=
  a.length = b.length && a.all fun (key, item) =>
    (b.lookup key).map EvidenceItem.number = some item.number

/-! ## Updates of a record -/

/-- `identity[key] = value`. -/
def Record.bind (r : Record) (key : Key) (value : Scalar) : Record :=
  { r with identity := { r.identity with
      bound := Function.update r.identity.bound key (some value) } }

/-- `_set_functional`. -/
def Record.setFunctional (r : Record) (outcome : FunctionalOutcome)
    (code message : Option String) : Record :=
  if r.functional.status = .pending then { r with functional := ⟨outcome, code, message⟩ } else r

/-- The phase and the gate of a run that is to close, unless it closes already. -/
def Record.closingIntent (r : Record) : Record :=
  if r.phase = .closing ∨ r.phase = .cleaning then r
  else { r with phase := .closing, currentGate := some "D1_CLOSING_INTENT" }

/-- `MAX_HISTORY`. -/
def maxHistory : Nat := 128

/-- `_persist` up to the first write: the revision, the time and the history entry. -/
def Record.stamp (r : Record) (event : String) (utc : String) : Record :=
  let revision := r.revision + 1
  let history := r.history ++ [⟨revision, event, r.phase, r.currentGate, utc⟩]
  { r with
    revision := revision
    updatedUtc := utc
    history := history.drop (history.length - maxHistory) }

/-- `_validate_record`, as far as the types leave it open. -/
def Record.valid (r : Record) (runId : RunId) : Bool :=
  r.runId = runId && 1 ≤ r.revision && r.ownership.wrapperCount ≤ 1 && r.ownership.launchCount ≤ 1

end SwitchTrade.Coordinator

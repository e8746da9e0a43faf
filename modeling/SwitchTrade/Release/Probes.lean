import SwitchTrade.Closing.Control

/-!
# The probes of the local release

`switchtrade/connection/d_probes.py` and the evidence of D7 to D10: what a probe answered is
taken over only if it is a dictionary with the very fields of the step, each of its type, and
is replaced by the evidence of a failed step otherwise. The two checks of a `status` ask
whether it is in a set, and a value that cannot be hashed makes that question raise.

A value is told from another by what these checks and `json.dump` can find out of it.
-/

namespace SwitchTrade.Release

open Fallible

/-- A value a probe put under a key, or a key itself. An `object` is anything else, a
container among them, by whether it can be hashed and whether `json.dump` can render it. -/
inductive PyValue where
  | none
  | bool (b : Bool)
  | int (n : Int)
  | text (t : String)
  | object (hashable renders : Bool)
  deriving DecidableEq, Repr

def PyValue.hashable : PyValue → Bool
  | .object hashable _ => hashable
  | _ => true

/-- An integer of more than 4300 digits has no decimal text. -/
def digitLimit : Nat := 10 ^ 4300

/-- `json.dump` renders the value. -/
def PyValue.renders : PyValue → Bool
  | .int n => n.natAbs < digitLimit
  | .object _ renders => renders
  | _ => true

abbrev Items := List (PyValue × PyValue)

/-- `value.get(key)`. -/
def Items.get (items : Items) (key : String) : PyValue :=
  ((items.find? fun item => item.1 = .text key).map Prod.snd).getD .none

/-- `set(value) == fields`. -/
def Items.hasFields (items : Items) (fields : List String) : Bool :=
  (items.all fun item => item.1 ∈ fields.map PyValue.text) &&
    fields.all fun key => .text key ∈ items.map Prod.fst

/-- What came of one call of a probe. -/
inductive Answer where
  | raised
  | other
  | dict (items : Items)
  deriving DecidableEq, Repr

/-- An exception that leaves `release`: one of its own, one of the coordinator, the
`TypeError` of a value that cannot be hashed, the error of `json.dump`, or the `ValueError`
of a launch identity that cannot be hashed. -/
inductive Raised where
  | control (error : Closing.DControlError)
  | coordinator (code message : String)
  | unhashable
  | unrendered
  | launchIdentity
  deriving DecidableEq, Repr

/-- `value in {…}`, by the member the value is. -/
def memberOf {α : Type} (members : String → Option α) (value : PyValue) :
    Except Raised (Option α) := do
  raiseIf (value.hashable = false) .unhashable
  return match value with
    | .text t => members t
    | _ => none

/-! ## D7 -/

structure DiagnosticEvidence where
  syntheticPeerStopped : Bool
  temporaryRoomClosed : Bool
  credentialFileAbsent : Bool
  deriving DecidableEq, Repr

def diagnosticFields : List String :=
  ["synthetic_peer_stopped", "temporary_room_closed", "credential_file_absent"]

def DiagnosticEvidence.all (e : DiagnosticEvidence) : Bool :=
  e.syntheticPeerStopped && e.temporaryRoomClosed && e.credentialFileAbsent

/-- `_diagnostic_evidence`: the callback is nothing where the run was given none. -/
def diagnosticEvidence (callback : Option Answer) (required : Bool) :
    DiagnosticEvidence × Bool :=
  if required = false then (⟨true, true, true⟩, true)
  else
    let evidence : DiagnosticEvidence :=
      match callback with
      | some (.dict items) =>
        if items.hasFields diagnosticFields then
          match items.get "synthetic_peer_stopped", items.get "temporary_room_closed",
              items.get "credential_file_absent" with
          | .bool a, .bool b, .bool c => ⟨a, b, c⟩
          | _, _, _ => ⟨false, false, false⟩
        else ⟨false, false, false⟩
      | _ => ⟨false, false, false⟩
    (evidence, evidence.all)

/-! ## D8 -/

inductive LaunchStatus where
  | absent | present | unknown
  deriving DecidableEq, Repr

def launchStatus : String → Option LaunchStatus
  | "absent" => some .absent
  | "present" => some .present
  | "unknown" => some .unknown
  | _ => none

structure LaunchEvidence where
  status : LaunchStatus
  endpointExited : Bool
  wrapperExited : Bool
  childrenAbsent : Bool
  tokenAbsent : Bool
  sessionAbsent : Bool
  deriving DecidableEq, Repr

/-- `_LAUNCH_FIELDS`. -/
def launchFields : List String :=
  ["status", "endpoint_exited", "wrapper_exited", "children_absent", "token_absent",
    "session_absent"]

def LaunchEvidence.unknown : LaunchEvidence := ⟨.unknown, false, false, false, false, false⟩

def LaunchEvidence.verified (e : LaunchEvidence) : Bool :=
  e.status = .absent && (e.endpointExited && e.wrapperExited && e.childrenAbsent &&
    e.tokenAbsent && e.sessionAbsent)

/-- The dictionary of a launch probe, if it is `valid`. -/
def LaunchEvidence.read (items : Items) : Except Raised (Option LaunchEvidence) :=
  if items.hasFields launchFields then do
    let status ← memberOf launchStatus (items.get "status")
    return match status, items.get "endpoint_exited", items.get "wrapper_exited",
        items.get "children_absent", items.get "token_absent", items.get "session_absent" with
      | some status, .bool a, .bool b, .bool c, .bool d, .bool e => some ⟨status, a, b, c, d, e⟩
      | _, _, _, _, _, _ => none
  else return none

/-- `verify_launch_absence`. -/
def verifyLaunchAbsence (probe : Answer) : Except Raised (LaunchEvidence × Bool) := do
  let value ← match probe with
    | .dict items => LaunchEvidence.read items
    | _ => pure none
  let value := value.getD .unknown
  return (value, value.verified)

/-! ## D9 -/

inductive RadioStatus where
  | quiescent | active | unknown
  deriving DecidableEq, Repr

def radioStatus : String → Option RadioStatus
  | "quiescent" => some .quiescent
  | "active" => some .active
  | "unknown" => some .unknown
  | _ => none

structure RadioEvidence where
  status : RadioStatus
  ownedInterfaces : Option Nat
  driverThreads : Option Nat
  phyActive : Option Bool
  deriving DecidableEq, Repr

/-- `_RADIO_FIELDS`. -/
def radioFields : List String := ["status", "owned_interfaces", "driver_threads", "phy_active"]

def RadioEvidence.unknown : RadioEvidence := ⟨.unknown, none, none, none⟩

def RadioEvidence.quiet : RadioEvidence := ⟨.quiescent, some 0, some 0, some false⟩

def RadioEvidence.clean (e : RadioEvidence) : Bool :=
  e.status = .quiescent && e.ownedInterfaces = some 0 && e.driverThreads = some 0 &&
    e.phyActive = some false

def RadioEvidence.renders (e : RadioEvidence) : Bool :=
  e.ownedInterfaces.getD 0 < digitLimit && e.driverThreads.getD 0 < digitLimit

/-- A count: null or an integer that is not negative. -/
def countOf : PyValue → Option (Option Nat)
  | .none => some none
  | .int (.ofNat n) => some (some n)
  | _ => none

def flagOf : PyValue → Option (Option Bool)
  | .none => some none
  | .bool b => some (some b)
  | _ => none

/-- The dictionary of a radio probe, if it is `valid`. -/
def RadioEvidence.read (items : Items) : Except Raised (Option RadioEvidence) :=
  if items.hasFields radioFields then do
    let status ← memberOf radioStatus (items.get "status")
    return match status, countOf (items.get "owned_interfaces"),
        countOf (items.get "driver_threads"), flagOf (items.get "phy_active") with
      | some status, some owned, some threads, some active => some ⟨status, owned, threads, active⟩
      | _, _, _, _ => none
  else return none

/-- One observation of the D9 loop. -/
def radioObservation (probe : Answer) : Except Raised RadioEvidence := do
  let value ← match probe with
    | .dict items => RadioEvidence.read items
    | _ => pure none
  return value.getD .unknown

/-- The answers of the radio probe: those the loop has time to go on after, and the one
that finds the deadline passed. -/
structure RadioAnswers where
  within : List Answer
  last : Answer
  deriving DecidableEq, Repr

/-- The loop of `verify_stable_radio_quiescence`, from `stable` clean observations in a row. -/
def stableRadio (stableSamples : Nat) (stable : Nat) :
    List Answer → Answer → Except Raised (RadioEvidence × Bool)
  | [], final => do
    let value ← radioObservation final
    let stable := if value.clean then stable + 1 else 0
    return (value, stableSamples ≤ stable)
  | answer :: within, final => do
    let value ← radioObservation answer
    let stable := if value.clean then stable + 1 else 0
    if stableSamples ≤ stable then return (value, true)
    else stableRadio stableSamples stable within final

/-- `verify_stable_radio_quiescence`. -/
def verifyStableRadioQuiescence (stableSamples : Nat) (answers : RadioAnswers) :
    Except Raised (RadioEvidence × Bool) :=
  stableRadio stableSamples 0 answers.within answers.last

/-- `_radio_evidence`: no answers where the run has no radio probe. -/
def radioEvidence (stableSamples : Nat) (softwareOnly : Bool) (answers : Option RadioAnswers) :
    Except Raised (RadioEvidence × Bool) :=
  if softwareOnly then .ok (.quiet, true)
  else match answers with
    | none => .ok (.unknown, false)
    | some answers => verifyStableRadioQuiescence stableSamples answers

/-! ## D10 -/

/-- The error of a lease that raised: its `code` attribute if it has one, and its texts. -/
structure LeaseError where
  code : Option PyValue
  str : String
  typeName : String
  deriving DecidableEq, Repr

/-- What came of `usb_lease.release()`. -/
inductive LeaseAnswer where
  | raised (error : LeaseError)
  | other
  | dict (items : Items)
  deriving DecidableEq, Repr

structure UsbEvidence where
  priorStateRestored : PyValue
  windowsStateVerified : PyValue
  linuxStateVerified : PyValue
  detachedByRun : PyValue
  deriving DecidableEq, Repr

def UsbEvidence.initial : UsbEvidence := ⟨.bool false, .bool false, .bool false, .bool false⟩

def UsbEvidence.ofItems (items : Items) : UsbEvidence :=
  ⟨items.get "prior_state_restored", items.get "windows_state_verified",
    items.get "linux_state_verified", items.get "detached_by_run"⟩

def UsbEvidence.renders (e : UsbEvidence) : Bool :=
  e.priorStateRestored.renders && e.windowsStateVerified.renders &&
    e.linuxStateVerified.renders && e.detachedByRun.renders

/-- `d10_ok` of a lease that returned. -/
def UsbEvidence.returned (e : UsbEvidence) : Bool :=
  e.priorStateRestored = .bool true && e.windowsStateVerified = .bool true &&
    e.linuxStateVerified = .bool true &&
    (e.detachedByRun = .bool true || e.detachedByRun = .bool false)

/-- The code and the message a failed lease is reported with. -/
def LeaseError.code? (e : LeaseError) : String :=
  match e.code with
  | some (.text t) => if Closing.controlCode t then t else "D_USB_RETURN_FAILED"
  | _ => "D_USB_RETURN_FAILED"

def LeaseError.message (e : LeaseError) : String :=
  let text := (e.str.take 500).toString
  if text = "" then e.typeName else text

end SwitchTrade.Release

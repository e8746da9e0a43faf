import SwitchTrade.Transition.Ends
import SwitchTrade.Transition.Run
import Mathlib.Data.List.Basic

/-!
# The lease of one USB adapter

A run takes the selected adapter into WSL (`acquire`) and puts it back as it was
(`release`); a recovery file tells a later process what there is to put back
(`fromRecovery`). Everything the lease asks of the outside is answered by `Answers`: the
inventory of `usbipd`, the Linux probe, the identity resolver, the commands, the file
writes and the clock. A call that asks when no answer is left is cut off there: the process
has crashed.
-/

namespace SwitchTrade.Usb

open InPlace

structure P0Error where
  code : String
  gate : String
  message : String
deriving DecidableEq, Repr

/-- The exceptions the lease tells apart. -/
inductive Raised where
  | p0 (error : P0Error)
  | osError
  | runtimeError
  | valueError
  | timeoutExpired
  | other
deriving DecidableEq, Repr

inductive Failure where
  | raised (exception : Raised)
  | crashed
deriving DecidableEq, Repr

def p0Error (code gate message : String) : Failure := .raised (.p0 ⟨code, gate, message⟩)

/-! ## The adapter -/

def digits (cs : List Char) : Bool := !cs.isEmpty && cs.all Char.isDigit

/-- `_BUS_ID.fullmatch`: a hub, a hyphen and ports separated by dots. -/
def busIdMatches (text : String) : Bool :=
  match text.toList.splitOn '-' with
  | [hub, ports] => digits hub && (ports.splitOn '.').all digits
  | _ => false

/-- An adapter as `parse_usbipd_state` reads it. -/
structure UsbAdapter where
  usbId : String
  instanceId : String
  busId : String
  shared : Bool
  attached : Bool
  bus_matches : busIdMatches busId = true
  instance_named : instanceId ≠ ""
deriving DecidableEq

inductive Status where
  | present
  | absent
  | unknown
  | other (text : String)
deriving DecidableEq, Repr

/-- What the Linux probe reads. -/
structure Linux where
  status : Status
  matchCount : Option Nat
  interfacePresent : Option Bool
  phyPresent : Option Bool
  interfacesUp : Option Nat
  failureCode : Option String
  stderrSha256 : Option String
deriving DecidableEq, Repr

def probeFailureChar (c : Char) : Bool := c.isUpper || c.isDigit || c = '_'

/-- `_PROBE_FAILURE.fullmatch`. -/
def probeFailureMatches (text : String) : Bool :=
  match text.toList with
  | 'P' :: '0' :: '_' :: rest => 1 ≤ rest.length && rest.length ≤ 92 && rest.all probeFailureChar
  | _ => false

/-- The code of a probe that failed, and the fingerprint its message ends with. -/
def linuxProbeError (value : Linux) (fallback : String) : String × String :=
  let code :=
    match value.failureCode with
    | some code => if probeFailureMatches code then code else fallback
    | none => fallback
  let detail :=
    match value.stderrSha256 with
    | some fingerprint => "; probe evidence " ++ fingerprint
    | none => ""
  (code, detail)

/-- The components of a POSIX path: empty ones and `.` are dropped. -/
def pathComponents (text : String) : List (List Char) :=
  (text.toList.splitOn '/').filter fun part => part ≠ [] && part ≠ ['.']

def validLinuxIdentity (value : String) : Bool :=
  value ≠ "" && value.length ≤ 512 && !value.toList.contains (Char.ofNat 0) &&
  value.toList.head? = some '/' && 2 ≤ (pathComponents value).length &&
  (pathComponents value).head? = some "sys".toList &&
  !(pathComponents value).contains "..".toList

/-! ## The lease and its recovery file -/

/-- What the lease takes from its surroundings. -/
structure Host where
  /-- Python's `str.casefold`. -/
  casefold : String → String
  /-- The hexadecimal SHA-256 of a text. -/
  sha256 : String → String
  /-- `require_hardware(select_profile(usb_id.lower()), "relay")` returns. -/
  supported : String → Bool
  /-- `os.name == "nt"`. -/
  nt : Bool

structure Lease where
  adapter : UsbAdapter
  distro : String
  runtimeRoot : String
  /-- `identity_resolver is not None`. -/
  identityResolver : Bool
  exactIdentityRequired : Bool
  acquiredByRun : Bool
  active : Bool
  linuxIdentity : Option String
deriving DecidableEq

/-- `UsbLease(adapter, …)`. -/
def Lease.new (adapter : UsbAdapter) (distro runtimeRoot : String) (identityResolver : Bool) :
    Lease where
  adapter := adapter
  distro := distro
  runtimeRoot := runtimeRoot
  identityResolver := identityResolver
  exactIdentityRequired := identityResolver
  acquiredByRun := false
  active := false
  linuxIdentity := none

/-- The value in the recovery file. -/
structure Recovery where
  schema : Nat
  usbId : String
  instanceId : String
  busId : String
  priorAttached : Bool
  attachIntent : Bool
  acquiredByRun : Bool
  linuxIdentity : Option String
  exactIdentityRequired : Option Bool
deriving DecidableEq, Repr

def recoveryInvalid (message : String) : P0Error :=
  ⟨"P0_RECOVERY_STATE_INVALID", "D10_usb_return", message⟩

/-- `UsbLease.from_recovery` on the value it reads. -/
def fromRecovery (host : Host) (distro runtimeRoot : String) (identityResolver : Bool)
    (value : Recovery) : Except P0Error Lease :=
  if h : value.instanceId ≠ "" ∧ busIdMatches value.busId = true then
    if value.schema ≠ 1 ∨ (value.linuxIdentity.any fun id => !validLinuxIdentity id) then
      .error (recoveryInvalid "USB recovery state is invalid")
    else if host.supported value.usbId = false then
      .error (recoveryInvalid "USB recovery profile is invalid")
    else
      .ok {
        adapter := {
          usbId := value.usbId
          instanceId := value.instanceId
          busId := value.busId
          shared := true
          attached := value.priorAttached
          bus_matches := h.2
          instance_named := h.1 }
        distro := distro
        runtimeRoot := runtimeRoot
        identityResolver := identityResolver
        -- an attach intent for a previously detached adapter is authority enough to detach it
        acquiredByRun := value.attachIntent && !value.priorAttached
        active := true
        linuxIdentity := value.linuxIdentity
        exactIdentityRequired :=
          value.exactIdentityRequired.getD false || value.linuxIdentity.isSome ||
            identityResolver }
  else
    .error (recoveryInvalid "USB recovery state is invalid")

/-! ## What the outside answers -/

structure Completed (α : Type) where
  returncode : Int
  stdout : α

/-- How `atomic_json` ends: the file is replaced, or it raised before or after that. -/
inductive Write where
  | replaced
  | refused
  | replacedThenRaised
deriving DecidableEq, Repr

/-- The answers one call meets, in order. The text of `usbipd state` is given as what
`parse_usbipd_state` makes of it. -/
structure Answers where
  checkpoints : List (Option Raised)
  states : List (Except Raised (Completed (Except P0Error (List UsbAdapter))))
  probes : List (Except Raised Linux)
  identities : List (Except Raised String)
  commands : List (Except Raised (Completed Unit))
  writes : List Write
  /-- `time.monotonic() < deadline` -/
  ticks : List Bool
  unlinks : List (Option Raised)

/-- What a call did and read, newest first. -/
inductive Entry where
  | command (arguments : List String)
  | windows (adapter : Option UsbAdapter)
  | linux (target : String) (value : Linux)

structure Working where
  lease : Lease
  file : Option Recovery
  log : List Entry
  answers : Answers

abbrev Call := EStateM Failure Working

/-- One answer from the outside. -/
def ask {α : Type} (next : Answers → Option (α × Answers)) : Call α := fun w =>
  match next w.answers with
  | some (a, rest) => .ok a { w with answers := rest }
  | none => .error .crashed w

/-- An answer that is an exception is raised. -/
def answer {α : Type} : Except Raised α → Call α
  | .ok a => pure a
  | .error e => throw (.raised e)

def note (entry : Entry) : Call PUnit := modify fun w => { w with log := entry :: w.log }

namespace Answers

def nextCheckpoint (e : Answers) : Option (Option Raised × Answers) :=
  match e.checkpoints with
  | x :: xs => some (x, { e with checkpoints := xs })
  | [] => none

def nextState (e : Answers) :
    Option (Except Raised (Completed (Except P0Error (List UsbAdapter))) × Answers) :=
  match e.states with
  | x :: xs => some (x, { e with states := xs })
  | [] => none

def nextProbe (e : Answers) : Option (Except Raised Linux × Answers) :=
  match e.probes with
  | x :: xs => some (x, { e with probes := xs })
  | [] => none

def nextIdentity (e : Answers) : Option (Except Raised String × Answers) :=
  match e.identities with
  | x :: xs => some (x, { e with identities := xs })
  | [] => none

def nextCommand (e : Answers) : Option (Except Raised (Completed Unit) × Answers) :=
  match e.commands with
  | x :: xs => some (x, { e with commands := xs })
  | [] => none

def nextWrite (e : Answers) : Option (Write × Answers) :=
  match e.writes with
  | x :: xs => some (x, { e with writes := xs })
  | [] => none

def nextUnlink (e : Answers) : Option (Option Raised × Answers) :=
  match e.unlinks with
  | x :: xs => some (x, { e with unlinks := xs })
  | [] => none

end Answers

/-! ## The statements of the lease -/

def raiseGiven : Option Raised → Call PUnit
  | some e => throw (.raised e)
  | none => pure ⟨⟩

def checkpoint : Call PUnit := do
  raiseGiven (← ask Answers.nextCheckpoint)

/-- `_run`, with the answer of the runner. -/
def run {α : Type} (next : Answers → Option (Except Raised (Completed α) × Answers))
    (command : List String) (code gate : String) : Call α := do
  note (.command command)
  match ← ask next with
  | .ok result =>
    raiseIf (result.returncode ≠ 0)
      (p0Error code gate ("command failed: " ++ command.headD ""))
    return result.stdout
  | .error e =>
    raiseIf (e = .osError ∨ e = .timeoutExpired)
      (p0Error code gate ("command unavailable: " ++ command.headD ""))
    throw (.raised e)

/-- `wsl_root_command`. -/
def wslRootCommand (distro runtimeRoot : String) (command : List String) :
    Except Failure (List String) :=
  let nul := Char.ofNat 0
  if distro = "" ∨ distro.toList.contains nul ∨ runtimeRoot = "" ∨
      runtimeRoot.toList.contains nul ∨ runtimeRoot.toList.head? ≠ some '/' ∨ command = [] then
    .error (.raised .valueError)
  else if (command.any fun item => item = "" || item.toList.contains nul) then
    .error (.raised .valueError)
  else
    .ok (["wsl.exe", "-d", distro, "-u", "root", "--cd", runtimeRoot, "--"] ++ command)

/-- `_inventory`. -/
def inventory : Call (List UsbAdapter) := do
  match ← run Answers.nextState ["usbipd.exe", "state"] "P0_USBIPD_STATE_UNAVAILABLE"
      "P0b_lease" with
  | .ok devices => return devices
  | .error e => throw (.raised (.p0 e))

section Statements

variable (host : Host)

/-- The devices of the inventory with the instance of the lease's adapter. -/
def sameInstance (adapter : UsbAdapter) (devices : List UsbAdapter) : List UsbAdapter :=
  devices.filter fun item => host.casefold item.instanceId = host.casefold adapter.instanceId

/-- `_current`. -/
def current : Call UsbAdapter := do
  let adapter := (← get).lease.adapter
  match sameInstance host adapter (← inventory) with
  | [item] =>
    raiseIf (item.usbId ≠ adapter.usbId)
      (p0Error "P0_ADAPTER_IDENTITY_CHANGED" "P0b_lease" "selected adapter identity changed")
    note (.windows (some item))
    return item
  | _ =>
    throw (p0Error "P0_ADAPTER_IDENTITY_CHANGED" "P0b_lease" "selected adapter identity changed")

def returnIdentityChanged : Failure :=
  p0Error "P0_ADAPTER_IDENTITY_CHANGED" "D10_usb_return"
    "selected adapter identity changed during USB return"

/-- `_current_after_detach`: Windows may show no adapter while it enumerates again. -/
def currentAfterDetach : Call (Option UsbAdapter) := do
  let adapter := (← get).lease.adapter
  match sameInstance host adapter (← inventory) with
  | [] =>
    note (.windows none)
    return none
  | [item] =>
    raiseIf (item.usbId ≠ adapter.usbId ∨ item.busId ≠ adapter.busId) returnIdentityChanged
    note (.windows (some item))
    return some item
  | _ => throw returnIdentityChanged

/-- `_probe`. -/
def probe : Call Linux := do
  let lease := (← get).lease
  raiseIf (lease.exactIdentityRequired = true ∧ lease.linuxIdentity = none)
    (p0Error "P0_LINUX_IDENTITY_UNAVAILABLE" "P0b_enumeration"
      "the exact Linux USB identity is required")
  let value ← answer (← ask Answers.nextProbe)
  note (.linux (lease.linuxIdentity.getD lease.adapter.usbId) value)
  return value

/-- The value `_persist` writes. -/
def Lease.recovery (lease : Lease) (attachIntent : Bool) : Recovery where
  schema := 1
  usbId := lease.adapter.usbId
  instanceId := lease.adapter.instanceId
  busId := lease.adapter.busId
  priorAttached := lease.adapter.attached
  attachIntent := attachIntent
  acquiredByRun := lease.acquiredByRun
  linuxIdentity := lease.linuxIdentity
  exactIdentityRequired := if lease.exactIdentityRequired then some true else none

def writeFile (attachIntent : Bool) : Call PUnit :=
  modify fun w => { w with file := some (w.lease.recovery attachIntent) }

/-- `_persist`. -/
def persist (attachIntent : Bool) : Call PUnit := do
  match ← ask Answers.nextWrite with
  | .replaced => writeFile attachIntent
  | .refused => throw (.raised .osError)
  | .replacedThenRaised =>
    writeFile attachIntent
    throw (.raised .osError)

/-- The identity the resolver gives. -/
def resolve (gate : String) : Call String := do
  match ← ask Answers.nextIdentity with
  | .ok identity =>
    raiseIf (validLinuxIdentity identity = false)
      (p0Error "P0_LINUX_IDENTITY_INVALID" gate "the exact Linux USB identity is invalid")
    return identity
  | .error e =>
    raiseIf (e = .osError ∨ e = .runtimeError ∨ e = .valueError)
      (p0Error "P0_LINUX_IDENTITY_UNAVAILABLE" gate
        "the exact Linux USB identity could not be resolved")
    throw (.raised e)

/-- `_bind_linux_identity`. -/
def bindLinuxIdentity (attachIntent : Bool) (gate : String) : Call PUnit := do
  let lease := (← get).lease
  if lease.linuxIdentity.isSome then
    return ⟨⟩
  else if lease.identityResolver = false then
    raiseIf (lease.exactIdentityRequired = true)
      (p0Error "P0_LINUX_IDENTITY_UNAVAILABLE" gate
        "the exact Linux USB identity resolver is unavailable")
  else
    let identity ← resolve gate
    modify fun w => { w with lease := { w.lease with linuxIdentity := some identity } }
    persist attachIntent

/-! ## `acquire` -/

structure Evidence where
  adapterInstanceSha256 : String
  usbId : String
  busId : String
  priorAttached : Bool
  acquiredByRun : Bool
  active : Bool
  linuxIdentitySha256 : Option String
deriving DecidableEq, Repr

def evidence (lease : Lease) : Evidence where
  adapterInstanceSha256 := host.sha256 (host.casefold lease.adapter.instanceId)
  usbId := lease.adapter.usbId
  busId := lease.adapter.busId
  priorAttached := lease.adapter.attached
  acquiredByRun := lease.acquiredByRun
  active := lease.active
  linuxIdentitySha256 := lease.linuxIdentity.map host.sha256

def setAcquired : Call PUnit :=
  modify fun w => { w with lease := { w.lease with acquiredByRun := true } }

def setActive (active : Bool) : Call PUnit :=
  modify fun w => { w with lease := { w.lease with active := active } }

/-- The branch of `acquire` for an adapter that is attached already. -/
def acquireAttached : Call PUnit := do
  bindLinuxIdentity false "P0b_enumeration"
  let linux ← probe
  let (code, detail) := linuxProbeError linux "P0_ADAPTER_OWNED_ELSEWHERE"
  raiseIf (linux.status ≠ .present ∨ linux.matchCount ≠ some 1)
    (p0Error code "P0b_lease"
      ("pre-attached adapter does not belong to this SwitchTrade runtime" ++ detail))

/-- The loop that waits until Linux has shown the adapter twice in a row; it gives back the
count and the last reading. -/
def enumerate : List Bool → Nat → Option Linux → Call (Nat × Option Linux)
  | [], _, _ => throw .crashed
  | false :: _, stable, linux => return (stable, linux)
  | true :: ticks, stable, _ => do
    checkpoint
    let now ← current host
    raiseIf (now.busId ≠ (← get).lease.adapter.busId)
      (p0Error "P0_ADAPTER_IDENTITY_CHANGED" "P0b_enumeration"
        "adapter bus identity changed during P0b")
    let linux ← probe
    let stable :=
      if now.attached = true ∧ linux.status = .present ∧ linux.matchCount = some 1 then
        stable + 1
      else 0
    if 2 ≤ stable then return (stable, some linux) else enumerate ticks stable (some linux)

/-- How `acquire` fails if the adapter was not enumerated. Before the first round `linux` is
not bound. -/
def enumerationFailure : Option Linux → Failure
  | none => .raised .other
  | some linux =>
    let (code, detail) :=
      if linux.status = .unknown then linuxProbeError linux "P0_LINUX_ENUMERATION_UNKNOWN"
      else ("P0_LINUX_ENUMERATION_TIMEOUT", "")
    p0Error code "P0b_enumeration"
      ("Linux did not stably enumerate the selected adapter" ++ detail)

/-- The command that loads the modules. -/
def prerequisite (lease : Lease) : Except Failure (List String) :=
  let command := ["modprobe", "-a", "usbip-core", "vhci-hcd"]
  if host.nt then wslRootCommand lease.distro lease.runtimeRoot command else .ok command

def attachCommand (lease : Lease) (busId : String) : List String :=
  ["usbipd.exe", "attach", "--wsl=" ++ lease.distro, "--busid", busId]

/-- The branch of `acquire` for an adapter that is detached. -/
def acquireDetached (busId : String) : Call PUnit := do
  let lease := (← get).lease
  let command ← check (prerequisite host lease)
  run Answers.nextCommand command "P0_USBIP_MODULE_FAILED" "P0b_usbip"
  -- from here on cleanup may detach: the intent is written before the attach can succeed
  setAcquired
  persist true
  run Answers.nextCommand (attachCommand lease busId) "P0_ADAPTER_ATTACH_FAILED" "P0b_usbip"
  bindLinuxIdentity true "P0b_enumeration"
  let (stable, linux) ← enumerate host (← get).answers.ticks 0 none
  raiseIf (stable < 2) (enumerationFailure linux)

/-- The branches of `acquire`. -/
def acquireFrom (current : UsbAdapter) : Call PUnit :=
  if current.attached then acquireAttached else acquireDetached host current.busId

def acquire : Call Evidence := do
  checkpoint
  let lease := (← get).lease
  if lease.active then
    return evidence host lease
  else
    let current ← current host
    raiseIf (current.busId ≠ lease.adapter.busId ∨ current.attached ≠ lease.adapter.attached)
      (p0Error "P0_ADAPTER_IDENTITY_CHANGED" "P0b_lease" "adapter changed after P0a")
    persist (!current.attached)
    acquireFrom host current
    checkpoint
    setActive true
    return evidence host (← get).lease

/-! ## `release` -/

structure Released where
  priorStateRestored : Bool
  windowsStateVerified : Bool
  linuxStateVerified : Bool
  detachedByRun : Bool
deriving DecidableEq, Repr

def detachCommand (busId : String) : List String := ["usbipd.exe", "detach", "--busid", busId]

/-- How `release` fails if Linux does not show the radio at rest. -/
def quiescenceFailure (linux : Linux) : Failure :=
  let (code, detail) :=
    if linux.status = .unknown then linuxProbeError linux "P0_CLEANUP_UNKNOWN"
    else ("P0_RADIO_NOT_QUIESCENT", "")
  p0Error code "D9_radio_quiescence"
    ("radio quiescence was not proven before USB detach" ++ detail)

/-- Linux shows one match with no interface up. -/
def Linux.quiescent (linux : Linux) : Prop :=
  linux.status = .present ∧ linux.matchCount = some 1 ∧ linux.interfacesUp = some 0

/-- Linux shows nothing of the adapter. -/
def Linux.gone (linux : Linux) : Prop :=
  linux.status = .absent ∧ linux.matchCount = some 0 ∧ linux.interfacePresent = some false ∧
    linux.phyPresent = some false ∧ linux.interfacesUp = some 0

instance (linux : Linux) : Decidable linux.quiescent := by
  unfold Linux.quiescent
  infer_instance

instance (linux : Linux) : Decidable linux.gone := by
  unfold Linux.gone
  infer_instance

/-- Windows shows the adapter, detached. -/
def shownDetached : Option UsbAdapter → Bool
  | some now => !now.attached
  | none => false

/-- What the loop of `release` has seen. -/
structure Seen where
  stable : Nat
  windowsSeen : Bool
  linux : Option Linux

/-- The loop that waits until both sides have shown the adapter gone three times in a row. -/
def awaitReturn : List Bool → Seen → Call Seen
  | [], _ => throw .crashed
  | false :: _, seen => return seen
  | true :: ticks, seen => do
    let now ← currentAfterDetach host
    let linux ← probe
    let stable := if shownDetached now = true ∧ linux.gone then seen.stable + 1 else 0
    let seen := ⟨stable, seen.windowsSeen || now.isSome, some linux⟩
    if 3 ≤ stable then return seen else awaitReturn ticks seen

/-- How `release` fails if the return was not verified. -/
def returnFailure (seen : Seen) : Failure :=
  match seen.linux with
  | none => .raised .other
  | some linux =>
    let (code, detail) :=
      if linux.status = .unknown then linuxProbeError linux "P0_CLEANUP_UNKNOWN"
      else (if seen.windowsSeen then "P0_CLEANUP_FAILED" else "P0_CLEANUP_UNKNOWN", "")
    p0Error code "D10_usb_return" ("adapter release could not be verified" ++ detail)

/-- Windows may renumber the buses: a detached adapter is followed to its new bus. -/
def followBus (current : UsbAdapter) : Call PUnit := do
  let lease := (← get).lease
  if current.busId = lease.adapter.busId then
    return ⟨⟩
  else
    raiseIf (current.attached = true)
      (p0Error "P0_ADAPTER_IDENTITY_CHANGED" "D10_usb_return"
        "attached adapter bus identity changed before USB return")
    modify fun w => { w with lease := { w.lease with adapter := current } }

def detach (current : UsbAdapter) : Call PUnit := do
  let linux ← probe
  raiseIf (¬ linux.quiescent) (quiescenceFailure linux)
  run Answers.nextCommand (detachCommand current.busId) "P0_ADAPTER_DETACH_FAILED"
    "D10_usb_return"

def detachIfAttached (current : UsbAdapter) : Call PUnit :=
  if current.attached then detach current else pure ⟨⟩

/-- The branch of `release` for an adapter the run has attached. -/
def releaseAcquired (current : UsbAdapter) : Call PUnit := do
  followBus current
  detachIfAttached current
  let seen ← awaitReturn host (← get).answers.ticks ⟨0, false, none⟩
  raiseIf (seen.stable < 3) (returnFailure seen)

/-- The branch of `release` for an adapter the run has not attached. -/
def releasePrior (current : UsbAdapter) : Call PUnit := do
  let linux ← probe
  raiseIf (current.attached = false ∨ ¬ linux.quiescent)
    (p0Error "P0_PRIOR_OWNERSHIP_NOT_RESTORED" "D10_usb_return"
      "the pre-existing adapter attachment changed")

/-- The exact identity `release` needs, if it is not known yet. -/
def bindForRelease (current : UsbAdapter) : Call PUnit := do
  let lease := (← get).lease
  if lease.exactIdentityRequired = true ∧ lease.linuxIdentity = none then
    raiseIf (current.attached = false)
      (p0Error "P0_CLEANUP_UNKNOWN" "D10_usb_return"
        "the exact Linux USB identity disappeared before cleanup")
    bindLinuxIdentity lease.acquiredByRun "D10_usb_return"
  else
    return ⟨⟩

def unlinkRecovery : Call PUnit := do
  raiseGiven (← ask Answers.nextUnlink)
  modify fun w => { w with file := none }

/-- The branches of `release`. -/
def releaseBy (acquiredByRun : Bool) (current : UsbAdapter) : Call PUnit :=
  if acquiredByRun then releaseAcquired host current else releasePrior current

def release : Call Released := do
  let w ← get
  if w.file = none ∧ w.lease.active = false then
    return ⟨true, true, true, false⟩
  else
    let current ← current host
    bindForRelease current
    releaseBy host w.lease.acquiredByRun current
    setActive false
    unlinkRecovery
    return ⟨true, true, true, w.lease.acquiredByRun⟩

end Statements

end SwitchTrade.Usb

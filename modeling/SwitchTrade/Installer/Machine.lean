import SwitchTrade.Installer.WslConfig
import SwitchTrade.Transition.Ends

/-!
# The machine SwitchTrade is installed on

What the provisioner reads and changes: the files of its state, `.wslconfig`, the kernels, the
directories and the WSL registrations. Every operation has a site in the source; an `Oracle`
says for each site how the operation ends there. An operation may raise or the process may end
in it, before its effect or after; a view of the registrations may omit some of them.
-/

namespace SwitchTrade.Installer

open InPlace WslConfig

/-! ## Exceptions -/

structure ProvisionerException where
  code : String
  stage : String
  message : String
  recoverable : Bool
  primaryAction : String
  exitCode : Nat
deriving DecidableEq, Repr

namespace ProvisionerException

def integrity (code message : String) : ProvisionerException :=
  ⟨code, "package_integrity", message, false, "Download a new SwitchTrade Setup package", 30⟩

def state (code message : String) (action : String := "Run Setup Repair") : ProvisionerException :=
  ⟨code, "state_inspection", message, true, action, 10⟩

def wsl (code message : String) (recoverable : Bool := true) : ProvisionerException :=
  ⟨code, "wsl_runtime", message, recoverable,
    if recoverable then "Run Setup Repair" else "Contact SwitchTrade support", 40⟩

def kernel (code message : String) (recoverable : Bool := true) : ProvisionerException :=
  ⟨code, "kernel_configuration", message, recoverable,
    if recoverable then "Run Setup Repair" else "Contact SwitchTrade support", 50⟩

end ProvisionerException

inductive Raised where
  | provisioner (exception : ProvisionerException)
  | canceled
  | io
  | unauthorized
  | other
deriving DecidableEq, Repr

/-- How a call ends that does not return. -/
inductive Failure where
  | raised (exception : Raised)
  | crashed
deriving DecidableEq, Repr

def raise (exception : ProvisionerException) : Failure := .raised (.provisioner exception)

/-! ## Records -/

/-- The components of a full path. -/
abbrev Path := List Text

structure ActiveRuntime where
  schema : Nat
  releaseId : Text
  activeName : Text
  previousName : Option Text
  kernelRelease : Text
  controlContract : Text
deriving DecidableEq

structure OperationJournal where
  schema : Nat
  operationId : Text
  action : String
  releaseId : Text
  runtimeContentId : Option Text
  candidateName : Option Text
  candidateLocation : Option Path
  previousName : Option Text
  committed : Bool
deriving DecidableEq

structure KernelState where
  schema : Nat
  originalExists : Bool
  originalBackup : Path
  originalSha256 : Text
  installedKernel : Text
  installedKernelSha256 : Text
  kernelRelease : Text
  appliedKernelValue : Text
deriving DecidableEq

/-- The file `/etc/switchtrade-distro.json` of a runtime, of either kind. -/
structure Marker where
  schema : Nat
  owner : Text
  product : Text
  releaseId : Option Text
  payloadSha256 : Option Text
  installId : Option Text
deriving DecidableEq

/-- A runtime registered with WSL; a marker that cannot be read is no marker. -/
structure Registration where
  name : Text
  basePath : Path
  marker : Option Marker
deriving DecidableEq

/-- The legacy `setup-transaction.json`; a malformed one reads as no values. -/
structure Transaction where
  malformed : Bool
  distroBasePath : Option Path
  installId : Option Text
deriving DecidableEq

/-! ## The machine -/

structure Paths where
  dataRoot : Path
  kernelRoot : Path
  enforceAsciiKernelPath : Bool
  kernelRoot_rooted : ∃ c drive rest, kernelRoot = (c :: drive) :: rest ∧ isSpace c = false
  kernelRoot_oneLine : ∀ part ∈ kernelRoot, '\n' ∉ part

namespace Paths

def stateRoot (paths : Paths) : Path := paths.dataRoot ++ ["state".toList]

def runtimeRoot (paths : Paths) : Path := paths.dataRoot ++ ["runtimes".toList]

def logRoot (paths : Paths) : Path := paths.dataRoot ++ ["logs".toList, "setup".toList]

def backup (paths : Paths) : Path :=
  paths.stateRoot ++ ["backups".toList, "wslconfig-original.bin".toList]

end Paths

/-- What the provisioner takes from its surroundings. -/
structure Host where
  paths : Paths
  casing : Casing
  /-- The hexadecimal SHA-256 of a text file. -/
  contentSha256 : Content → Text
  /-- The hexadecimal SHA-256 of a kernel image. -/
  imageSha256 : Text → Text
  imageSha256_hex : ∀ image, (imageSha256 image).length = 64 ∧
    ∀ c ∈ imageSha256 image, isSpace c = false
  windows64 : Bool
  windowsBuild : Nat

/-- An act on a runtime or a directory; `shutdown` names none, it ends whatever runs. -/
inductive Destruction where
  | terminated (name : Text)
  | unregistered (name : Text)
  | deleted (path : Path)
  | shutdown
deriving DecidableEq

/-- An act, with what was registered and active when it took place. -/
structure Act where
  destruction : Destruction
  registrations : List Registration
  active : Option ActiveRuntime

structure Machine where
  config : Option Content
  backup : Option Content
  /-- The file of the kernel state; one that was cut off holds no record. -/
  kernelFile : Option (Option KernelState)
  /-- The kernel images by the path they are installed under. -/
  kernels : Text → Option Text
  active : Option ActiveRuntime
  journal : Option OperationJournal
  transaction : Option Transaction
  setupResume : Bool
  /-- What `ReadLegacyBackup` reads. -/
  legacyBackup : Option (Bool × Content)
  directories : List Path
  registrations : List Registration
  log : List Act

/-- The record in the file of the kernel state. -/
def Machine.kernelState (m : Machine) : Option KernelState := m.kernelFile.join

/-! ## The oracle -/

/-- The callers of the removal routine, with what each of them removes. -/
inductive Caller where
  | recoverCandidate
  | rollbackCandidate
  | previous (recovering : Bool)
  | uninstallTarget
  | orphan (cleanup : Bool) (recovering : Bool)
deriving DecidableEq, Repr

inductive RemovalSite where
  | registration
  | names
  | verifyRegistration
  | marker
  | terminate
  | unregister
  | pollRegistration (attempt : Nat)
  | pollNames (attempt : Nat)
  | delay (attempt : Nat)
  | tree
deriving DecidableEq, Repr

/-- The parts of `Uninstall`, `FinishCommittedCleanup` and `RepairAsync` that look at the legacy
runtime. -/
inductive LegacySite where
  | registration
  | names
  | verifyRegistration
  | transaction
  | marker
  | terminate
  | unregister
  | orphanedTree
  | recoveryTree
  | transactionFile
  | resumeFile
  | kernelStateFile
deriving DecidableEq, Repr

inductive Phase where
  | inspect
  | recover
  | repair
  | replace
  | uninstall
deriving DecidableEq, Repr

/-- The operations of the provisioner, by their place in the source. -/
inductive Site where
  | ensure
  | lock
  | removal (caller : Caller) (name : Text) (site : RemovalSite)
  | legacy (phase : Phase) (site : LegacySite)
  | orphanNames (phase : Phase)
  | orphanRegistration (phase : Phase) (name : Text)
  | orphanDirectories (phase : Phase)
  | inspectNames (attempt : Nat)
  | inspectRegistration (attempt : Nat)
  | inspectDelay
  | readJournal (phase : Phase)
  | readActive (phase : Phase)
  -- `KernelManager`
  | prepareKernelDirectory
  | copyKernel
  | secureKernel
  | readKernelState
  | readOriginal
  | writeBackup
  | readConfig
  | writeConfig
  | writeKernelState
  | copyConflict
  | deleteConfig
  -- `ReplaceAsync`
  | version
  | diskCapacity
  | runtimeRoot
  | writeJournal
  | readOld
  | shutdown
  | install
  | verifyCandidate (site : RemovalSite)
  | uname
  | health
  | writeActive
  | commitJournal
  | restoreConfig
  | restoreKernelState
  | rollbackShutdown
  | deleteJournal (phase : Phase)
  | clearPrevious (phase : Phase)
  -- `UninstallAsync`
  | uninstallShutdown
  | removeTree (path : Path)
deriving DecidableEq

/-- The files of the state directory. -/
inductive StateFile where
  | active
  | backups
  | kernelState
  | journal
deriving DecidableEq, Repr

structure Answer where
  /-- How the operation fails, if it does. -/
  fails : Option Failure
  /-- An operation that fails had its effect. -/
  done : Bool
  /-- The registrations that a view omits. -/
  omitted : List Text
  /-- What an installation that fails leaves registered. -/
  left : Option Registration
  /-- What is gone of the state directory when its removal fails. -/
  gone : List StateFile
  /-- What a file holds that a failing write in place has cut off. -/
  part : Option Content
  output : Text
  version : List Nat
  freeSpace : Nat

/-- The operation does what it is asked. -/
def Answer.good : Answer where
  fails := none
  done := true
  omitted := []
  left := none
  gone := []
  part := none
  output := []
  version := []
  freeSpace := 0

abbrev Oracle := Site → Answer

abbrev Call := EStateM Failure Machine

/-! ## Operations -/

variable (o : Oracle)

/-- An operation with an effect; when it fails it leaves what `broken` says. -/
def attempt (site : Site) (effect broken : Machine → Machine) : Call PUnit :=
  match (o site).fails with
  | none => modify effect
  | some failure => do
    modify broken
    throw failure

/-- A command: when it fails it may have had its effect. -/
def command (site : Site) (effect : Machine → Machine) : Call PUnit :=
  attempt o site effect fun m => if (o site).done then effect m else m

/-- The process ends after the operation, before the call goes on. -/
def CutAfter (site : Site) : Prop := (o site).fails = some .crashed ∧ (o site).done = true

instance (site : Site) : Decidable (CutAfter o site) := by
  unfold CutAfter
  infer_instance

/-- A change of a file: it raises without effect; the process may end after it. -/
def write (site : Site) (effect : Machine → Machine) : Call PUnit :=
  attempt o site effect fun m => if CutAfter o site then effect m else m

/-- What a file of `held` holds when the call that gives it `bytes` fails: `File.Delete` leaves
it, `File.WriteAllBytes` has emptied it first unless it could not be opened. -/
def Answer.leaves {α : Type} (answer : Answer) (cut : Content → α) (bytes held : Option α) :
    Option α :=
  match bytes with
  | none => held
  | some whole =>
    if answer.done then some whole else answer.part.elim held fun part => some (cut part)

/-- A file is deleted, or written in place. -/
def putBytes {α : Type} (site : Site) (put : Option α → Machine → Machine)
    (held : Machine → Option α) (cut : Content → α) (bytes : Option α) : Call PUnit :=
  attempt o site (put bytes) fun m =>
    if CutAfter o site then put bytes m else put ((o site).leaves cut bytes (held m)) m

/-- An operation that reads. -/
def look {α : Type} (site : Site) (read : Machine → α) : Call α :=
  match (o site).fails with
  | none => do
    let m ← get
    pure (read m)
  | some failure => throw failure

section Operations

variable {α : Type} {site : Site} {effect broken : Machine → Machine} {read : Machine → α}
  {E : Failure → Machine → Prop} {m : Machine} {P : Machine → Prop}

theorem attempt_ends {Q : PUnit → Machine → Prop} (hok : (o site).fails = none → Q ⟨⟩ (effect m))
    (hfail : ∀ e, (o site).fails = some e → E e (broken m)) :
    Ends (attempt o site effect broken) Q E m := by
  unfold attempt
  cases h : (o site).fails with
  | none => exact Ends.modify (hok h)
  | some e => exact Ends.bind (Ends.modify (Ends.throw (hfail e h)))

theorem look_ends {Q : α → Machine → Prop} (hok : (o site).fails = none → Q (read m) m)
    (hfail : ∀ e, (o site).fails = some e → E e m) : Ends (look o site read) Q E m := by
  unfold look
  cases h : (o site).fails with
  | none => exact Ends.bind (Ends.get (Ends.pure (hok h)))
  | some e => exact Ends.throw (hfail e h)

/-- A command fails before its effect or after. -/
theorem command_ends {Q : PUnit → Machine → Prop} (hok : (o site).fails = none → Q ⟨⟩ (effect m))
    (hbefore : ∀ e, (o site).fails = some e → E e m)
    (hafter : ∀ e, (o site).fails = some e → (o site).done = true → E e (effect m)) :
    Ends (command o site effect) Q E m := by
  apply attempt_ends o hok
  intro e he
  by_cases hdone : (o site).done = true
  · rw [if_pos hdone]
    exact hafter e he hdone
  · rw [if_neg hdone]
    exact hbefore e he

/-- A change of a file fails without effect, or the process ends after it. -/
theorem write_ends {Q : PUnit → Machine → Prop} (hok : (o site).fails = none → Q ⟨⟩ (effect m))
    (hbefore : ∀ e, (o site).fails = some e → ¬ CutAfter o site → E e m)
    (hafter : CutAfter o site → E .crashed (effect m)) : Ends (write o site effect) Q E m := by
  apply attempt_ends o hok
  intro e he
  by_cases hc : CutAfter o site
  · rw [if_pos hc]
    rw [hc.1] at he
    cases he
    exact hafter hc
  · rw [if_neg hc]
    exact hbefore e he hc

/-- The file is what it was given, or what `Answer.leaves` says. -/
theorem putBytes_ends {β : Type} {put : Option β → Machine → Machine}
    {held : Machine → Option β} {cut : Content → β} {bytes : Option β}
    {Q : PUnit → Machine → Prop} (hok : (o site).fails = none → Q ⟨⟩ (put bytes m))
    (hraised : ∀ x, (o site).fails = some (.raised x) →
      E (.raised x) (put ((o site).leaves cut bytes (held m)) m))
    (hcrashed : ∀ t, E .crashed t) : Ends (putBytes o site put held cut bytes) Q E m := by
  apply attempt_ends o hok
  rintro (x | -) he
  · rw [if_neg fun hc => absurd (hc.1.symm.trans he) (by simp)]
    exact hraised x he
  · exact hcrashed _

theorem putBytes_of_none {β : Type} {put : Option β → Machine → Machine}
    {held : Machine → Option β} {cut : Content → β} {bytes : Option β}
    (h : (o site).fails = none) :
    (putBytes o site put held cut bytes).run m = .ok ⟨⟩ (put bytes m) := by
  unfold putBytes attempt
  rw [h]
  rfl

theorem putBytes_of_raised {β : Type} {put : Option β → Machine → Machine}
    {held : Machine → Option β} {cut : Content → β} {bytes : Option β} {x : Raised}
    (h : (o site).fails = some (.raised x)) :
    (putBytes o site put held cut bytes).run m =
      .error (.raised x) (put ((o site).leaves cut bytes (held m)) m) := by
  have hcut : ¬ CutAfter o site := by
    rintro ⟨hc, -⟩
    rw [h] at hc
    cases hc
  unfold putBytes attempt
  rw [h]
  show EStateM.Result.error (Failure.raised x) (if CutAfter o site then put bytes m else _) = _
  rw [if_neg hcut]

/-- An operation keeps what its effects keep. -/
theorem attempt_keeps (h : ∀ m, P m → P (effect m)) (hb : ∀ m, P m → P (broken m)) :
    Keeps P (attempt o site effect broken) :=
  fun m hm => attempt_ends o (fun _ => h m hm) fun _ _ => hb m hm

theorem command_keeps (h : ∀ m, P m → P (effect m)) : Keeps P (command o site effect) :=
  fun m hm => command_ends o (fun _ => h m hm) (fun _ _ => hm) fun _ _ _ => h m hm

theorem write_keeps (h : ∀ m, P m → P (effect m)) : Keeps P (write o site effect) :=
  fun m hm => write_ends o (fun _ => h m hm) (fun _ _ _ => hm) fun _ => h m hm

theorem putBytes_keeps {β : Type} {put : Option β → Machine → Machine}
    {held : Machine → Option β} {cut : Content → β} {bytes : Option β}
    (h : ∀ file m, P m → P (put file m)) : Keeps P (putBytes o site put held cut bytes) := by
  refine attempt_keeps o (fun m hm => h _ m hm) fun m hm => ?_
  split
  · exact h _ m hm
  · exact h _ m hm

theorem look_keeps : Keeps P (look o site read) :=
  fun _ hm => look_ends o (fun _ => hm) fun _ _ => hm

end Operations

end SwitchTrade.Installer

import SwitchTrade.Installer.KernelManager
import SwitchTrade.Installer.Runtimes

/-!
# The provisioning engine

`replaceRuntime` installs a candidate, verifies it and makes it the active runtime; until the
active pointer names it a failure rolls back. `recoverInterrupted` deals with what an operation
that did not finish has left, `install`, `repair` and `uninstall` are the operations.
-/

namespace SwitchTrade.Installer

open InPlace WslConfig

variable (host : Host) (o : Oracle)

/-! ## Inspection and the lock -/

def ensureDirectory (path : Path) (m : Machine) : Machine :=
  if path ∈ m.directories then m else { m with directories := m.directories ++ [path] }

/-- `paths.Ensure()` and the lock file. -/
def acquireLock : Call PUnit :=
  write o .lock (ensureDirectory host.paths.stateRoot)

/-- `names.Contains(name) || wsl.Registration(name) is not null`. -/
def inEitherView (names : List Text) (name : Text) (attempt : Nat) : Call Bool :=
  if ContainsName host.casing names name then pure true
  else do
    let registration ← lookUp host o (.inspectRegistration attempt) name
    pure registration.isSome

/-- `ActiveRuntimeExistsAsync`. -/
def activeRuntimeExists (name : Text) (initialNames : List Text) : Call Bool := do
  let first ← inEitherView host o initialNames name 0
  if first then pure true
  else do
    look o .inspectDelay fun _ => PUnit.unit
    let names ← listNames host o (.inspectNames 1)
    inEitherView host o names name 1

/-- The operation did not commit its candidate. -/
def Partial (journal : Option OperationJournal) (active : Option ActiveRuntime) : Prop :=
  ∃ j, journal = some j ∧ j.committed = false ∧
    active.map ActiveRuntime.activeName ≠ j.candidateName

instance (journal : Option OperationJournal) (active : Option ActiveRuntime) :
    Decidable (Partial journal active) :=
  inferInstanceAs (Decidable (∃ j ∈ journal, j.committed = false ∧
    active.map ActiveRuntime.activeName ≠ j.candidateName))

/-- The state of `InspectAsync`, from the names that WSL lists. -/
def stateOf (journal : Option OperationJournal) (active : Option ActiveRuntime)
    (names : List Text) : Call String :=
  if Partial journal active then pure "partial"
  else
    match active with
    | none => do
      let m ← get
      pure (if ContainsName host.casing names legacyName ∨ m.transaction.isSome = true ∨
        m.setupResume = true then "legacy" else "absent")
    | some active => do
      let present ← activeRuntimeExists host o active.activeName names
      let m ← get
      if present = false then pure "corrupt"
      else
        raiseIf (m.kernelFile = some none) (raise (stateFileInvalid (o .readKernelState).output))
        pure (if ∃ state, m.kernelState = some state ∧
          (m.kernels state.installedKernel).map host.imageSha256 = some state.installedKernelSha256
        then (if journal.isSome then "software_ready_cleanup_pending" else "software_ready")
        else "kernel_invalid")

/-- WSL is not there. -/
def WslMissing (failure : Failure) : Prop :=
  ∃ e, failure = .raised (.provisioner e) ∧
    (e.code = "WSL_PREREQUISITE_MISSING" ∨ e.code = "WSL_ENUMERATION_FAILED")

instance (failure : Failure) : Decidable (WslMissing failure) :=
  match failure with
  | .raised (.provisioner e) =>
    decidable_of_iff (e.code = "WSL_PREREQUISITE_MISSING" ∨ e.code = "WSL_ENUMERATION_FAILED")
      ⟨fun h => ⟨e, rfl, h⟩, by
        rintro ⟨_, ⟨⟩, h⟩
        exact h⟩
  | .raised .canceled => .isFalse (by simp [WslMissing])
  | .raised .io => .isFalse (by simp [WslMissing])
  | .raised .unauthorized => .isFalse (by simp [WslMissing])
  | .raised .other => .isFalse (by simp [WslMissing])
  | .crashed => .isFalse (by simp [WslMissing])

/-- The names, unless WSL is missing. -/
def namesIfAny : Call (Option (List Text)) :=
  match (o (.inspectNames 0)).fails with
  | some failure => if WslMissing failure then pure none else throw failure
  | none => do
    let names ← listNames host o (.inspectNames 0)
    pure (some names)

/-- The state of `InspectAsync`. -/
def inspectState : Call String := do
  write o .ensure (ensureDirectory host.paths.stateRoot)
  let journal ← look o (.readJournal .inspect) Machine.journal
  let active ← look o (.readActive .inspect) Machine.active
  let names ← namesIfAny host o
  match names with
  | none => pure "wsl_missing"
  | some names => stateOf host o journal active names

/-! ## Committed cleanup and recovery -/

def journalIdentityIncomplete : ProvisionerException :=
  .state "JOURNAL_IDENTITY_INCOMPLETE"
    "The interrupted runtime has no verifiable payload identity." contactSupport

def journalCommitInconsistent : ProvisionerException :=
  .state "JOURNAL_COMMIT_INCONSISTENT"
    "The committed setup journal does not match the active runtime." contactSupport

def deleteJournal (m : Machine) : Machine := { m with journal := none }

/-- The previous runtime, or the legacy one. -/
def removePrevious (phase : Phase) (recovering : Bool) (active : ActiveRuntime) : Call PUnit :=
  match active.previousName with
  | some name => removeOwnedRuntime host o (.previous recovering) name none none none
  | none => do
    let legacy ← legacyExists host o phase
    if legacy then removeLegacy host o phase else pure ⟨⟩

/-- `FinishCommittedCleanupAsync`. -/
def finishCommittedCleanup (phase : Phase) (recovering : Bool) (active : ActiveRuntime) :
    Call PUnit := do
  removePrevious host o phase recovering active
  removeOrphanedOwnedRuntimes host o phase (.orphan true recovering) active.activeName
  removeLegacyArtifacts host o phase
  write o (.clearPrevious phase) fun m =>
    { m with active := some { active with previousName := none } }
  write o (.deleteJournal phase) deleteJournal

/-- The payload identity of an interrupted runtime. -/
def candidateContentId (journal : OperationJournal) (manifest : ReleaseManifest) :
    Except Failure Text :=
  match journal.runtimeContentId with
  | some contentId =>
    if contentId.all isSpace then incomplete else .ok contentId
  | none => incomplete
where
  incomplete : Except Failure Text :=
    if journal.releaseId ≠ manifest.releaseId ∨ manifest.runtimeContentId.all isSpace = true then
      .error (raise journalIdentityIncomplete)
    else .ok manifest.runtimeContentId

/-- `RemoveCandidateBestEffortAsync`. -/
def removeCandidateBestEffort (caller : Caller) (journal : OperationJournal)
    (manifest : ReleaseManifest) : Call PUnit :=
  match journal.candidateName, journal.candidateLocation with
  | some name, some location => do
    let contentId ← InPlace.check (candidateContentId journal manifest)
    removeOwnedRuntime host o caller name (some journal.releaseId) (some contentId) (some location)
  | _, _ => pure ⟨⟩

/-- `RecoverInterruptedAsync` with a journal. -/
def recoverJournal (manifest : ReleaseManifest) (journal : OperationJournal) : Call PUnit := do
  let active ← look o (.readActive .recover) Machine.active
  match active.filter fun a => some a.activeName = journal.candidateName with
  | some active => finishCommittedCleanup host o .recover true active
  | none => do
    raiseIf (journal.committed = true) (raise journalCommitInconsistent)
    removeCandidateBestEffort host o .recoverCandidate journal manifest
    write o (.deleteJournal .recover) deleteJournal

/-- `RecoverInterruptedAsync`. -/
def recoverInterrupted (manifest : ReleaseManifest) : Call PUnit := do
  let journal ← look o (.readJournal .recover) Machine.journal
  match journal with
  | none => pure ⟨⟩
  | some journal => recoverJournal host o manifest journal

/-! ## Replacement -/

def hostArchitectureUnsupported : ProvisionerException :=
  .state "HOST_ARCHITECTURE_UNSUPPORTED" "SwitchTrade requires 64-bit Windows."
    "Use a supported x64 PC"

def windowsBuildUnsupported (build : Nat) : ProvisionerException :=
  .state "WINDOWS_BUILD_UNSUPPORTED"
    ("Windows build " ++ toString build ++ " or newer is required.")
    "Update Windows"

def wslVersionUnsupported (minimum found : List Nat) : ProvisionerException :=
  .wsl "WSL_VERSION_UNSUPPORTED" ("WSL " ++ ".".intercalate (minimum.map toString) ++
    " or newer is required; found " ++ ".".intercalate (found.map toString) ++ ".")

def diskSpaceInsufficient (required available : Nat) : ProvisionerException :=
  .state "DISK_SPACE_INSUFFICIENT" ("SwitchTrade needs at least " ++
    toString (required / (1024 * 1024)) ++ " MiB free; " ++
    toString (available / (1024 * 1024)) ++ " MiB is available.") "Free disk space and try again"

def kernelRuntimeMismatch (found expected : Text) : ProvisionerException :=
  .kernel "KERNEL_RUNTIME_MISMATCH" ("The SwitchTrade runtime booted kernel '" ++
    String.ofList found ++ "' instead of '" ++ String.ofList expected ++ "'.")

/-- `EnsureDiskCapacity`. -/
def ensureDiskCapacity (package : Package) : Call PUnit :=
  match package.runtimeSize with
  | none => pure ⟨⟩
  | some size => do
    let available ← look o .diskCapacity fun _ => (o .diskCapacity).freeSpace
    let required := max (4 * 1024 * 1024 * 1024) (size * 4)
    raiseIf (available < required) (raise (diskSpaceInsufficient required available))

/-- What `ReplaceAsync` checks before it writes. -/
def preflight (package : Package) : Call PUnit := do
  raiseIf (host.windows64 = false) (raise hostArchitectureUnsupported)
  raiseIf (host.windowsBuild < package.manifest.minimumWindowsBuild)
    (raise (windowsBuildUnsupported package.manifest.minimumWindowsBuild))
  let version ← look o .version fun _ => (o .version).version
  raiseIf (version < package.manifest.minimumWslVersion)
    (raise (wslVersionUnsupported package.manifest.minimumWslVersion version))
  ensureDiskCapacity o package
  write o .runtimeRoot fun m => ensureDirectory host.paths.logRoot
    (ensureDirectory host.paths.runtimeRoot m)
  raiseIf (package.runtimeSize = none) (raise (requiredPayloadMissing "runtime"))

/-- The generation of a runtime: `generation.ToString("N")`. -/
structure Generation where
  hex : Text
  length_eq : hex.length = 32

/-- What a trailing `Trim('-')` or `TrimEnd('-')` leaves. -/
def trimDashes (text : Text) : Text := Lines.trim (· == '-') text

/-- `RuntimeName(releaseId, generation)`. -/
def runtimeName (casing : Casing) (releaseId : Text) (generation : Generation) : Text :=
  let beta := "beta-".toList
  let release := if casing.Same (releaseId.take 5) beta then releaseId.drop 5 else releaseId
  let safe := trimDashes (release.map fun c => if isSafeReleaseChar c then c else '-')
  let named := if safe = [] then "release".toList else safe
  let capacity := 63 - runtimePrefix.length - 33
  let short :=
    if capacity < named.length then (named.take capacity).rdropWhile (· == '-') else named
  runtimePrefix ++ short ++ '-' :: generation.hex

/-- The candidate is registered in its directory. -/
def registerRuntime (registration : Registration) (left : Option Registration) (m : Machine) :
    Machine :=
  { ensureDirectory registration.basePath m with
    registrations := m.registrations ++ left.toList }

/-- `wsl.InstallAsync`: the runtime is registered with what its image holds; an installation that
fails may leave it registered anyhow. -/
def installRuntime (registration : Registration) : Call PUnit :=
  attempt o .install (registerRuntime registration (some registration)) fun m =>
    if (o .install).done then
      registerRuntime registration
        ((o .install).left.map fun left => { left with name := registration.name }) m
    else m

/-- `VerifyKernelAsync`. -/
def verifyKernel (expected : Text) : Call PUnit := do
  let output ← look o .uname fun _ => (o .uname).output
  raiseIf (output ≠ expected) (raise (kernelRuntimeMismatch output expected))

/-- `health.CheckAsync`: whatever it finds, it terminates the runtime it started. -/
def checkHealth (name : Text) : Call PUnit := do
  destroy o .health (.terminated name) id

/-- The marker in the runtime image of a release. -/
def ownedMarker (manifest : ReleaseManifest) : Marker where
  schema := 1
  owner := "switchtrade-provisioner".toList
  product := "SwitchTrade".toList
  releaseId := some manifest.releaseId
  payloadSha256 := some manifest.runtimeContentId
  installId := none

/-- What an operation is to install. -/
structure Replacement where
  action : String
  package : Package
  previous : Option ActiveRuntime
  operation : Generation

namespace Replacement

def name (host : Host) (r : Replacement) : Text :=
  runtimeName host.casing r.package.manifest.releaseId r.operation

def location (host : Host) (r : Replacement) : Path := runtimeLocation host (r.name host)

def journal (host : Host) (r : Replacement) : OperationJournal where
  schema := 1
  operationId := r.operation.hex
  action := r.action
  releaseId := r.package.manifest.releaseId
  runtimeContentId := some r.package.manifest.runtimeContentId
  candidateName := some (r.name host)
  candidateLocation := some (r.location host)
  previousName := r.previous.map ActiveRuntime.activeName
  committed := false

def active (host : Host) (r : Replacement) : ActiveRuntime where
  schema := 1
  releaseId := r.package.manifest.releaseId
  activeName := r.name host
  previousName := r.previous.map ActiveRuntime.activeName
  kernelRelease := r.package.manifest.kernelRelease
  controlContract := r.package.manifest.controlContract

/-- The candidate as its image registers it. -/
def registration (host : Host) (r : Replacement) : Registration :=
  ⟨r.name host, r.location host, some (ownedMarker r.package.manifest)⟩

end Replacement

/-- The steps of `ReplaceAsync` up to the health check. -/
def installCandidate (r : Replacement) : Call PUnit := do
  apply host o r.package
  shutdown o .shutdown
  installRuntime o (r.registration host)
  verifyOwned host o .verifyCandidate (r.name host) (some r.package.manifest.releaseId)
    (some r.package.manifest.runtimeContentId) (r.location host)
  verifyKernel o r.package.manifest.kernelRelease
  checkHealth o (r.name host)

/-- The steps of `ReplaceAsync` up to the write of the active pointer. -/
def prepareCandidate (r : Replacement) : Call PUnit := do
  installCandidate host o r
  write o .writeActive fun m => { m with active := some (r.active host) }

def restoreConfig (bytes : Option Content) : Call PUnit :=
  putBytes o .restoreConfig (fun file m => { m with config := file }) Machine.config id bytes

def restoreKernelState (bytes : Option (Option KernelState)) : Call PUnit :=
  putBytes o .restoreKernelState (fun file m => { m with kernelFile := file }) Machine.kernelFile
    (fun _ => none) bytes

/-- What a replacement that is not committed undoes. -/
def rollback (r : Replacement) (oldConfig : Option Content)
    (oldKernelState : Option (Option KernelState)) : Call PUnit := do
  removeCandidateBestEffort host o .rollbackCandidate (r.journal host) r.package.manifest
  restoreConfig o oldConfig
  restoreKernelState o oldKernelState
  ignoring (shutdown o .rollbackShutdown)
  write o (.deleteJournal .replace) deleteJournal
where
  /-- `try { … } catch (ProvisionerException) { }`. -/
  ignoring (m : Call PUnit) : Call PUnit := fun s =>
    match m s with
    | .error (.raised (.provisioner _)) t => .ok ⟨⟩ t
    | result => result

/-- The deferred cleanup: what it raises of its own is put off to the next repair. -/
def deferring (m : Call PUnit) : Call PUnit := fun s =>
  match m s with
  | .error (.raised (.provisioner _)) t => .ok ⟨⟩ t
  | .error (.raised .io) t => .ok ⟨⟩ t
  | .error (.raised .unauthorized) t => .ok ⟨⟩ t
  | result => result

/-- `catch { … throw; }`: what raises is handled and raised again. -/
def rollingBack (m : Call PUnit) (handler : Call PUnit) : Call PUnit := fun s =>
  match m s with
  | .error (.raised e) t =>
    match handler t with
    | .ok _ u => .error (.raised e) u
    | .error e' u => .error e' u
  | result => result

/-- The steps of `ReplaceAsync` up to the `try`: what the rollback is to put back. -/
def beginReplacement (r : Replacement) :
    Call (Option Content × Option (Option KernelState)) := do
  acquireLock host o
  preflight host o r.package
  write o .writeJournal fun m => { m with journal := some (r.journal host) }
  look o .readOld fun m => (m.config, m.kernelFile)

/-- The steps of `ReplaceAsync` once the active pointer names the candidate. -/
def commitReplacement (r : Replacement) : Call PUnit := do
  write o .commitJournal fun m =>
    { m with journal := some { r.journal host with committed := true } }
  deferring (finishCommittedCleanup host o .replace false (r.active host))

/-- `ReplaceAsync`. -/
def replaceRuntime (r : Replacement) : Call PUnit := do
  let old ← beginReplacement host o r
  rollingBack (prepareCandidate host o r) (rollback host o r old.1 old.2)
  commitReplacement host o r

/-! ## The operations -/

def installRequiresAbsentState : ProvisionerException :=
  .state "INSTALL_REQUIRES_ABSENT_STATE"
    "Install is fresh-only. Existing or partial SwitchTrade state must use Repair."

/-- `InstallAsync`. -/
def install (package : Package) (operation : Generation) : Call PUnit := do
  let state ← inspectState host o
  raiseIf (state ≠ "absent") (raise installRequiresAbsentState)
  replaceRuntime host o ⟨"install", package, none, operation⟩

/-- A repair that finds no active runtime verifies the legacy one. -/
def verifyLegacyIfAny (active : Option ActiveRuntime) : Call PUnit :=
  match active with
  | some _ => pure ⟨⟩
  | none => do
    let legacy ← legacyExists host o .repair
    if legacy then verifyLegacyOwned host o .repair else pure ⟨⟩

/-- `RepairAsync`. -/
def repair (package : Package) (operation : Generation) : Call PUnit := do
  recoverInterrupted host o package.manifest
  let active ← look o (.readActive .repair) Machine.active
  verifyLegacyIfAny host o active
  replaceRuntime host o ⟨"repair", package, active, operation⟩

/-- The runtimes that the state files name. -/
def uninstallTargets (casing : Casing) (active : Option ActiveRuntime)
    (journal : Option OperationJournal) : List Text :=
  distinctNames casing ((active.map ActiveRuntime.activeName).toList ++
    (active.bind ActiveRuntime.previousName).toList ++
    (journal.bind OperationJournal.candidateName).toList)

def removeLegacyIfAny (phase : Phase) : Call PUnit := do
  let legacy ← legacyExists host o phase
  if legacy then removeLegacy host o phase else pure ⟨⟩

def withoutStateFile (m : Machine) : StateFile → Machine
  | .active => { m with active := none }
  | .backups => { m with backup := none }
  | .kernelState => { m with kernelFile := none }
  | .journal => { m with journal := none }

def withoutStateFiles (m : Machine) : Machine :=
  { m with active := none, backup := none, kernelFile := none, journal := none }

/-- `RemoveOwnedTree(StateRoot, DataRoot)`; the lock has made sure of the directory. A removal
that fails may have removed some of the files. -/
def removeStateRoot : Call PUnit :=
  let site := Site.removeTree host.paths.stateRoot
  deleteTree host o site host.paths.stateRoot withoutStateFiles
    fun m => (o site).gone.foldl withoutStateFile m

def withoutKernels (m : Machine) : Machine := { m with kernels := fun _ => none }

/-- The part of `UninstallAsync` before the kernel setting. -/
def uninstallRuntimes : Call PUnit := do
  acquireLock host o
  let active ← look o (.readActive .uninstall) Machine.active
  let journal ← look o (.readJournal .uninstall) Machine.journal
  removeEach host o .uninstallTarget (uninstallTargets host.casing active journal)
  removeOrphanedOwnedRuntimes host o .uninstall (.orphan false false) []
  removeLegacyIfAny host o .uninstall

/-- The trees that go before the state directory. -/
def removeOtherTrees : Call PUnit := do
  shutdown o .uninstallShutdown
  removeOwnedTree host o (.removeTree host.paths.runtimeRoot) host.paths.runtimeRoot
    (some host.paths.dataRoot) id id
  removeOwnedTree host o (.removeTree host.paths.kernelRoot) host.paths.kernelRoot
    (some host.paths.kernelRoot.dropLast) withoutKernels id
  removeOwnedTree host o (.removeTree (host.paths.dataRoot ++ ["logs".toList]))
    (host.paths.dataRoot ++ ["logs".toList]) (some host.paths.dataRoot) id id

/-- The part of `UninstallAsync` after the kernel setting. -/
def uninstallFiles : Call PUnit := do
  removeOtherTrees host o
  removeStateRoot host o
  removeLegacyArtifacts host o .uninstall
  removeOwnedTree host o (.removeTree host.paths.dataRoot) host.paths.dataRoot none
    (fun m => withoutLegacyFiles (withoutStateFiles m)) id

/-- `UninstallAsync`. -/
def uninstall : Call PUnit := do
  uninstallRuntimes host o
  restore host o
  uninstallFiles host o

end SwitchTrade.Installer

import SwitchTrade.Installer.Machine
import SwitchTrade.Installer.Merge

/-!
# The kernel setting

`apply` backs the user's `.wslconfig` up, sets `kernel` to the installed image and records in
the kernel state what it set; `restore` puts the two values of the backup back. The values of
the two names are all a later call needs of the file (`kernelValues`).
-/

namespace SwitchTrade.Installer

open Lines InPlace WslConfig

/-! ## The package -/

structure ReleaseManifest where
  releaseId : Text
  minimumWindowsBuild : Nat
  minimumWslVersion : List Nat
  controlContract : Text
  runtimeContentId : Text
  kernelRelease : Text

structure Package where
  manifest : ReleaseManifest
  /-- The kernel image, if the manifest names one. -/
  kernel : Option Text
  /-- The size of the runtime payload, if the manifest names one. -/
  runtimeSize : Option Nat

def requiredPayloadMissing (key : String) : ProvisionerException :=
  .integrity "REQUIRED_PAYLOAD_MISSING" ("Required payload is absent: " ++ key)

/-! ## The applied value -/

def isSafeReleaseChar (c : Char) : Bool := c.isAlphanum || c = '.' || c = '_' || c = '-'

/-- `Regex.Replace(release, "[^A-Za-z0-9._-]", "_")`. -/
def safeRelease (release : Text) : Text :=
  release.map fun c => if isSafeReleaseChar c then c else '_'

def pathText (path : Path) : Text := List.intercalate ['\\'] path

/-- `Path.Combine(KernelRoot, $"kernel-{safeRelease}-{identity}")`. -/
def installedPath (host : Host) (release image : Text) : Text :=
  pathText host.paths.kernelRoot ++ '\\' :: ("kernel-".toList ++ safeRelease release ++
    '-' :: (host.imageSha256 image).take 12)

/-- `installed.Replace("\\", "\\\\")`. -/
def doubled (text : Text) : Text := text.flatMap fun c => if c = '\\' then ['\\', '\\'] else [c]

def appliedValue (host : Host) (release image : Text) : Text :=
  doubled (installedPath host release image)

def kernelKey : Text := "kernel".toList

def kernelModulesKey : Text := "kernelModules".toList

/-- The values of `kernel` and `kernelModules` under `[wsl2]`. -/
structure KernelValues where
  kernel : Option Text
  kernelModules : Option Text
deriving DecidableEq

namespace KernelValues

def none : KernelValues := ⟨Option.none, Option.none⟩

def entries (v : KernelValues) : List (Text × Option Text) :=
  [(kernelKey, v.kernel), (kernelModulesKey, v.kernelModules)]

end KernelValues

def kernelValuesOf (casing : Casing) (text : Text) : KernelValues :=
  let read := values casing text
  ⟨tryGetValue casing read kernelKey, tryGetValue casing read kernelModulesKey⟩

/-- The values in a file, absent if the file is. -/
def kernelValues (casing : Casing) : Option Content → KernelValues
  | some content => kernelValuesOf casing content.text
  | none => .none

def documentOf : Option Content → TextDocument
  | some content => TextDocument.read content
  | none => TextDocument.empty

/-! ## `KernelManager` -/

section KernelManager

variable (host : Host) (o : Oracle)

def fileAt (host : Host) (m : Machine) (path : Path) : Option Content :=
  if path = host.paths.backup then m.backup else none

def kernelPathNotWslCompatible : ProvisionerException :=
  .kernel "KERNEL_PATH_NOT_WSL_COMPATIBLE"
    "The custom-kernel storage path contains characters that this WSL build cannot resolve." false

def kernelCopyHashMismatch : ProvisionerException :=
  .kernel "KERNEL_COPY_HASH_MISMATCH" "The installed custom kernel does not match the package."

def kernelBackupInvalid : ProvisionerException :=
  .kernel "KERNEL_BACKUP_INVALID"
    "The pre-SwitchTrade .wslconfig backup is missing or corrupt." false

def wslconfigOwnershipChanged : ProvisionerException :=
  .kernel "WSLCONFIG_OWNERSHIP_CHANGED"
    ("The active WSL kernel setting was changed after SwitchTrade installation; " ++
      "the current file was preserved.")
    false

def setKernel (installed : Text) (image : Option Text) (m : Machine) : Machine :=
  { m with kernels := fun path => if path = installed then image else m.kernels path }

/-- The image is copied under its name unless a file has that name; a copy that fails may leave
a part of the image. -/
def copyKernel (installed image : Text) : Call PUnit := do
  let m ← get
  if (m.kernels installed).isSome then pure ⟨⟩
  else attempt o .copyKernel (setKernel installed (some image)) fun m =>
    if (o .copyKernel).done then setKernel installed (some (o .copyKernel).output) m else m

/-- The backup of a first `Apply`: whether there was a file, and the hash of the backup. -/
def writeBackup : Call (Bool × Text) := do
  let original ← look o .readOriginal fun m =>
    m.legacyBackup.getD (m.config.isSome, m.config.getD ⟨.utf8, []⟩)
  putBytes o .writeBackup (fun file m => { m with backup := file }) Machine.backup id
    (some original.2)
  pure (original.1, host.contentSha256 original.2)

/-- The backup is there and has the recorded hash. -/
def BackupValid (m : Machine) (state : KernelState) : Prop :=
  (fileAt host m state.originalBackup).map host.contentSha256 = some state.originalSha256

instance (m : Machine) (state : KernelState) : Decidable (BackupValid host m state) := by
  unfold BackupValid
  infer_instance

/-- The backup that the kernel state is to name: its path, whether there was a file, its hash. -/
def originalBackup (state : Option KernelState) : Call (Path × Bool × Text) :=
  match state with
  | none => do
    let original ← writeBackup host o
    pure (host.paths.backup, original)
  | some existing => do
    let m ← get
    raiseIf (¬ BackupValid host m existing) (raise kernelBackupInvalid)
    pure (existing.originalBackup, existing.originalExists, existing.originalSha256)

/-- The detail in the message is the text of the JSON library. -/
def stateFileInvalid (detail : Text) : ProvisionerException :=
  .state "STATE_FILE_INVALID"
    ("Invalid state file kernel-state.v1.json: " ++ String.ofList detail)

/-- `AtomicFile.Read<KernelState>`. -/
def readKernelState : Call (Option KernelState) := do
  let file ← look o .readKernelState Machine.kernelFile
  raiseIf (file = some none) (raise (stateFileInvalid (o .readKernelState).output))
  pure file.join

def writeConfig (content : Content) (m : Machine) : Machine := { m with config := some content }

/-- `KernelManager.Apply`. -/
def apply (package : Package) : Call PUnit := do
  let source ← InPlace.check
    (package.kernel.elim (.error (raise (requiredPayloadMissing "kernel"))) .ok)
  look o .prepareKernelDirectory fun _ => PUnit.unit
  let release := package.manifest.kernelRelease
  let installed := installedPath host release source
  raiseIf (host.paths.enforceAsciiKernelPath = true ∧ installed.any (0x7f < ·.toNat) = true)
    (raise kernelPathNotWslCompatible)
  copyKernel o installed source
  let image ← look o .secureKernel fun m => m.kernels installed
  raiseIf (image.map host.imageSha256 ≠ some (host.imageSha256 source))
    (raise kernelCopyHashMismatch)
  let existing ← readKernelState o
  let (backup, originalExists, originalHash) ← originalBackup host o existing
  let config ← look o .readConfig Machine.config
  let document := documentOf config
  let applied := doubled installed
  let merged := merge host.casing document (KernelValues.entries ⟨some applied, none⟩)
  write o .writeConfig (writeConfig (document.bytes merged))
  write o .writeKernelState fun m => { m with
    kernelFile := some (some {
      schema := 1
      originalExists := originalExists
      originalBackup := backup
      originalSha256 := originalHash
      installedKernel := installed
      installedKernelSha256 := host.imageSha256 source
      kernelRelease := release
      appliedKernelValue := applied }) }

/-- The file is the one `Apply` makes where there is none. -/
def UnchangedSinceApply (state : KernelState) (config : Option Content) : Prop :=
  config.map host.contentSha256 =
    some (host.contentSha256 ((documentOf config).bytes (merge host.casing TextDocument.empty
      (KernelValues.entries ⟨some state.appliedKernelValue, none⟩))))

instance (state : KernelState) (config : Option Content) :
    Decidable (UnchangedSinceApply host state config) := by
  unfold UnchangedSinceApply
  infer_instance

/-- The values of the file that was there before. -/
def originalValues (m : Machine) (state : KernelState) : KernelValues :=
  if state.originalExists then kernelValues host.casing (fileAt host m state.originalBackup)
  else .none

/-- `KernelManager.Restore` with a kernel state. -/
def restoreFrom (state : KernelState) : Call PUnit := do
  let m ← get
  raiseIf (¬ BackupValid host m state) (raise kernelBackupInvalid)
  let config ← look o .readConfig Machine.config
  let current := documentOf config
  if (kernelValues host.casing config).kernel ≠ some state.appliedKernelValue then
    write o .copyConflict id
    throw (raise wslconfigOwnershipChanged)
  else if state.originalExists = false ∧ UnchangedSinceApply host state config then
    write o .deleteConfig fun m => { m with config := none }
  else
    let merged := merge host.casing current (originalValues host m state).entries
    write o .writeConfig (writeConfig (current.bytes merged))

theorem readKernelState_ends {m : Machine} {Q : Option KernelState → Machine → Prop}
    {E : Failure → Machine → Prop} (hok : m.kernelFile ≠ some none → Q m.kernelState m)
    (hfail : ∀ e, (o .readKernelState).fails = some e → E e m)
    (hcut : m.kernelFile = some none → E (raise (stateFileInvalid (o .readKernelState).output)) m) :
    Ends (readKernelState o) Q E m := by
  refine Ends.bind (look_ends o (fun _ => ?_) hfail)
  exact Ends.bind (Ends.raiseIf (fun h => Ends.pure (hok h)) hcut)

theorem readKernelState_keeps {P : Machine → Prop} : Keeps P (readKernelState o) :=
  fun _ hm => readKernelState_ends o (fun _ => hm) (fun _ _ => hm) fun _ => hm

/-- `KernelManager.Restore`. -/
def restore : Call PUnit := do
  let state ← readKernelState o
  match state with
  | none => pure ⟨⟩
  | some state => restoreFrom host o state

end KernelManager

end SwitchTrade.Installer

import SwitchTrade.Installer.Machine

/-!
# Removal of runtimes

Every removal goes through `removeOwnedRuntime`: a runtime that is registered is removed when
its location and its marker are those of this installation; where neither view shows a
registration its directory is removed. The legacy runtime has a routine of its own.
-/

namespace SwitchTrade.Installer

open InPlace WslConfig

variable (host : Host) (o : Oracle)

/-! ## Names and paths -/

/-- `Path.GetFullPath(a)` and `b` are the same ignoring case. -/
def PathEquals (casing : Casing) (a b : Path) : Prop :=
  a.map (List.map casing.upper) = b.map (List.map casing.upper)

/-- `path` lies in a directory below `parent`. -/
def PathIsUnder (casing : Casing) (path parent : Path) : Prop :=
  parent.map (List.map casing.upper) <+: path.map (List.map casing.upper) ∧
    parent.length < path.length

instance (casing : Casing) (a b : Path) : Decidable (PathEquals casing a b) := by
  unfold PathEquals
  infer_instance

instance (casing : Casing) (a b : Path) : Decidable (PathIsUnder casing a b) := by
  unfold PathIsUnder
  infer_instance

def runtimePrefix : Text := "SwitchTrade-beta-".toList

def legacyName : Text := "SwitchTrade".toList

/-- `Path.Combine(RuntimeRoot, name)`. -/
def runtimeLocation (host : Host) (name : Text) : Path := host.paths.runtimeRoot ++ [name]

/-- A set of names with `OrdinalIgnoreCase` contains the name. -/
def ContainsName (casing : Casing) (names : List Text) (name : Text) : Prop :=
  ∃ n ∈ names, casing.Same n name

instance (casing : Casing) (names : List Text) (name : Text) :
    Decidable (ContainsName casing names name) := by
  unfold ContainsName
  infer_instance

def registered (casing : Casing) (m : Machine) (name : Text) : Option Registration :=
  m.registrations.find? fun r => casing.Same r.name name

/-! ## The two views -/

/-- `wsl.NamesAsync`: the names that the list does not omit. -/
def listNames (site : Site) : Call (List Text) :=
  look o site fun m => (m.registrations.map Registration.name).filter fun name =>
    ¬ ContainsName host.casing (o site).omitted name

/-- `wsl.Registration(name)`. -/
def lookUp (site : Site) (name : Text) : Call (Option Registration) :=
  look o site fun m =>
    if ContainsName host.casing (o site).omitted name then none
    else registered host.casing m name

/-! ## Destruction -/

def record (destruction : Destruction) (m : Machine) : Machine :=
  { m with log := m.log ++ [⟨destruction, m.registrations, m.active⟩] }

/-- A command that destroys: it is issued, whatever comes of it. -/
def destroy (site : Site) (destruction : Destruction) (effect : Machine → Machine) :
    Call PUnit := do
  modify (record destruction)
  command o site effect

/-- `wsl.ShutdownAsync`: `wsl --shutdown` ends every runtime that runs, whoever owns it. -/
def shutdown (site : Site) : Call PUnit := destroy o site .shutdown id

def withoutRegistration (casing : Casing) (name : Text) (m : Machine) : Machine :=
  { m with registrations := m.registrations.filter fun r => ¬ casing.Same r.name name }

/-- The path is `tree` or lies in it. -/
def InTree (casing : Casing) (tree path : Path) : Prop :=
  tree.map (List.map casing.upper) <+: path.map (List.map casing.upper)

instance (casing : Casing) (tree path : Path) : Decidable (InTree casing tree path) := by
  unfold InTree
  infer_instance

def withoutTree (casing : Casing) (tree : Path) (m : Machine) : Machine :=
  { m with directories := m.directories.filter fun d => ¬ InTree casing tree d }

def deletePathUnowned (path : Text) : ProvisionerException :=
  .state "DELETE_PATH_UNOWNED" ("Refusing path outside SwitchTrade storage: " ++ String.ofList path)
    "Contact SwitchTrade support"

def pathString (path : Path) : Text := List.intercalate ['\\'] path

/-- `Directory.Exists(path)`. -/
def DirectoryExists (casing : Casing) (m : Machine) (path : Path) : Prop :=
  ∃ d ∈ m.directories, PathEquals casing d path

instance (casing : Casing) (m : Machine) (path : Path) :
    Decidable (DirectoryExists casing m path) := by
  unfold DirectoryExists
  infer_instance

/-- The deletion of a tree; one that fails has deleted `broken` of it, or all. -/
def deleteTree (site : Site) (path : Path) (effect broken : Machine → Machine) : Call PUnit := do
  modify (record (.deleted path))
  attempt o site (fun m => effect (withoutTree host.casing path m)) fun m =>
    if (o site).done then effect (withoutTree host.casing path m) else broken m

/-- `RemoveOwnedTree(path, parent)`, with what else goes with the tree. -/
def removeOwnedTree (site : Site) (path : Path) (parent : Option Path)
    (effect broken : Machine → Machine) : Call PUnit := do
  let m ← get
  if DirectoryExists host.casing m path then
    raiseIf (∃ p, parent = some p ∧ ¬ PathIsUnder host.casing path p)
      (raise (deletePathUnowned (pathString path)))
    deleteTree host o site path effect broken
  else pure ⟨⟩

/-! ## `VerifyOwnedAsync` -/

def contactSupport : String := "Contact SwitchTrade support"

def refusingUnowned (name : Text) : ProvisionerException :=
  .state "RUNTIME_OWNERSHIP_INVALID" ("Refusing unowned WSL runtime: " ++ String.ofList name)
    contactSupport

def registrationMissing (name : Text) : ProvisionerException :=
  .state "RUNTIME_REGISTRATION_MISSING" ("WSL registration is missing: " ++ String.ofList name)

def locationUnowned (name : Text) : ProvisionerException :=
  .state "RUNTIME_LOCATION_UNOWNED"
    ("Refusing WSL runtime outside the SwitchTrade runtime root: " ++ String.ofList name)
    contactSupport

def markerInvalid (name : Text) : ProvisionerException :=
  .state "RUNTIME_OWNERSHIP_INVALID" ("The WSL runtime marker is invalid: " ++ String.ofList name)
    contactSupport

/-- The marker is one of this product, of the expected release and payload if any is expected. -/
def Marker.Owned (marker : Marker) (expectedRelease expectedPayload : Option Text) : Prop :=
  marker.schema = 1 ∧ marker.owner = "switchtrade-provisioner".toList ∧
    marker.product = "SwitchTrade".toList ∧
    (∀ release, expectedRelease = some release → marker.releaseId = some release) ∧
    ∀ payload, expectedPayload = some payload → marker.payloadSha256 = some payload

instance (marker : Marker) (expectedRelease expectedPayload : Option Text) :
    Decidable (marker.Owned expectedRelease expectedPayload) := by
  unfold Marker.Owned
  cases expectedRelease <;> cases expectedPayload <;> simp <;> infer_instance

/-- `wsl -d name cat /etc/switchtrade-distro.json`, as it deserializes. -/
def readMarker (site : Site) (name : Text) : Call (Option Marker) :=
  look o site fun m => (registered host.casing m name).bind Registration.marker

/-- `VerifyOwnedAsync`, asked at the sites that `place` gives. -/
def verifyOwned (place : RemovalSite → Site) (name : Text)
    (expectedRelease expectedPayload : Option Text) (expectedLocation : Path) : Call PUnit := do
  raiseIf (¬ runtimePrefix <+: name) (raise (refusingUnowned name))
  let found ← lookUp host o (place .verifyRegistration) name
  let registration ← InPlace.check (found.elim (.error (raise (registrationMissing name))) .ok)
  raiseIf (¬ PathIsUnder host.casing registration.basePath host.paths.runtimeRoot ∨
      ¬ PathEquals host.casing registration.basePath expectedLocation)
    (raise (locationUnowned name))
  let marker ← readMarker host o (place .marker) name
  raiseIf (¬ ∃ v, marker = some v ∧ v.Owned expectedRelease expectedPayload)
    (raise (markerInvalid name))

/-! ## `RemoveOwnedRuntimeAsync` -/

def listedWithoutRegistration (name : Text) : ProvisionerException :=
  .state "RUNTIME_REGISTRATION_MISSING"
    ("WSL lists a SwitchTrade runtime without a readable registration: " ++ String.ofList name)

def unregisterIncomplete (name : Text) : ProvisionerException :=
  .wsl "WSL_UNREGISTER_INCOMPLETE"
    ("WSL did not fully remove the verified SwitchTrade runtime: " ++ String.ofList name)

/-- The directory of a runtime that neither view shows. -/
def removeLocation (place : RemovalSite → Site) (location : Path) : Call PUnit :=
  removeOwnedTree host o (place .tree) location (some host.paths.runtimeRoot) id id

/-- `wsl.Registration(name) is null && !names.Contains(name)`. -/
def goneFromBoth (place : RemovalSite → Site) (name : Text) (attempt : Nat) : Call Bool := do
  let registration ← lookUp host o (place (.pollRegistration attempt)) name
  match registration with
  | some _ => pure false
  | none => do
    let names ← listNames host o (place (.pollNames attempt))
    pure (decide (¬ ContainsName host.casing names name))

/-- The attempts that are left, the last of them without a delay. -/
def pollRemoved (place : RemovalSite → Site) (name : Text) (location : Path) :
    List Nat → Call PUnit
  | [] => throw (raise (unregisterIncomplete name))
  | attempt :: rest => do
    let gone ← goneFromBoth host o place name attempt
    if gone then removeLocation host o place location
    else do
      let waited :=
        if rest = [] then pure ⟨⟩ else look o (place (.delay attempt)) fun _ => PUnit.unit
      waited
      pollRemoved place name location rest

def removeRegistered (place : RemovalSite → Site) (name : Text)
    (expectedRelease expectedPayload : Option Text) (location : Path) : Call PUnit := do
  verifyOwned host o place name expectedRelease expectedPayload location
  destroy o (place .terminate) (.terminated name) id
  destroy o (place .unregister) (.unregistered name) (withoutRegistration host.casing name)
  pollRemoved host o place name location [0, 1, 2, 3, 4]

def removeUnregistered (place : RemovalSite → Site) (name : Text) (location : Path) :
    Call PUnit := do
  let names ← listNames host o (place .names)
  raiseIf (ContainsName host.casing names name) (raise (listedWithoutRegistration name))
  removeLocation host o place location

/-- `RemoveOwnedRuntimeAsync`. -/
def removeOwnedRuntime (caller : Caller) (name : Text)
    (expectedRelease expectedPayload : Option Text) (expectedLocation : Option Path) :
    Call PUnit := do
  let place := Site.removal caller name
  let location := expectedLocation.getD (runtimeLocation host name)
  let registration ← lookUp host o (place .registration) name
  match registration with
  | none => removeUnregistered host o place name location
  | some _ => removeRegistered host o place name expectedRelease expectedPayload location

/-! ## The legacy runtime -/

def legacyAmbiguous (message : String) : ProvisionerException :=
  .state "LEGACY_OWNERSHIP_AMBIGUOUS" message contactSupport

def legacyTransactionInvalid : ProvisionerException :=
  .state "LEGACY_TRANSACTION_INVALID" "The legacy ownership transaction is malformed."
    contactSupport

/-- `LegacyExistsAsync`. -/
def legacyExists (phase : Phase) : Call Bool := do
  let registration ← lookUp host o (.legacy phase .registration) legacyName
  match registration with
  | some _ => pure true
  | none => do
    let names ← listNames host o (.legacy phase .names)
    pure (decide (ContainsName host.casing names legacyName))

/-- The marker is the one of the installation that the transaction names. -/
def Marker.Legacy (marker : Marker) (installId : Text) : Prop :=
  marker.schema = 2 ∧ marker.owner = "switchtrade-installer".toList ∧
    marker.product = "SwitchTrade".toList ∧ marker.installId = some installId

instance (marker : Marker) (installId : Text) : Decidable (marker.Legacy installId) := by
  unfold Marker.Legacy
  infer_instance

/-- The transaction names the location of the legacy runtime and an installation. -/
def Transaction.Matches (casing : Casing) (transaction : Transaction) (basePath : Path)
    (installId : Text) : Prop :=
  (∃ recorded, transaction.distroBasePath = some recorded ∧ PathEquals casing basePath recorded) ∧
    transaction.installId = some installId ∧ installId.all isSpace = false

instance (casing : Casing) (transaction : Transaction) (basePath : Path) (installId : Text) :
    Decidable (transaction.Matches casing basePath installId) :=
  inferInstanceAs (Decidable ((∃ recorded ∈ transaction.distroBasePath,
    PathEquals casing basePath recorded) ∧ _ ∧ _))

/-- `VerifyLegacyOwnedAsync`. -/
def verifyLegacyOwned (phase : Phase) : Call PUnit := do
  let found ← lookUp host o (.legacy phase .verifyRegistration) legacyName
  let registration ← InPlace.check (found.elim (.error (raise (legacyAmbiguous
    "The legacy SwitchTrade registration has no readable location."))) .ok)
  let read ← look o (.legacy phase .transaction) Machine.transaction
  let transaction ← InPlace.check (read.elim (.error (raise (legacyAmbiguous
    "The legacy runtime has no ownership transaction."))) .ok)
  raiseIf (transaction.malformed = true) (raise legacyTransactionInvalid)
  let installId := transaction.installId.getD []
  raiseIf (¬ transaction.Matches host.casing registration.basePath installId)
    (raise (legacyAmbiguous
      "The legacy runtime location or install identity does not match its ownership transaction."))
  let marker ← readMarker host o (.legacy phase .marker) legacyName
  raiseIf (¬ ∃ v, marker = some v ∧ v.Legacy installId) (raise (legacyAmbiguous
    "The legacy runtime marker is not owned by this SwitchTrade installation."))

/-- `RemoveLegacyAsync`. -/
def removeLegacy (phase : Phase) : Call PUnit := do
  verifyLegacyOwned host o phase
  destroy o (.legacy phase .terminate) (.terminated legacyName) id
  destroy o (.legacy phase .unregister) (.unregistered legacyName)
    (withoutRegistration host.casing legacyName)

def legacyRuntimePath (host : Host) : Path := host.paths.dataRoot ++ ["wsl".toList]

def withoutLegacyFiles (m : Machine) : Machine :=
  { m with transaction := none, setupResume := false, legacyBackup := none }

/-- The transaction names the directory of the legacy runtime. -/
def NamesLegacyPath (host : Host) (transaction : Option Transaction) : Prop :=
  ∃ t, transaction = some t ∧ t.malformed = false ∧
    ∃ recorded, t.distroBasePath = some recorded ∧
      PathEquals host.casing recorded (legacyRuntimePath host)

instance (host : Host) (transaction : Option Transaction) :
    Decidable (NamesLegacyPath host transaction) :=
  inferInstanceAs (Decidable (∃ t ∈ transaction, t.malformed = false ∧
    ∃ recorded ∈ t.distroBasePath, PathEquals host.casing recorded (legacyRuntimePath host)))

/-- The directory of the legacy runtime, if the transaction names it. -/
def removeLegacyTree (phase : Phase) (transaction : Option Transaction) : Call PUnit :=
  if NamesLegacyPath host transaction then
    removeOwnedTree host o (.legacy phase .orphanedTree) (legacyRuntimePath host)
      (some host.paths.dataRoot) id id
  else pure ⟨⟩

/-- `RemoveLegacyArtifacts(removeOrphanedRuntime: true)`. -/
def removeLegacyArtifacts (phase : Phase) : Call PUnit := do
  let m ← get
  removeLegacyTree host o phase m.transaction
  removeOwnedTree host o (.legacy phase .recoveryTree) (host.paths.dataRoot ++ ["recovery".toList])
    (some host.paths.dataRoot) id id
  write o (.legacy phase .transactionFile) fun m => { m with transaction := none }
  write o (.legacy phase .resumeFile) fun m => { m with setupResume := false }
  write o (.legacy phase .kernelStateFile) fun m => { m with legacyBackup := none }

/-! ## Orphans -/

/-- The registered names of this product below the runtime root, without the active one. -/
def orphansByName (phase : Phase) (activeName : Text) : List Text → Call (List Text)
  | [] => pure []
  | name :: rest =>
    if ¬ runtimePrefix <+: name ∨ host.casing.Same name activeName then
      orphansByName phase activeName rest
    else do
      let registration ← lookUp host o (.orphanRegistration phase name) name
      let others ← orphansByName phase activeName rest
      match registration with
      | some r =>
        if PathIsUnder host.casing r.basePath host.paths.runtimeRoot then pure (name :: others)
        else pure others
      | none => pure others

/-- The directories of the runtime root that have a name of this product, without the active
one. -/
def orphansByDirectory (host : Host) (m : Machine) (activeName : Text) : List Text :=
  m.directories.filterMap fun directory =>
    match directory.getLast? with
    | some name =>
      if PathEquals host.casing directory.dropLast host.paths.runtimeRoot ∧ runtimePrefix <+: name ∧
          ¬ host.casing.Same name activeName then some name
      else none
    | none => none

/-- The names without those that are the same as an earlier one. -/
def distinctNames (casing : Casing) : List Text → List Text
  | [] => []
  | name :: rest => name :: (distinctNames casing rest).filter fun n => ¬ casing.Same n name

def removeEach (caller : Caller) : List Text → Call PUnit
  | [] => pure ⟨⟩
  | name :: rest => do
    removeOwnedRuntime host o caller name none none none
    removeEach caller rest

/-- `RemoveOrphanedOwnedRuntimesAsync`. -/
def removeOrphanedOwnedRuntimes (phase : Phase) (caller : Caller) (activeName : Text) :
    Call PUnit := do
  let names ← listNames host o (.orphanNames phase)
  let byName ← orphansByName host o phase activeName names
  let byDirectory ← look o (.orphanDirectories phase) fun m => orphansByDirectory host m activeName
  removeEach host o caller (distinctNames host.casing (byName ++ byDirectory))

end SwitchTrade.Installer

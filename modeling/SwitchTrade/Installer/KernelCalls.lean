import SwitchTrade.Installer.KernelSetting
import SwitchTrade.Installer.Removal

/-!
# How the calls that touch the kernel setting end

What the files say of the setting the user had is `Sound`; a later `Restore` is not rejected if
it `Accepts` the file. Both are followed through `Apply` (`apply_ends`), `Restore`
(`restore_ends`) and `UninstallAsync` (`uninstall_ends`), each of which may fail or be cut off
at any operation.
-/

namespace SwitchTrade.Installer

open InPlace WslConfig

variable (host : Host) (o : Oracle)

/-! ## The setting of the user -/

/-- The files say what the setting was before SwitchTrade: `.wslconfig` itself while no kernel
state is there, the backup afterwards. -/
structure Sound (initial : KernelValues) (m : Machine) : Prop where
  unrecorded : m.kernelState = none → kernelValues host.casing m.config = initial
  recorded : ∀ state, m.kernelState = some state →
    BackupValid host m state ∧ originalValues host m state = initial
  readable : m.kernelFile ≠ some none
  legacy : m.legacyBackup = none

/-- The checks of `Restore` pass. -/
def Accepts (m : Machine) : Prop :=
  match m.kernelState with
  | none => True
  | some state => BackupValid host m state ∧
      (kernelValues host.casing m.config).kernel = some state.appliedKernelValue

instance (m : Machine) : Decidable (Accepts host m) := by
  unfold Accepts
  cases m.kernelState with
  | none => exact .isTrue trivial
  | some state =>
    simp only
    infer_instance

/-- What `Restore` raises of its own. -/
def Rejection (e : Failure) : Prop :=
  e = raise kernelBackupInvalid ∨ e = raise wslconfigOwnershipChanged

instance (e : Failure) : Decidable (Rejection e) := by
  unfold Rejection
  infer_instance

/-- No operation fails with what `Restore` raises of its own. -/
def Honest : Prop := ∀ site e, (o site).fails = some e → ¬ Rejection e

/-- The parts of the machine that the setting depends on. -/
structure SameSetting (m t : Machine) : Prop where
  config : t.config = m.config
  backup : t.backup = m.backup
  kernelFile : t.kernelFile = m.kernelFile
  legacyBackup : t.legacyBackup = m.legacyBackup

variable {host} {o}

theorem SameSetting.refl (m : Machine) : SameSetting m m := ⟨rfl, rfl, rfl, rfl⟩

theorem SameSetting.kernelState {m t : Machine} (h : SameSetting m t) :
    t.kernelState = m.kernelState := congrArg Option.join h.kernelFile

theorem SameSetting.symm {m t : Machine} (h : SameSetting m t) : SameSetting t m :=
  ⟨h.config.symm, h.backup.symm, h.kernelFile.symm, h.legacyBackup.symm⟩

theorem fileAt_congr {m t : Machine} (h : t.backup = m.backup) (path : Path) :
    fileAt host t path = fileAt host m path := by
  unfold fileAt
  rw [h]

theorem backupValid_congr {m t : Machine} (h : t.backup = m.backup) (state : KernelState) :
    BackupValid host t state ↔ BackupValid host m state := by
  unfold BackupValid
  rw [fileAt_congr h]

theorem originalValues_congr {m t : Machine} (h : t.backup = m.backup) (state : KernelState) :
    originalValues host t state = originalValues host m state := by
  unfold originalValues
  rw [fileAt_congr h]

section Congruence

variable {initial : KernelValues} {m t : Machine}

theorem Sound.congr (h : Sound host initial m) (hs : SameSetting m t) : Sound host initial t := by
  constructor
  · intro hk
    rw [hs.config]
    exact h.unrecorded (hs.kernelState.symm.trans hk)
  · intro state hk
    obtain ⟨hvalid, horiginal⟩ := h.recorded state (hs.kernelState.symm.trans hk)
    exact ⟨(backupValid_congr hs.backup state).mpr hvalid,
      (originalValues_congr hs.backup state).trans horiginal⟩
  · exact fun hcut => h.readable (hs.kernelFile.symm.trans hcut)
  · exact hs.legacyBackup.trans h.legacy

theorem Accepts.congr (h : Accepts host m) (hs : SameSetting m t) : Accepts host t := by
  unfold Accepts at h ⊢
  rw [hs.kernelState]
  cases hk : m.kernelState with
  | none => trivial
  | some state =>
    rw [hk] at h
    exact ⟨(backupValid_congr hs.backup state).mpr h.1, by rw [hs.config]; exact h.2⟩

theorem Accepts.of_some (h : Accepts host m) {state : KernelState}
    (hk : m.kernelState = some state) :
    BackupValid host m state ∧
      (kernelValues host.casing m.config).kernel = some state.appliedKernelValue := by
  unfold Accepts at h
  rw [hk] at h
  exact h

theorem Accepts.intro (h : ∀ state, m.kernelState = some state → BackupValid host m state ∧
    (kernelValues host.casing m.config).kernel = some state.appliedKernelValue) :
    Accepts host m := by
  unfold Accepts
  cases hk : m.kernelState with
  | none => trivial
  | some state => exact h state hk

theorem Accepts.of_none (hk : m.kernelState = none) : Accepts host m := by
  apply Accepts.intro
  intro state hs
  rw [hk] at hs
  cases hs

end Congruence

/-! ## `Apply` -/

variable (o) in
/-- The operation had its effect. -/
def TookEffect (site : Site) : Prop := (o site).fails = none ∨ CutAfter o site

variable (o) in
/-- `Apply` wrote `.wslconfig` and not the kernel state. -/
def Torn : Prop :=
  TookEffect o .writeConfig ∧ ¬ ((o .writeConfig).fails = none ∧ TookEffect o .writeKernelState)

instance (site : Site) : Decidable (TookEffect o site) := by
  unfold TookEffect
  infer_instance

instance : Decidable (Torn o) := by
  unfold Torn
  infer_instance

/-- The value that `Apply` sets. -/
def appliedOf (host : Host) (package : Package) (image : Text) : Text :=
  appliedValue host package.manifest.kernelRelease image

/-- What the files say, and whether a later `Restore` is to be accepted. -/
structure Kept (host : Host) (initial : KernelValues) (accepted : Bool) (m : Machine) : Prop where
  sound : Sound host initial m
  accepts : accepted = true → Accepts host m

theorem Kept.congr {initial : KernelValues} {b : Bool} {m t : Machine} (h : Kept host initial b m)
    (hs : SameSetting m t) : Kept host initial b t :=
  ⟨h.sound.congr hs, fun hb => (h.accepts hb).congr hs⟩

/-- An interrupted `Apply` does no harm. -/
def HarmlessTear (host : Host) (accepted : Bool) (applied : Text) (m : Machine) : Prop :=
  match m.kernelState with
  | none => kernelValues host.casing m.config = ⟨some applied, none⟩
  | some state => accepted = true → state.appliedKernelValue = applied

instance (accepted : Bool) (applied : Text) (m : Machine) :
    Decidable (HarmlessTear host accepted applied m) := by
  unfold HarmlessTear
  cases m.kernelState with
  | none =>
    simp only
    infer_instance
  | some state =>
    simp only
    infer_instance

section Apply

variable {initial : KernelValues} {b : Bool} {m : Machine}

/-- A state with these parts names a backup of the user's setting. -/
def NamesBackup (host : Host) (initial : KernelValues) (original : Path × Bool × Text)
    (m : Machine) : Prop :=
  ∀ state : KernelState, state.originalBackup = original.1 → state.originalExists = original.2.1 →
    state.originalSha256 = original.2.2 →
    BackupValid host m state ∧ originalValues host m state = initial

theorem originalBackup_ends (h : Kept host initial b m) :
    Ends (originalBackup host o m.kernelState)
      (fun original t => Kept host initial b t ∧ NamesBackup host initial original t ∧
        t.config = m.config ∧ t.kernelFile = m.kernelFile)
      (fun _ t => Kept host initial b t) m := by
  unfold originalBackup
  cases hk : m.kernelState with
  | none =>
    have hvalues := h.sound.unrecorded hk
    have hlegacy := h.sound.legacy
    unfold writeBackup
    apply Ends.bind
    apply Ends.bind
    apply look_ends o
    · intro _
      have hbackup : ∀ file, Kept host initial b { m with backup := file } := by
        intro file
        constructor
        · exact ⟨fun _ => hvalues, fun state hs => absurd (hs.symm.trans hk) (by simp),
            h.sound.readable, hlegacy⟩
        · intro _
          exact Accepts.of_none hk
      simp only [hlegacy, Option.getD_none]
      apply Ends.bind
      apply attempt_ends o
      · intro _
        refine ⟨hbackup _, ?_, rfl, rfl⟩
        intro state hpath hexists hsha
        have hfile : fileAt host { m with backup := some (m.config.getD ⟨.utf8, []⟩) }
            state.originalBackup = some (m.config.getD ⟨.utf8, []⟩) := by
          unfold fileAt
          rw [if_pos hpath]
        constructor
        · unfold BackupValid
          rw [hfile, hsha]
          rfl
        · unfold originalValues
          rw [hfile, hexists, ← hvalues]
          cases m.config with
          | none => rfl
          | some content => rfl
      · intro e _
        split
        · exact hbackup _
        · exact hbackup _
    · intro e _
      exact h
  | some existing =>
    apply Ends.bind
    apply Ends.get
    apply Ends.bind
    refine Ends.raiseIf (fun hvalid => ?_) fun _ => h
    refine Ends.pure ⟨h, ?_, rfl, rfl⟩
    intro state hpath hexists hsha
    obtain ⟨hv, ho⟩ := h.sound.recorded existing hk
    constructor
    · unfold BackupValid at hv ⊢
      rw [hpath, hsha]
      exact hv
    · unfold originalValues at ho ⊢
      rw [hexists, hpath]
      exact ho

theorem copyKernel_ends (h : Kept host initial b m) (installed image : Text) :
    Ends (copyKernel o installed image) (fun _ t => SameSetting m t)
      (fun _ t => Kept host initial b t) m := by
  unfold copyKernel
  apply Ends.bind
  apply Ends.get
  apply Ends.ite
  · intro _
    exact Ends.pure (.refl m)
  · intro _
    have hset : ∀ left, SameSetting m (setKernel installed left m) :=
      fun _ => ⟨rfl, rfl, rfl, rfl⟩
    apply attempt_ends o
    · intro _
      exact hset _
    · intro e _
      split
      · exact h.congr (hset _)
      · exact h

theorem apply_ends (h : Kept host initial b m) (package : Package)
    (htorn : ∀ image, package.kernel = some image → Torn o →
      HarmlessTear host b (appliedOf host package image) m) :
    Ends (Installer.apply host o package)
      (fun _ t => Kept host initial b t ∧ Accepts host t)
      (fun _ t => Kept host initial b t) m := by
  unfold Installer.apply
  apply Ends.bind
  apply Ends.check
  swap
  · intro e _
    exact h
  intro image himage
  have hpackage : package.kernel = some image := by
    cases hp : package.kernel with
    | none =>
      rw [hp] at himage
      cases himage
    | some i =>
      rw [hp] at himage
      cases himage
      rfl
  have hharmless := htorn image hpackage
  refine Ends.bind (look_ends o (fun _ => ?_) fun _ _ => h)
  refine Ends.bind (Ends.raiseIf (fun _ => ?_) fun _ => h)
  refine (copyKernel_ends h _ _).seq fun _ t ht => ?_
  have hkept := h.congr ht
  refine Ends.bind (look_ends o (fun _ => ?_) fun _ _ => hkept)
  refine Ends.bind (Ends.raiseIf (fun _ => ?_) fun _ => hkept)
  refine Ends.bind (readKernelState_ends o (fun _ => ?_) (fun _ _ => hkept) fun _ => hkept)
  refine (originalBackup_ends hkept).seq fun original u hu => ?_
  obtain ⟨hkeptu, hnames, hconfig, hfile⟩ := hu
  have hstate : u.kernelState = t.kernelState := congrArg Option.join hfile
  refine Ends.bind (look_ends o (fun _ => ?_) fun _ _ => hkeptu)
  have hmerged : ∀ document : TextDocument,
      kernelValues host.casing (some (document.bytes (merge host.casing document
        (KernelValues.entries ⟨some (appliedOf host package image), none⟩)))) =
        ⟨some (appliedOf host package image), none⟩ := by
    intro document
    apply kernelValuesOf_merge
    constructor
    · intro value hv
      cases hv
      exact appliedValue_plain host package.manifest.kernelRelease image
    · intro value hv
      cases hv
  -- the file has the new value, the kernel state is the old one
  have htear : Torn o → Kept host initial b
      (writeConfig ((documentOf u.config).bytes (merge host.casing (documentOf u.config)
        (KernelValues.entries ⟨some (appliedOf host package image), none⟩))) u) := by
    intro hto
    have hh := hharmless hto
    unfold HarmlessTear at hh
    have hum : u.kernelState = m.kernelState := hstate.trans ht.kernelState
    cases hk : m.kernelState with
    | none =>
      rw [hk] at hh hum
      constructor
      · refine ⟨fun _ => ?_, fun state hs => ?_, hkeptu.sound.readable, hkeptu.sound.legacy⟩
        · refine (hmerged _).trans ?_
          rw [← hh]
          exact h.sound.unrecorded hk
        · have hs' : u.kernelState = some state := hs
          rw [hum] at hs'
          cases hs'
      · intro _
        exact Accepts.of_none hum
    | some state =>
      rw [hk] at hh hum
      constructor
      · refine ⟨fun hn => ?_, hkeptu.sound.recorded, hkeptu.sound.readable, hkeptu.sound.legacy⟩
        have hn' : u.kernelState = none := hn
        rw [hum] at hn'
        cases hn'
      · intro hb
        apply Accepts.intro
        intro state' hs
        have hs' : u.kernelState = some state' := hs
        rw [hum] at hs'
        cases hs'
        refine ⟨(hkeptu.sound.recorded state hum).1, ?_⟩
        rw [hh hb]
        exact congrArg KernelValues.kernel (hmerged (documentOf u.config))
  apply Ends.bind
  apply write_ends o
  · intro hwritten
    have hdone : ∀ state : KernelState, state.originalBackup = original.1 →
        state.originalExists = original.2.1 → state.originalSha256 = original.2.2 →
        state.appliedKernelValue = appliedOf host package image →
        Kept host initial b { (writeConfig ((documentOf u.config).bytes (merge host.casing
          (documentOf u.config) (KernelValues.entries ⟨some (appliedOf host package image), none⟩)))
            u) with kernelFile := some (some state) } ∧
        Accepts host { (writeConfig ((documentOf u.config).bytes (merge host.casing
          (documentOf u.config) (KernelValues.entries ⟨some (appliedOf host package image), none⟩)))
            u) with kernelFile := some (some state) } := by
      intro state hpath hexists hsha happlied
      obtain ⟨hvalid, hvalues⟩ := hnames state hpath hexists hsha
      have haccepts : Accepts host { (writeConfig ((documentOf u.config).bytes (merge host.casing
          (documentOf u.config) (KernelValues.entries ⟨some (appliedOf host package image), none⟩)))
            u) with kernelFile := some (some state) } := by
        apply Accepts.intro
        intro state' hs
        cases hs
        refine ⟨hvalid, ?_⟩
        rw [happlied]
        exact congrArg KernelValues.kernel (hmerged (documentOf u.config))
      refine ⟨⟨⟨fun hn => ?_, fun state' hs => ?_, ?_, hkeptu.sound.legacy⟩, fun _ => haccepts⟩,
        haccepts⟩
      · cases hn
      · cases hs
        exact ⟨hvalid, hvalues⟩
      · rintro ⟨⟩
    apply write_ends o
    · intro _
      exact hdone _ rfl rfl rfl rfl
    · intro e hfails hnot
      refine htear ⟨.inl hwritten, ?_⟩
      rintro ⟨-, heffect | heffect⟩
      · rw [hfails] at heffect
        cases heffect
      · exact hnot heffect
    · intro _
      exact (hdone _ rfl rfl rfl rfl).1
  · intro e _ _
    exact hkeptu
  · intro hcut
    refine htear ⟨.inr hcut, ?_⟩
    rintro ⟨hnone, -⟩
    rw [hcut.1] at hnone
    cases hnone

end Apply

/-! ## `Restore` -/

variable (o) in
/-- The process ends when `Restore` has changed `.wslconfig`. -/
def RestoreCut : Prop := CutAfter o .writeConfig ∨ CutAfter o .deleteConfig

instance : Decidable (RestoreCut o) := by
  unfold RestoreCut
  infer_instance

/-- What `Restore` leaves besides `.wslconfig`. -/
structure SameRecord (m t : Machine) : Prop where
  backup : t.backup = m.backup
  kernelFile : t.kernelFile = m.kernelFile
  legacyBackup : t.legacyBackup = m.legacyBackup

theorem SameRecord.kernelState {m t : Machine} (h : SameRecord m t) :
    t.kernelState = m.kernelState := congrArg Option.join h.kernelFile

section Restore

variable {initial : KernelValues} {m t : Machine}

/-- A file with the user's values is sound whatever the record says. -/
theorem Sound.of_values (h : Sound host initial m) (hs : SameRecord m t)
    (hvalues : kernelValues host.casing t.config = initial) : Sound host initial t := by
  constructor
  · intro _
    exact hvalues
  · intro state hk
    obtain ⟨hvalid, horiginal⟩ := h.recorded state (hs.kernelState.symm.trans hk)
    exact ⟨(backupValid_congr hs.backup state).mpr hvalid,
      (originalValues_congr hs.backup state).trans horiginal⟩
  · exact fun hcut => h.readable (hs.kernelFile.symm.trans hcut)
  · exact hs.legacyBackup.trans h.legacy

/-- So is one with the user's values and no record. -/
theorem Sound.of_values_none (hvalues : kernelValues host.casing t.config = initial)
    (hfile : t.kernelFile = none) (hlegacy : t.legacyBackup = none) : Sound host initial t := by
  refine ⟨fun _ => hvalues, fun state hk => ?_, ?_, hlegacy⟩
  · rw [Machine.kernelState, hfile] at hk
    cases hk
  · rw [hfile]
    rintro ⟨⟩

/-- How a call of `Restore` ends that does not return. -/
structure RestoreFailed (host : Host) (o : Oracle) (initial : KernelValues) (m : Machine)
    (e : Failure) (t : Machine) : Prop where
  record : SameRecord m t
  config : t.config = m.config ∨
    (RestoreCut o ∧ Accepts host m ∧ m.kernelState ≠ none ∧
      kernelValues host.casing t.config = initial)
  rejection : Rejection e → Honest o → ¬ Accepts host m

theorem RestoreFailed.unchanged {e : Failure} (h : Rejection e → Honest o → ¬ Accepts host m) :
    RestoreFailed host o initial m e m :=
  ⟨⟨rfl, rfl, rfl⟩, .inl rfl, h⟩

theorem crashed_not_rejection : ¬ Rejection .crashed := by
  rintro (h | h)
  · cases h
  · cases h

theorem stateFileInvalid_not_rejection (detail : Text) :
    ¬ Rejection (raise (stateFileInvalid detail)) := by
  simp [Rejection, raise, stateFileInvalid, kernelBackupInvalid, wslconfigOwnershipChanged,
    ProvisionerException.state, ProvisionerException.kernel]

/-- An operation fails with no rejection if it is honest. -/
theorem failed_honest {site : Site} {e : Failure} (hfails : (o site).fails = some e) {p : Prop} :
    Rejection e → Honest o → p :=
  fun hr hhonest => absurd hr (hhonest site e hfails)

theorem originalValues_plain (m : Machine) (state : KernelState) :
    (originalValues host m state).Plain := by
  unfold originalValues
  split
  · exact kernelValues_plain host.casing _
  · exact .none

theorem restoreFrom_ends {state : KernelState} (h : Sound host initial m)
    (hk : m.kernelState = some state) :
    Ends (restoreFrom host o state)
      (fun _ t => SameRecord m t ∧ kernelValues host.casing t.config = initial ∧ Accepts host m)
      (RestoreFailed host o initial m) m := by
  obtain ⟨hvalid, horiginal⟩ := h.recorded state hk
  unfold restoreFrom
  refine Ends.bind (Ends.get ?_)
  refine Ends.bind (Ends.raiseIf (fun _ => ?_) fun hc => absurd hvalid hc)
  refine Ends.bind (look_ends o (fun _ => ?_) fun e he => .unchanged (failed_honest he))
  apply Ends.ite
  · intro hchanged
    have hrejected : ¬ Accepts host m := fun ha => hchanged (ha.of_some hk).2
    refine Ends.bind (write_ends o (fun _ => ?_) (fun _ _ _ => ?_) fun _ => ?_)
    · exact Ends.throw (.unchanged fun _ _ => hrejected)
    · exact .unchanged fun _ _ => hrejected
    · exact .unchanged fun _ _ => hrejected
  · intro hsame
    have hkernel : (kernelValues host.casing m.config).kernel = some state.appliedKernelValue :=
      Decidable.not_not.mp hsame
    have haccepts : Accepts host m := by
      apply Accepts.intro
      intro state' hs
      rw [hk] at hs
      cases hs
      exact ⟨hvalid, hkernel⟩
    have hrecorded : m.kernelState ≠ none := by
      rw [hk]
      exact Option.some_ne_none state
    apply Ends.ite
    · rintro ⟨habsent, -⟩
      have hvalues : KernelValues.none = initial := by
        rw [← horiginal]
        unfold originalValues
        rw [habsent]
        rfl
      apply write_ends o
      · intro _
        exact ⟨⟨rfl, rfl, rfl⟩, hvalues, haccepts⟩
      · intro e he _
        exact .unchanged (failed_honest he)
      · intro hcut
        exact ⟨⟨rfl, rfl, rfl⟩, .inr ⟨.inr hcut, haccepts, hrecorded, hvalues⟩,
          fun hr => absurd hr crashed_not_rejection⟩
    · intro _
      have hvalues : kernelValuesOf host.casing (merge host.casing (documentOf m.config)
          (originalValues host m state).entries) = initial := by
        rw [kernelValuesOf_merge host.casing _ (originalValues_plain m state)]
        exact horiginal
      apply write_ends o
      · intro _
        exact ⟨⟨rfl, rfl, rfl⟩, hvalues, haccepts⟩
      · intro e he _
        exact .unchanged (failed_honest he)
      · intro hcut
        exact ⟨⟨rfl, rfl, rfl⟩, .inr ⟨.inl hcut, haccepts, hrecorded, hvalues⟩,
          fun hr => absurd hr crashed_not_rejection⟩

theorem restore_ends (h : Sound host initial m) :
    Ends (restore host o)
      (fun _ t => SameRecord m t ∧ kernelValues host.casing t.config = initial ∧ Accepts host m)
      (RestoreFailed host o initial m) m := by
  unfold restore
  refine Ends.bind (readKernelState_ends o (fun _ => ?_)
    (fun e he => .unchanged (failed_honest he))
    fun _ => .unchanged fun hr => absurd hr (stateFileInvalid_not_rejection _))
  cases hk : m.kernelState with
  | none => exact Ends.pure ⟨⟨rfl, rfl, rfl⟩, h.unrecorded hk, Accepts.of_none hk⟩
  | some state => exact restoreFrom_ends h hk

end Restore

/-! ## `UninstallAsync` -/

theorem Steady.of_setting (casing : Casing) (m : Machine) :
    Steady casing AnyName fun t => t.files = m.files ∧
      (m.legacyBackup = none → t.legacyBackup = none) where
  unregistered _ _ _ h := h
  directories _ _ h := h
  log _ _ h := h
  transaction _ h := h
  setupResume _ h := h
  legacyBackup _ h := ⟨h.1, fun _ => rfl⟩

/-- What does not touch the setting leaves it the same. -/
theorem Steady.sameSetting {α : Type} {c : Call α}
    (hc : ∀ P : Machine → Prop, Steady host.casing AnyName P → Keeps P c) {m : Machine}
    (hm : m.legacyBackup = none) :
    Ends c (fun _ t => SameSetting m t) (fun _ t => SameSetting m t) m := by
  have hsame : ∀ t, (t.files = m.files ∧ (m.legacyBackup = none → t.legacyBackup = none)) →
      SameSetting m t := by
    rintro t ⟨hfiles, hlegacy⟩
    exact ⟨congrArg Files.config hfiles, congrArg Files.backup hfiles,
      congrArg Files.kernelFile hfiles, (hlegacy hm).trans hm.symm⟩
  exact (hc _ (.of_setting host.casing m) m ⟨rfl, fun h => h⟩).mono (fun _ => hsame) fun _ => hsame

variable (host) (o) in
/-- An operation fails before the kernel state is removed. -/
def LeavesState : Prop :=
  (o .uninstallShutdown).fails ≠ none ∨
  (o (.removeTree host.paths.runtimeRoot)).fails ≠ none ∨
  (o (.removeTree host.paths.kernelRoot)).fails ≠ none ∨
  (o (.removeTree (host.paths.dataRoot ++ ["logs".toList]))).fails ≠ none ∨
  ((o (.removeTree host.paths.stateRoot)).fails ≠ none ∧
    (o (.removeTree host.paths.stateRoot)).done = false ∧
    .kernelState ∉ (o (.removeTree host.paths.stateRoot)).gone)

variable (host) (o) in
/-- The removal of the state directory fails with the backup gone and the kernel state not. -/
def LosesBackup : Prop :=
  (o (.removeTree host.paths.stateRoot)).fails ≠ none ∧
    (o (.removeTree host.paths.stateRoot)).done = false ∧
    .kernelState ∉ (o (.removeTree host.paths.stateRoot)).gone ∧
    .backups ∈ (o (.removeTree host.paths.stateRoot)).gone

instance : Decidable (LeavesState host o) := by
  unfold LeavesState
  infer_instance

instance : Decidable (LosesBackup host o) := by
  unfold LosesBackup
  infer_instance

section Uninstall

variable {initial : KernelValues} {m : Machine}

theorem removed_files (gone : List StateFile) (m : Machine) :
    (gone.foldl withoutStateFile m).config = m.config ∧
    (gone.foldl withoutStateFile m).legacyBackup = m.legacyBackup ∧
    (gone.foldl withoutStateFile m).kernelFile =
      (if .kernelState ∈ gone then none else m.kernelFile) ∧
    (gone.foldl withoutStateFile m).backup = (if .backups ∈ gone then none else m.backup) := by
  induction gone generalizing m with
  | nil => exact ⟨rfl, rfl, rfl, rfl⟩
  | cons file rest ih =>
    obtain ⟨hconfig, hlegacy, hstate, hbackup⟩ := ih (withoutStateFile m file)
    rw [List.foldl_cons, hconfig, hlegacy, hstate, hbackup]
    cases file with
    | active => simp [withoutStateFile]
    | backups => simp [withoutStateFile]
    | kernelState => simp [withoutStateFile]
    | journal => simp [withoutStateFile]

/-- What is left of the setting when the files are not all removed. -/
structure FilesFailed (host : Host) (o : Oracle) (m t : Machine) : Prop where
  config : t.config = m.config
  legacyBackup : m.legacyBackup = none → t.legacyBackup = none
  record : t.kernelFile = none ∨ (LeavesState host o ∧ t.kernelFile = m.kernelFile ∧
    (t.backup = m.backup ∨ LosesBackup host o))

/-- A tree that is not the state directory: the setting stays, and a removal that fails does so
because its deletion does. -/
theorem removeOtherTree_ends {site : Site} {path parent : Path}
    {effect : Machine → Machine} (hunder : PathIsUnder host.casing path parent)
    (heffect : ∀ t, SameSetting t (effect t)) :
    Ends (removeOwnedTree host o site path (some parent) effect id)
      (fun _ t => SameSetting m t) (fun _ t => SameSetting m t ∧ (o site).fails ≠ none) m := by
  have hdeleted :
      SameSetting m (effect (withoutTree host.casing path (record (.deleted path) m))) := by
    have he := heffect (withoutTree host.casing path (record (.deleted path) m))
    exact ⟨he.config, he.backup, he.kernelFile, he.legacyBackup⟩
  apply Ends.bind
  apply Ends.get
  apply Ends.ite
  · intro _
    refine Ends.bind (Ends.raiseIf (fun _ => ?_) ?_)
    · refine Ends.bind (Ends.modify ?_)
      apply attempt_ends o
      · intro _
        exact hdeleted
      · intro e he
        have hfails : (o site).fails ≠ none := by
          rw [he]
          exact Option.some_ne_none e
        by_cases hdone : (o site).done = true
        · rw [if_pos hdone]
          exact ⟨hdeleted, hfails⟩
        · rw [if_neg hdone]
          exact ⟨⟨rfl, rfl, rfl, rfl⟩, hfails⟩
    · rintro ⟨p, hp, hnot⟩
      cases hp
      exact absurd hunder hnot
  · intro _
    exact Ends.pure (.refl m)

theorem pathIsUnder_append (casing : Casing) (parent : Path) {rest : Path} (h : rest ≠ []) :
    PathIsUnder casing (parent ++ rest) parent := by
  refine ⟨⟨rest.map (List.map casing.upper), List.map_append.symm⟩, ?_⟩
  rw [List.length_append]
  have hpos : 0 < rest.length := List.length_pos_of_ne_nil h
  omega

theorem pathIsUnder_dropLast (casing : Casing) {path : Path} (h : path ≠ []) :
    PathIsUnder casing path path.dropLast := by
  have happend := pathIsUnder_append casing path.dropLast (List.cons_ne_nil (path.getLast h) [])
  rw [List.dropLast_append_getLast h] at happend
  exact happend

theorem SameSetting.trans {m t u : Machine} (h : SameSetting m t) (h' : SameSetting t u) :
    SameSetting m u :=
  ⟨h'.config.trans h.config, h'.backup.trans h.backup, h'.kernelFile.trans h.kernelFile,
    h'.legacyBackup.trans h.legacyBackup⟩

theorem removeOtherTrees_ends (m : Machine) :
    Ends (removeOtherTrees host o) (fun _ t => SameSetting m t)
      (fun _ t => SameSetting m t ∧ LeavesState host o) m := by
  have hroot : host.paths.kernelRoot ≠ [] := by
    obtain ⟨c, drive, rest, hr, -⟩ := host.paths.kernelRoot_rooted
    rw [hr]
    exact List.cons_ne_nil _ _
  unfold removeOtherTrees
  have hshutdown : Ends (shutdown o .uninstallShutdown) (fun _ t => SameSetting m t)
      (fun _ t => SameSetting m t ∧ LeavesState host o) m := by
    have hlogged : SameSetting m (record .shutdown m) := ⟨rfl, rfl, rfl, rfl⟩
    have hleaves : ∀ e, (o .uninstallShutdown).fails = some e → LeavesState host o := by
      intro e he
      left
      rw [he]
      exact Option.some_ne_none e
    exact Ends.bind (Ends.modify (command_ends o (fun _ => hlogged)
      (fun e he => ⟨hlogged, hleaves e he⟩) fun e he _ => ⟨hlogged, hleaves e he⟩))
  refine hshutdown.seq fun _ s hs => ?_
  have hruntimes : PathIsUnder host.casing host.paths.runtimeRoot host.paths.dataRoot :=
    pathIsUnder_append host.casing _ (List.cons_ne_nil _ _)
  have hlogs : PathIsUnder host.casing (host.paths.dataRoot ++ ["logs".toList])
      host.paths.dataRoot := pathIsUnder_append host.casing _ (List.cons_ne_nil _ _)
  refine Ends.seq ((removeOtherTree_ends hruntimes fun t => .refl t).mono
    (fun _ t h => hs.trans h) fun e t h => ⟨hs.trans h.1, .inr (.inl h.2)⟩) fun _ t ht => ?_
  have hkernels : ∀ t, SameSetting t (withoutKernels t) := fun _ => ⟨rfl, rfl, rfl, rfl⟩
  have hkernel : Ends (removeOwnedTree host o (.removeTree host.paths.kernelRoot)
      host.paths.kernelRoot (some host.paths.kernelRoot.dropLast) withoutKernels id)
      (fun _ u => SameSetting m u) (fun _ u => SameSetting m u ∧ LeavesState host o) t :=
    (removeOtherTree_ends (pathIsUnder_dropLast host.casing hroot) hkernels).mono
      (fun _ u h => ht.trans h) fun e u h => ⟨ht.trans h.1, .inr (.inr (.inl h.2))⟩
  refine hkernel.seq fun _ u hu => ?_
  exact (removeOtherTree_ends hlogs fun t => .refl t).mono (fun _ v h => hu.trans h)
    fun e v h => ⟨hu.trans h.1, .inr (.inr (.inr (.inl h.2)))⟩

theorem removeStateRoot_ends (m : Machine) :
    Ends (removeStateRoot host o)
      (fun _ t => t.config = m.config ∧ t.legacyBackup = m.legacyBackup ∧ t.kernelFile = none)
      (fun _ t => FilesFailed host o m t) m := by
  unfold removeStateRoot deleteTree
  refine Ends.bind (Ends.modify ?_)
  apply attempt_ends o
  · intro _
    exact ⟨rfl, rfl, rfl⟩
  · intro e he
    by_cases hdone : (o (.removeTree host.paths.stateRoot)).done = true
    · rw [if_pos hdone]
      exact ⟨rfl, fun h => h, .inl rfl⟩
    · rw [if_neg hdone]
      obtain ⟨hconfig, hlegacy, hstate, hbackup⟩ :=
        removed_files (o (.removeTree host.paths.stateRoot)).gone
          (record (.deleted host.paths.stateRoot) m)
      refine ⟨hconfig, fun h => hlegacy.trans h, ?_⟩
      by_cases hgone : StateFile.kernelState ∈ (o (.removeTree host.paths.stateRoot)).gone
      · left
        rw [hstate, if_pos hgone]
      · right
        have hfails : (o (.removeTree host.paths.stateRoot)).fails ≠ none := by
          rw [he]
          exact Option.some_ne_none e
        have hnotdone : (o (.removeTree host.paths.stateRoot)).done = false := by
          simpa using hdone
        refine ⟨.inr (.inr (.inr (.inr ⟨hfails, hnotdone, hgone⟩))), ?_, ?_⟩
        · rw [hstate, if_neg hgone]
          rfl
        · by_cases hb : StateFile.backups ∈ (o (.removeTree host.paths.stateRoot)).gone
          · exact .inr ⟨hfails, hnotdone, hgone, hb⟩
          · left
            rw [hbackup, if_neg hb]
            rfl

/-- The state files are gone, and `.wslconfig` is left alone. -/
def Removed (config : Option Content) (m : Machine) : Prop :=
  m.config = config ∧ m.legacyBackup = none ∧ m.kernelFile = none

theorem Removed.steady (casing : Casing) (config : Option Content) :
    Steady casing AnyName (Removed config) where
  unregistered _ _ _ h := h
  directories _ _ h := h
  log _ _ h := h
  transaction _ h := h
  setupResume _ h := h
  legacyBackup _ h := ⟨h.1, rfl, h.2.2⟩

theorem removeDataRoot_keeps (config : Option Content) :
    Keeps (Removed config) (removeOwnedTree host o (.removeTree host.paths.dataRoot)
      host.paths.dataRoot none (fun m => withoutLegacyFiles (withoutStateFiles m)) id) := by
  apply Keeps.get_bind
  intro m hm
  apply Ends.ite
  · intro _
    refine Keeps.bind (.raiseIf _ _) (fun _ => ?_) m hm
    refine .bind (.modify fun _ h => h) fun _ => ?_
    apply attempt_keeps o
    · rintro t ⟨hconfig, -, -⟩
      exact ⟨hconfig, rfl, rfl⟩
    · rintro t ht
      split
      · exact ⟨ht.1, rfl, rfl⟩
      · exact ht
  · intro _
    exact Ends.pure hm

theorem uninstallFiles_ends (hlegacy : m.legacyBackup = none) :
    Ends (uninstallFiles host o) (fun _ t => Removed m.config t)
      (fun _ t => FilesFailed host o m t) m := by
  unfold uninstallFiles
  refine Ends.seq ((removeOtherTrees_ends m).mono (fun _ _ h => h) fun e t h =>
    ⟨h.1.config, fun hl => h.1.legacyBackup.trans hl, .inr ⟨h.2, h.1.kernelFile,
      .inl h.1.backup⟩⟩) fun _ t ht => ?_
  refine Ends.seq ((removeStateRoot_ends t).mono (fun _ _ h => h) fun e u h =>
    ⟨h.config.trans ht.config, fun hl => h.legacyBackup (ht.legacyBackup.trans hl), ?_⟩)
    fun _ u hu => ?_
  · rcases h.record with hnone | ⟨hleaves, hstate, hbackup⟩
    · exact .inl hnone
    · refine .inr ⟨hleaves, hstate.trans ht.kernelFile, ?_⟩
      rcases hbackup with hb | hb
      · exact .inl (hb.trans ht.backup)
      · exact .inr hb
  · obtain ⟨hconfig, hleg, hstate⟩ := hu
    have hremoved : Removed m.config u :=
      ⟨hconfig.trans ht.config, hleg.trans (ht.legacyBackup.trans hlegacy), hstate⟩
    have hkeeps : Keeps (Removed m.config) (do
        removeLegacyArtifacts host o .uninstall
        removeOwnedTree host o (.removeTree host.paths.dataRoot) host.paths.dataRoot none
          (fun m => withoutLegacyFiles (withoutStateFiles m)) id) :=
      .bind ((Removed.steady host.casing m.config).removeLegacyArtifacts _) fun _ =>
        removeDataRoot_keeps _
    exact (hkeeps u hremoved).mono (fun _ _ h => h) fun e v h =>
      ⟨h.1, fun _ => h.2.1, .inl h.2.2⟩

/-- How an uninstallation ends that does not return. -/
inductive UninstallFailed (host : Host) (o : Oracle) (initial : KernelValues) (m : Machine)
    (e : Failure) (t : Machine) : Prop
  | before (run : (uninstallRuntimes host o).run m = .error e t) (same : SameSetting m t)
  | restoring (u : Machine) (run : (uninstallRuntimes host o).run m = .ok ⟨⟩ u)
      (same : SameSetting m u) (raised : (restore host o).run u = .error e t)
      (failed : RestoreFailed host o initial u e t)
  | after (accepted : Accepts host m)
      (values : kernelValues host.casing t.config = initial) (legacy : t.legacyBackup = none)
      (record : t.kernelFile = none ∨ (LeavesState host o ∧ t.kernelFile = m.kernelFile ∧
        (t.backup = m.backup ∨ LosesBackup host o)))

theorem uninstall_ends (h : Sound host initial m) :
    Ends (uninstall host o)
      (fun _ t => kernelValues host.casing t.config = initial ∧ t.legacyBackup = none ∧
        t.kernelFile = none ∧ Accepts host m)
      (UninstallFailed host o initial m) m := by
  have hbefore := Steady.sameSetting (c := uninstallRuntimes host o)
    (fun P hP => hP.uninstallRuntimes fun _ => trivial) h.legacy
  have hrun : Ends (uninstallRuntimes host o)
      (fun _ u => SameSetting m u ∧ (uninstallRuntimes host o).run m = .ok ⟨⟩ u)
      (UninstallFailed host o initial m) m := by
    apply Ends.intro
    · intro _ u hu
      exact ⟨hbefore.of_ok hu, hu⟩
    · intro e u hu
      exact .before hu (hbefore.of_error hu)
  unfold uninstall
  refine hrun.seq fun _ u hu => ?_
  have hsound := h.congr hu.1
  have hrestore := restore_ends (o := o) hsound
  have hrestored : Ends (restore host o)
      (fun _ v => SameRecord u v ∧ kernelValues host.casing v.config = initial ∧ Accepts host u)
      (UninstallFailed host o initial m) u := by
    apply Ends.intro
    · intro _ v hv
      exact hrestore.of_ok hv
    · intro e v hv
      exact .restoring u hu.2 hu.1 hv (hrestore.of_error hv)
  refine hrestored.seq fun _ v hv => ?_
  obtain ⟨hrecord, hvalues, haccepts⟩ := hv
  have haccepted : Accepts host m := haccepts.congr hu.1.symm
  have hlegacy : v.legacyBackup = none := hrecord.legacyBackup.trans hsound.legacy
  refine (uninstallFiles_ends hlegacy).mono (fun _ t ht => ?_) fun e t ht => ?_
  · exact ⟨by rw [ht.1]; exact hvalues, ht.2.1, ht.2.2, haccepted⟩
  · refine .after haccepted ?_ (ht.legacyBackup hlegacy) ?_
    · rw [ht.config]
      exact hvalues
    · rcases ht.record with hnone | ⟨hleaves, hstate, hbackup⟩
      · exact .inl hnone
      · refine .inr ⟨hleaves, hstate.trans (hrecord.kernelFile.trans hu.1.kernelFile), ?_⟩
        rcases hbackup with hb | hb
        · exact .inl (hb.trans (hrecord.backup.trans hu.1.backup))
        · exact .inr hb

end Uninstall

end SwitchTrade.Installer

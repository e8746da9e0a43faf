import SwitchTrade.Installer.KernelCalls
import SwitchTrade.Transition.Run

/-!
# The user's kernel setting is restorable

The runs of `Apply`, `Restore` and `UninstallAsync`, and of edits that leave the two values
alone. In every run without three kinds of interruption (`Undisturbed`), a `Restore` that
returns has put the user's values back, and one that was interrupted is not rejected when it is
run again (`kernel_setting_restorable`). Each kind is an interruption that leaves `.wslconfig`
and the kernel state telling different stories.
-/

namespace SwitchTrade.Installer

open InPlace WslConfig Transition

/-! ## The runs -/

structure Session where
  machine : Machine
  /-- A `Restore` or an `UninstallAsync` was interrupted and none has returned since. -/
  interrupted : Bool

inductive Action where
  | apply (package : Package) (oracle : Oracle)
  | restore (oracle : Oracle)
  | uninstall (oracle : Oracle)
  | edit (config : Option Content)

namespace Session

variable (host : Host)

/-- The session after a `Restore`: it is interrupted if it fails with the file changed. -/
def restored (s : Session) : EStateM.Result Failure Machine PUnit → Session
  | .ok _ t => ⟨t, false⟩
  | .error _ t => ⟨t, s.interrupted || decide (t.config ≠ s.machine.config)⟩

/-- The session after an `UninstallAsync`: it is interrupted unless `Restore` rejects it. -/
def uninstalled (s : Session) : EStateM.Result Failure Machine PUnit → Session
  | .ok _ t => ⟨t, false⟩
  | .error e t => ⟨t, s.interrupted || decide (¬ Rejection e)⟩

def step (s : Session) : Action → Option Session
  | .apply package o => some { s with machine := after (Installer.apply host o package) s.machine }
  | .restore o => some (s.restored ((Installer.restore host o).run s.machine))
  | .uninstall o => some (s.uninstalled ((Installer.uninstall host o).run s.machine))
  | .edit config =>
    if kernelValues host.casing config = kernelValues host.casing s.machine.config then
      some { s with machine := { s.machine with config := config } }
    else none

/-- Nothing of SwitchTrade's is there; the file has the values of the user. -/
def Init (initial : KernelValues) (s : Session) : Prop :=
  s.machine.kernelFile = none ∧ s.machine.legacyBackup = none ∧ s.interrupted = false ∧
    kernelValues host.casing s.machine.config = initial

end Session

def kernelSetting (host : Host) (initial : KernelValues) : System Session Action :=
  System.ofStep (Session.Init host initial) (Session.step host)

/-! ## The interruptions that do harm -/

/-- The user's own kernel is the one that was applied. -/
def SameKernel (initial : KernelValues) (m : Machine) : Prop :=
  ∀ state, m.kernelState = some state → initial.kernel = some state.appliedKernelValue

/-- `Restore` is reached and may make its checks. -/
def ReachesCheck (host : Host) (o : Oracle) (m : Machine) : Prop :=
  (∃ u, (uninstallRuntimes host o).run m = .ok ⟨⟩ u) ∧ (o .readKernelState).fails = none ∧
    (o .readConfig).fails = none ∧ (o .copyConflict).fails = none

/-- The steps that leave `.wslconfig` and the record of it in agreement:

* `Apply` is not cut off between its writes of `.wslconfig` and of the kernel state, unless that
  changes neither value of the user nor what a later `Restore` is to find;
* `Restore`, and `UninstallAsync` before the kernel state is removed, is not cut off once
  `.wslconfig` is restored, unless the user's kernel is the applied one;
* `UninstallAsync` is not cut off while the file is one that `Restore` rejects. -/
def Undisturbed (host : Host) (initial : KernelValues) (s : Session) : Action → Prop
  | .apply package o => ∀ image, package.kernel = some image → Torn o →
      HarmlessTear host s.interrupted (appliedOf host package image) s.machine
  | .restore o => RestoreCut o → Accepts host s.machine → SameKernel initial s.machine
  | .uninstall o => (Accepts host s.machine ∨ ReachesCheck host o s.machine) ∧
      (Accepts host s.machine → s.machine.kernelState ≠ none →
        RestoreCut o ∨ LeavesState host o → SameKernel initial s.machine ∧ ¬ LosesBackup host o)
  | .edit _ => True

/-! ## The invariant -/

variable {host : Host} {o : Oracle} {initial : KernelValues}

/-- With the user's values and the record that was there, a later `Restore` accepts the file. -/
theorem accepts_of_sameKernel {m t : Machine} (h : Sound host initial m) (hs : SameRecord m t)
    (hvalues : kernelValues host.casing t.config = initial) (hsame : SameKernel initial m) :
    Accepts host t := by
  apply Accepts.intro
  intro state hk
  have hstate := hs.kernelState.symm.trans hk
  refine ⟨(backupValid_congr hs.backup state).mpr (h.recorded state hstate).1, ?_⟩
  rw [hvalues]
  exact hsame state hstate

namespace Session

/-- What a session keeps. -/
def Restorable (host : Host) (initial : KernelValues) (s : Session) : Prop :=
  Kept host initial s.interrupted s.machine

theorem Restorable.of_init {s : Session} (h : s.Init host initial) : s.Restorable host initial := by
  obtain ⟨hstate, hlegacy, hinterrupted, hvalues⟩ := h
  refine ⟨.of_values_none hvalues hstate hlegacy, fun hb => ?_⟩
  rw [hinterrupted] at hb
  cases hb

theorem Restorable.apply {s : Session} (h : s.Restorable host initial) (package : Package)
    (hg : Undisturbed host initial s (.apply package o)) :
    Restorable host initial
      { s with machine := after (Installer.apply host o package) s.machine } := by
  have hends := apply_ends h package hg
  unfold after
  cases hr : (Installer.apply host o package).run s.machine with
  | ok a t => exact (hends.of_ok hr).1
  | error e t => exact hends.of_error hr

/-- A `Restore` that fails with the file unchanged has changed nothing of the setting. -/
theorem sameSetting_of_record {m t : Machine} (hs : SameRecord m t) (hc : t.config = m.config) :
    SameSetting m t := ⟨hc, hs.backup, hs.kernelFile, hs.legacyBackup⟩

theorem Restorable.restore {s : Session} (h : s.Restorable host initial)
    (hg : Undisturbed host initial s (.restore o)) :
    (s.restored ((Installer.restore host o).run s.machine)).Restorable host initial := by
  have hends := restore_ends (o := o) h.sound
  cases hr : (Installer.restore host o).run s.machine with
  | ok a t =>
    obtain ⟨hrecord, hvalues, -⟩ := hends.of_ok hr
    exact ⟨h.sound.of_values hrecord hvalues, fun hb => by cases hb⟩
  | error e t =>
    have hfailed := hends.of_error hr
    rcases hfailed.config with hsame | ⟨hcut, haccepts, -, hvalues⟩
    · have hset := sameSetting_of_record hfailed.record hsame
      refine ⟨h.sound.congr hset, fun hb => ?_⟩
      have hinterrupted : s.interrupted = true := by
        have hflag : (s.interrupted || decide (t.config ≠ s.machine.config)) = true := hb
        rw [hsame] at hflag
        simpa using hflag
      exact (h.accepts hinterrupted).congr hset
    · exact ⟨h.sound.of_values hfailed.record hvalues, fun _ =>
        accepts_of_sameKernel h.sound hfailed.record hvalues (hg hcut haccepts)⟩

/-- A `Restore` that makes its checks on a file it does not accept raises one of its
rejections. -/
theorem restore_rejects {m : Machine} (h : Sound host initial m) (hn : ¬ Accepts host m)
    (hread : (o .readKernelState).fails = none) (hconfig : (o .readConfig).fails = none)
    (hcopy : (o .copyConflict).fails = none) :
    Ends (Installer.restore host o) (fun _ _ => False) (fun e _ => Rejection e) m := by
  unfold Installer.restore
  refine Ends.bind (readKernelState_ends o (fun _ => ?_) (fun e he => ?_)
    fun hcut => absurd hcut h.readable)
  · cases hk : m.kernelState with
    | none => exact absurd (Accepts.of_none hk) hn
    | some state =>
      have hvalid := (h.recorded state hk).1
      have hchanged :
          (kernelValues host.casing m.config).kernel ≠ some state.appliedKernelValue := by
        intro hkernel
        apply hn
        apply Accepts.intro
        intro state' hs
        rw [hk] at hs
        cases hs
        exact ⟨hvalid, hkernel⟩
      unfold restoreFrom
      refine Ends.bind (Ends.get ?_)
      refine Ends.bind (Ends.raiseIf (fun _ => ?_) fun hc => absurd hvalid hc)
      refine Ends.bind (look_ends o (fun _ => ?_) fun e he => ?_)
      · apply Ends.ite
        · intro _
          refine Ends.bind (write_ends o (fun _ => Ends.throw (.inr rfl)) (fun e he _ => ?_)
            fun hc => ?_)
          · rw [hcopy] at he
            cases he
          · have hcrash := hc.1
            rw [hcopy] at hcrash
            cases hcrash
        · intro hc
          exact absurd hchanged hc
      · rw [hconfig] at he
        cases he
  · rw [hread] at he
    cases he

theorem Restorable.uninstall {s : Session} (h : s.Restorable host initial)
    (hg : Undisturbed host initial s (.uninstall o)) :
    (s.uninstalled ((Installer.uninstall host o).run s.machine)).Restorable host initial := by
  obtain ⟨hreached, hkept⟩ := hg
  have hends := uninstall_ends (o := o) h.sound
  cases hr : (Installer.uninstall host o).run s.machine with
  | ok a t =>
    obtain ⟨hvalues, hlegacy, hstate, -⟩ := hends.of_ok hr
    exact ⟨.of_values_none hvalues hstate hlegacy, fun hb => by cases hb⟩
  | error e t =>
    cases hends.of_error hr with
    | before hrun hsame =>
      refine ⟨h.sound.congr hsame, fun _ => ?_⟩
      rcases hreached with haccepts | ⟨⟨u, hu⟩, -⟩
      · exact haccepts.congr hsame
      · rw [hrun] at hu
        cases hu
    | restoring u hrun hsame hraised hfailed =>
      have hsound := h.sound.congr hsame
      have hback : SameSetting u s.machine := hsame.symm
      rcases hfailed.config with hconfig | ⟨hcut, haccepts, hrecorded, hvalues⟩
      · have hset := sameSetting_of_record hfailed.record hconfig
        refine ⟨hsound.congr hset, fun hb => ?_⟩
        by_cases haccepts : Accepts host s.machine
        · exact (haccepts.congr hsame).congr hset
        · -- the call made its checks and was rejected, so it counts as no interruption
          have hnot : ¬ Accepts host u := fun ha => haccepts (ha.congr hback)
          rcases hreached with ha | ⟨-, hread, hread', hcopy⟩
          · exact absurd ha haccepts
          · have hrejection := (restore_rejects hsound hnot hread hread' hcopy).of_error hraised
            have hflag : (s.interrupted || decide (¬ Rejection e)) = true := hb
            rw [decide_eq_false (fun hc => hc hrejection), Bool.or_false] at hflag
            exact absurd (h.accepts hflag) haccepts
      · have hm : Accepts host s.machine := haccepts.congr hback
        have hstate : s.machine.kernelState ≠ none := by
          rw [← hsame.kernelState]
          exact hrecorded
        have hkernel : SameKernel initial u := by
          intro state hk
          exact (hkept hm hstate (.inl hcut)).1 state (hsame.kernelState.symm.trans hk)
        exact ⟨hsound.of_values hfailed.record hvalues, fun _ =>
          accepts_of_sameKernel hsound hfailed.record hvalues hkernel⟩
    | after haccepts hvalues hlegacy hrecord =>
      rcases hrecord with hnone | ⟨hleaves, hstate, hbackup⟩
      · exact ⟨.of_values_none hvalues hnone hlegacy,
          fun _ => Accepts.of_none (congrArg Option.join hnone)⟩
      · have hsame : t.kernelState = s.machine.kernelState := congrArg Option.join hstate
        by_cases hrecorded : s.machine.kernelState = none
        · have hnone : t.kernelState = none := hsame.trans hrecorded
          refine ⟨⟨fun _ => hvalues, fun state hk => ?_, ?_, hlegacy⟩,
            fun _ => Accepts.of_none hnone⟩
          · have hk' : t.kernelState = some state := hk
            rw [hnone] at hk'
            cases hk'
          · exact fun hcut => h.sound.readable (hstate.symm.trans hcut)
        · obtain ⟨hkernel, hkeeps⟩ := hkept haccepts hrecorded (.inr hleaves)
          rcases hbackup with hb | hb
          · have hrec : SameRecord s.machine t :=
              ⟨hb, hstate, hlegacy.trans h.sound.legacy.symm⟩
            exact ⟨h.sound.of_values hrec hvalues, fun _ =>
              accepts_of_sameKernel h.sound hrec hvalues hkernel⟩
          · exact absurd hb hkeeps

theorem Restorable.edit {s : Session} (h : s.Restorable host initial) {config : Option Content}
    (hsame : kernelValues host.casing config = kernelValues host.casing s.machine.config) :
    Restorable host initial { s with machine := { s.machine with config := config } } := by
  constructor
  · refine ⟨fun hk => ?_, h.sound.recorded, h.sound.readable, h.sound.legacy⟩
    exact hsame.trans (h.sound.unrecorded hk)
  · intro hb
    have haccepts := h.accepts hb
    apply Accepts.intro
    intro state hk
    obtain ⟨hvalid, hkernel⟩ := haccepts.of_some (m := s.machine) hk
    refine ⟨hvalid, ?_⟩
    rw [hsame]
    exact hkernel

theorem Restorable.step {s t : Session} {action : Action} (h : s.Restorable host initial)
    (hg : Undisturbed host initial s action) (ht : s.step host action = some t) :
    t.Restorable host initial := by
  cases action with
  | apply package o =>
    cases ht
    exact h.apply package hg
  | restore o =>
    cases ht
    exact h.restore hg
  | uninstall o =>
    cases ht
    exact h.uninstall hg
  | edit config =>
    simp only [Session.step] at ht
    split at ht
    · next hsame =>
        cases ht
        exact h.edit hsame
    · cases ht

theorem restorable_of_reachable {s : Session}
    (h : (kernelSetting host initial).Reachable (Undisturbed host initial) s) :
    s.Restorable host initial :=
  h.invariant (fun _ => Restorable.of_init) fun _ _ _ hs hg hn => hs.step hg hn

end Session

/-! ## Restoration -/

/-- In every state of an undisturbed run: whenever `Restore` returns, by itself or in an
uninstallation, the two values are those of the file before SwitchTrade; and if a `Restore` or an
`UninstallAsync` was interrupted, its `Restore` is not rejected when it is run again. -/
theorem kernel_setting_restorable (host : Host) (initial : KernelValues) {s : Session}
    (h : (kernelSetting host initial).Reachable (Undisturbed host initial) s) (o : Oracle) :
    (∀ t, (restore host o).run s.machine = .ok ⟨⟩ t →
      kernelValues host.casing t.config = initial) ∧
    (∀ u t, (uninstallRuntimes host o).run s.machine = .ok ⟨⟩ u →
      (restore host o).run u = .ok ⟨⟩ t → kernelValues host.casing t.config = initial) ∧
    (∀ t, (uninstall host o).run s.machine = .ok ⟨⟩ t →
      kernelValues host.casing t.config = initial) ∧
    (s.interrupted = true → Honest o →
      (∀ e t, (restore host o).run s.machine = .error e t → ¬ Rejection e) ∧
      (∀ u e t, (uninstallRuntimes host o).run s.machine = .ok ⟨⟩ u →
        (restore host o).run u = .error e t → ¬ Rejection e)) := by
  have hs := Session.restorable_of_reachable h
  have hbefore := Steady.sameSetting (c := uninstallRuntimes host o)
    (fun P hP => hP.uninstallRuntimes fun _ => trivial) hs.sound.legacy
  refine ⟨?_, ?_, ?_, ?_⟩
  · intro t ht
    exact ((restore_ends hs.sound).of_ok ht).2.1
  · intro u t hu ht
    exact ((restore_ends (hs.sound.congr (hbefore.of_ok hu))).of_ok ht).2.1
  · intro t ht
    exact ((uninstall_ends hs.sound).of_ok ht).1
  · intro hinterrupted hhonest
    have haccepts := hs.accepts hinterrupted
    constructor
    · intro e t hrun hrejection
      exact ((restore_ends hs.sound).of_error hrun).rejection hrejection hhonest haccepts
    · intro u e t hu hrun hrejection
      have hsame := hbefore.of_ok hu
      exact ((restore_ends (hs.sound.congr hsame)).of_error hrun).rejection hrejection hhonest
        (haccepts.congr hsame)

/-! ## Runs -/

def plainCasing : Casing := ⟨Char.toUpper, fun _ _ => rfl⟩

def digest (text : Text) : Text := (text ++ List.replicate 64 '0').take 64 |>.map fun c =>
  if isSpace c then '0' else c

theorem digest_hex (text : Text) :
    (digest text).length = 64 ∧ ∀ c ∈ digest text, isSpace c = false := by
  constructor
  · unfold digest
    rw [List.length_map, List.length_take, List.length_append, List.length_replicate]
    omega
  · intro c hc
    obtain ⟨d, -, rfl⟩ := List.mem_map.mp hc
    split
    · decide
    · next h => simpa using h

def testHost : Host where
  paths := {
    dataRoot := ["C:".toList, "data".toList]
    kernelRoot := ["C:".toList, "kernel".toList]
    enforceAsciiKernelPath := true
    kernelRoot_rooted := ⟨'C', _, _, rfl, by decide⟩
    kernelRoot_oneLine := by decide }
  casing := plainCasing
  contentSha256 content := digest content.text
  imageSha256 := digest
  imageSha256_hex := digest_hex
  windows64 := true
  windowsBuild := 22631

def testPackage : Package where
  manifest := {
    releaseId := "beta-1".toList
    minimumWindowsBuild := 19045
    minimumWslVersion := [2, 4, 4]
    controlContract := "local-app-readiness.v2".toList
    runtimeContentId := List.replicate 64 '1'
    kernelRelease := "6.6".toList }
  kernel := some "kernel-one".toList
  runtimeSize := some 1

/-- A machine without SwitchTrade and with this `.wslconfig`. -/
def bareMachine (config : Option Content) : Machine where
  config := config
  backup := none
  kernelFile := none
  kernels _ := none
  active := none
  journal := none
  transaction := none
  setupResume := false
  legacyBackup := none
  directories := []
  registrations := []
  log := []

def userFile : Content := ⟨.utf8, "[wsl2]\nkernel=C:\\\\user\\\\kernel\nmemory=3GB\n".toList⟩

def userValues : KernelValues := ⟨some "C:\\\\user\\\\kernel".toList, none⟩

def smooth : Oracle := fun _ => .good

/-- The process ends after the operation at the site. -/
def cutAfter (site : Site) : Oracle := fun s =>
  if s = site then { Answer.good with fails := some .crashed } else .good

theorem bareMachine_init : Session.Init testHost userValues ⟨bareMachine (some userFile), false⟩ :=
  ⟨rfl, rfl, rfl, by decide +kernel⟩

/-- The values a call leaves if it returns. -/
def valuesLeft : EStateM.Result Failure Machine PUnit → Option KernelValues
  | .ok _ t => some (kernelValues plainCasing t.config)
  | .error _ _ => none

/-- What a call raises if it does not. -/
def failureOf : EStateM.Result Failure Machine PUnit → Option Failure
  | .ok _ _ => none
  | .error e _ => some e

theorem ok_of_valuesLeft {r : EStateM.Result Failure Machine PUnit} {v : KernelValues}
    (h : valuesLeft r = some v) :
    ∃ t, r = .ok ⟨⟩ t ∧ kernelValues plainCasing t.config = v := by
  cases r with
  | ok a t =>
    cases h
    exact ⟨t, rfl, rfl⟩
  | error e t => cases h

theorem error_of_failureOf {r : EStateM.Result Failure Machine PUnit} {e : Failure}
    (h : failureOf r = some e) : ∃ t, r = .error e t := by
  cases r with
  | ok a t => cases h
  | error e' t =>
    cases h
    exact ⟨t, rfl⟩

section

variable {initial : KernelValues} {G : Session → Action → Prop} {s : Session}

theorem apply_reachable (h : (kernelSetting testHost initial).Reachable G s)
    (package : Package) (o : Oracle) (hg : G s (.apply package o)) :
    (kernelSetting testHost initial).Reachable G
      { s with machine := after (Installer.apply testHost o package) s.machine } :=
  h.step hg rfl

theorem restore_reachable (h : (kernelSetting testHost initial).Reachable G s) (o : Oracle)
    (hg : G s (.restore o)) :
    (kernelSetting testHost initial).Reachable G
      (s.restored ((restore testHost o).run s.machine)) :=
  h.step hg rfl

theorem uninstall_reachable (h : (kernelSetting testHost initial).Reachable G s) (o : Oracle)
    (hg : G s (.uninstall o)) :
    (kernelSetting testHost initial).Reachable G
      (s.uninstalled ((uninstall testHost o).run s.machine)) :=
  h.step hg rfl

end

theorem bareMachine_reachable {G : Session → Action → Prop} :
    (kernelSetting testHost userValues).Reachable G ⟨bareMachine (some userFile), false⟩ :=
  .init bareMachine_init

def appliedSession : Session :=
  ⟨after (Installer.apply testHost smooth testPackage) (bareMachine (some userFile)), false⟩

theorem appliedSession_reachable :
    (kernelSetting testHost userValues).Reachable (Undisturbed testHost userValues)
      appliedSession := by
  refine apply_reachable bareMachine_reachable testPackage smooth ?_
  intro image _ htorn
  exact absurd htorn (by decide)

/-- A user whose kernel is the one that SwitchTrade is to apply. -/
def sameKernelValues : KernelValues :=
  ⟨some (appliedOf testHost testPackage "kernel-one".toList), none⟩

def sameKernelFile : Content :=
  ⟨.utf8, "[wsl2]\nkernel=".toList ++ appliedOf testHost testPackage "kernel-one".toList ++
    "\nmemory=3GB\n".toList⟩

/-- `Apply` is cut off between its two writes. -/
def tornSession : Session :=
  ⟨after (Installer.apply testHost (cutAfter .writeConfig) testPackage)
    (bareMachine (some sameKernelFile)), false⟩

def recordedSession : Session :=
  ⟨after (Installer.apply testHost smooth testPackage) tornSession.machine, false⟩

/-- `UninstallAsync` is cut off between the write of `.wslconfig` and the removal of the kernel
state. -/
def halfUninstalled : Session :=
  recordedSession.uninstalled ((uninstall testHost (cutAfter .writeConfig)).run
    recordedSession.machine)

theorem recordedSession_reachable :
    (kernelSetting testHost sameKernelValues).Reachable (Undisturbed testHost sameKernelValues)
      recordedSession := by
  have hinit : Session.Init testHost sameKernelValues
      ⟨bareMachine (some sameKernelFile), false⟩ := ⟨rfl, rfl, rfl, by decide +kernel⟩
  have htorn := apply_reachable (G := Undisturbed testHost sameKernelValues) (.init hinit)
    testPackage (cutAfter .writeConfig) ?_
  · refine apply_reachable htorn testPackage smooth ?_
    intro image _ htorn
    exact absurd htorn (by decide)
  · intro image himage _
    cases himage
    decide +kernel

theorem halfUninstalled_reachable :
    (kernelSetting testHost sameKernelValues).Reachable (Undisturbed testHost sameKernelValues)
      halfUninstalled := by
  have haccepts : Accepts testHost recordedSession.machine := by decide +kernel
  refine uninstall_reachable recordedSession_reachable (cutAfter .writeConfig)
    ⟨.inl haccepts, fun _ _ _ => ⟨?_, by decide⟩⟩
  intro state hstate
  have happlied : recordedSession.machine.kernelState.map KernelState.appliedKernelValue =
      sameKernelValues.kernel := by decide +kernel
  rw [← happlied, hstate]
  rfl

/-- The call that was cut off is run again, by itself and as a whole. -/
theorem kernel_setting_restorable_interrupted :
    ∃ s t u, (kernelSetting testHost sameKernelValues).Reachable
        (Undisturbed testHost sameKernelValues) s ∧ s.interrupted = true ∧
      s.machine.kernelState.isSome = true ∧
      (restore testHost smooth).run s.machine = .ok ⟨⟩ t ∧
      kernelValues testHost.casing t.config = sameKernelValues ∧
      (uninstall testHost smooth).run s.machine = .ok ⟨⟩ u ∧
      kernelValues testHost.casing u.config = sameKernelValues ∧
      ∀ e v, (restore testHost smooth).run s.machine = .error e v → ¬ Rejection e := by
  have hreach := halfUninstalled_reachable
  have hinterrupted : halfUninstalled.interrupted = true := by decide +kernel
  have hrecorded : halfUninstalled.machine.kernelState.isSome = true := by decide +kernel
  have hrestore : valuesLeft ((restore testHost smooth).run halfUninstalled.machine) =
      some sameKernelValues := by decide +kernel
  have huninstall : valuesLeft ((uninstall testHost smooth).run halfUninstalled.machine) =
      some sameKernelValues := by decide +kernel
  obtain ⟨t, ht, -⟩ := ok_of_valuesLeft hrestore
  obtain ⟨u, hu, -⟩ := ok_of_valuesLeft huninstall
  obtain ⟨hback, -, hwhole, hagain⟩ :=
    kernel_setting_restorable testHost sameKernelValues hreach smooth
  exact ⟨halfUninstalled, t, u, hreach, hinterrupted, hrecorded, ht, hback t ht, hu, hwhole u hu,
    (hagain hinterrupted fun _ _ h => by cases h).1⟩

/-- `Apply` is cut off between its two writes: `Restore` returns and leaves the kernel that was
applied. `Restore` is cut off after its write: when it is run again it is rejected. -/
theorem kernel_setting_lost :
    (∃ s t, (kernelSetting testHost userValues).Reachable System.Free s ∧
      (restore testHost smooth).run s.machine = .ok ⟨⟩ t ∧
      kernelValues testHost.casing t.config ≠ userValues) ∧
    ∃ s t, (kernelSetting testHost userValues).Reachable System.Free s ∧
      s.interrupted = true ∧ Honest smooth ∧
      (restore testHost smooth).run s.machine = .error (raise wslconfigOwnershipChanged) t := by
  constructor
  · have hreach := apply_reachable (bareMachine_reachable (G := System.Free))
      testPackage (cutAfter .writeConfig) trivial
    have hvalues : valuesLeft ((restore testHost smooth).run (after (Installer.apply testHost
        (cutAfter .writeConfig) testPackage) (bareMachine (some userFile)))) =
          some ⟨some (appliedOf testHost testPackage "kernel-one".toList), none⟩ := by
      decide +kernel
    obtain ⟨t, ht, hleft⟩ := ok_of_valuesLeft hvalues
    refine ⟨_, t, hreach, ht, ?_⟩
    intro hsame
    exact absurd (hleft.symm.trans hsame) (by decide +kernel)
  · have happlied : (kernelSetting testHost userValues).Reachable System.Free appliedSession :=
      appliedSession_reachable.mono fun _ _ _ => trivial
    have hreach := restore_reachable happlied (cutAfter .writeConfig) trivial
    have hinterrupted : (appliedSession.restored ((restore testHost (cutAfter .writeConfig)).run
        appliedSession.machine)).interrupted = true := by decide +kernel
    have hfailure : failureOf ((restore testHost smooth).run (appliedSession.restored
        ((restore testHost (cutAfter .writeConfig)).run appliedSession.machine)).machine) =
          some (raise wslconfigOwnershipChanged) := by decide +kernel
    obtain ⟨t, ht⟩ := error_of_failureOf hfailure
    exact ⟨_, t, hreach, hinterrupted, fun _ _ h => (by cases h), ht⟩

end SwitchTrade.Installer

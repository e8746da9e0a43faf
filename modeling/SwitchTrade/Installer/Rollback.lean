import SwitchTrade.Installer.Candidate
import SwitchTrade.Installer.Restorable

/-!
# The rollback of a replacement

A replacement that raises has either committed its candidate, which was verified before, or is
to leave everything as it was (`Committed`, `RolledBack`). What raises after the pointer is
written leaves the candidate alone. Before, the rollback removes the candidate and then puts the
two files back: it does not get there if the removal or one of the writes raises, and a write
that raises may have cut the file off.
-/

namespace SwitchTrade.Installer

open InPlace

variable {host : Host} {o : Oracle}

/-! ## Names -/

theorem prefix_runtimeName (casing : Casing) (releaseId : Text)
    (generation : Generation) : runtimePrefix <+: runtimeName casing releaseId generation := by
  unfold runtimeName
  rw [List.append_assoc]
  exact List.prefix_append _ _

/-- A name of this product is not the legacy one. -/
theorem legacyName_ne {casing : Casing} {name : Text} (h : runtimePrefix <+: name) :
    ¬ casing.Same legacyName name := by
  intro hs
  have hl := hs.length
  have hle := h.length_le
  have hp : runtimePrefix.length = 17 := by decide
  have hn : legacyName.length = 11 := by decide
  omega

/-- The name is new to the machine. -/
structure Unused (host : Host) (name : Text) (m : Machine) : Prop where
  registrations : ∀ r ∈ m.registrations, ¬ host.casing.Same r.name name
  active : ∀ a, m.active = some a → ¬ host.casing.Same a.activeName name

/-- The generation of the candidate is new, and the replacement is one of the active runtime. -/
structure Fresh (host : Host) (r : Replacement) (m : Machine) : Prop where
  unused : Unused host (r.name host) m
  previous : r.previous = none ∨ r.previous = m.active

theorem Fresh.previous_name {r : Replacement} {m : Machine} (h : Fresh host r m)
    {a : ActiveRuntime} (ha : r.previous = some a) :
    ¬ host.casing.Same a.activeName (r.name host) := by
  rcases h.previous with hnone | hactive
  · rw [hnone] at ha
    cases ha
  · exact h.unused.active a (hactive.symm.trans ha)

/-! ## The two outcomes -/

/-- The pointer names the candidate, which is verified. -/
structure Committed (host : Host) (o : Oracle) (r : Replacement) (t : Machine) : Prop where
  active : ∃ a, t.active = some a ∧ a.activeName = r.name host
  verified : CandidateVerified host o r t

/-- The pointer is as it was, and what was registered is. -/
structure Standing (m t : Machine) : Prop where
  active : t.active = m.active
  registrations : ∀ x ∈ m.registrations, x ∈ t.registrations

/-- `.wslconfig` and the kernel state are as they were. -/
structure SameFiles (m t : Machine) : Prop where
  config : t.config = m.config
  kernelFile : t.kernelFile = m.kernelFile

structure RolledBack (m t : Machine) : Prop where
  standing : Standing m t
  files : SameFiles m t

theorem RolledBack.refl (m : Machine) : RolledBack m m := ⟨⟨rfl, fun _ h => h⟩, ⟨rfl, rfl⟩⟩

theorem RolledBack.not_committed {r : Replacement} {m t : Machine} (hfresh : Fresh host r m)
    (h : Standing m t) : ¬ Committed host o r t := by
  rintro ⟨⟨a, ha, hname⟩, -⟩
  apply hfresh.unused.active a (h.active.symm.trans ha)
  rw [hname]
  rfl

/-! ## The steps before the commit -/

theorem rolledBack_ensureDirectory {m t : Machine} (path : Path) (h : RolledBack m t) :
    RolledBack m (ensureDirectory path t) := by
  unfold ensureDirectory
  split
  · exact h
  · exact ⟨⟨h.standing.active, h.standing.registrations⟩, ⟨h.files.config, h.files.kernelFile⟩⟩

theorem preflight_keeps {P : Machine → Prop}
    (hP : ∀ m path, P m → P (ensureDirectory path m)) (package : Package) :
    Keeps P (preflight host o package) := by
  refine .bind (.raiseIf _ _) fun _ => ?_
  refine .bind (.raiseIf _ _) fun _ => ?_
  refine .bind (look_keeps o) fun _ => ?_
  refine .bind (.raiseIf _ _) fun _ => ?_
  refine .bind ?_ fun _ => ?_
  · unfold ensureDiskCapacity
    cases package.runtimeSize with
    | none => exact .pure _
    | some size => exact .bind (look_keeps o) fun _ => .raiseIf _ _
  · refine .bind (write_keeps o fun m hm => hP _ _ (hP _ _ hm)) fun _ => ?_
    exact .raiseIf _ _

/-- The replacement begins without a change of what it is to put back. -/
theorem beginReplacement_ends (r : Replacement) (m : Machine) :
    Ends (beginReplacement host o r)
      (fun old v => old = (m.config, m.kernelFile) ∧ RolledBack m v)
      (fun _ v => RolledBack m v) m := by
  unfold beginReplacement
  have hlock : Keeps (RolledBack m) (acquireLock host o) :=
    write_keeps o fun t ht => rolledBack_ensureDirectory _ ht
  refine (hlock m (.refl m)).seq fun _ t ht => ?_
  refine (preflight_keeps (fun u path hu => rolledBack_ensureDirectory path hu) _ t ht).seq
    fun _ u hu => ?_
  have hjournal : ∀ j, RolledBack m { u with journal := j } := fun _ =>
    ⟨⟨hu.standing.active, hu.standing.registrations⟩, ⟨hu.files.config, hu.files.kernelFile⟩⟩
  refine Ends.bind (write_ends o (fun _ => ?_) (fun _ _ _ => hu) fun _ => hjournal _)
  refine look_ends o (fun _ => ⟨?_, hjournal _⟩) fun _ _ => hjournal _
  exact Prod.ext hu.files.config hu.files.kernelFile

theorem Standing.installing (m : Machine) : Installing (fun _ => True) (Standing m) where
  config _ _ h := ⟨h.active, h.registrations⟩
  backup _ _ h := ⟨h.active, h.registrations⟩
  kernelFile _ _ h := ⟨h.active, h.registrations⟩
  kernels _ _ h := ⟨h.active, h.registrations⟩
  directories _ _ h := ⟨h.active, h.registrations⟩
  log _ _ h := ⟨h.active, h.registrations⟩
  added _ _ _ h := ⟨h.active, fun x hx => List.mem_append_left _ (h.registrations x hx)⟩

/-- The preparation that raises leaves the pointer and the registrations; one that returns has
committed. -/
theorem prepareCandidate_ends {m v : Machine} (r : Replacement) (h : Standing m v) :
    Ends (prepareCandidate host o r) (fun _ t => Committed host o r t)
      (fun e t => ∀ x, e = .raised x → Standing m t) v := by
  have hinstalling := Standing.installing m
  have hstanding : Ends (installCandidate host o r) (fun _ t => Standing m t)
      (fun _ t => Standing m t) v :=
    hinstalling.installCandidate trivial (fun _ _ => trivial) (hinstalling.apply _ v h)
  refine ((hstanding.and (installCandidate_verified r v)).mono (fun _ _ h => h)
    fun _ _ he _ _ => he.1).seq fun _ t ht => ?_
  apply write_ends o
  · intro _
    exact ⟨⟨r.active host, rfl, rfl⟩, ⟨ht.2.owned, ht.2.kernel, ht.2.health⟩⟩
  · intro e _ _ x _
    exact ht.1
  · intro _ x hx
    cases hx

/-! ## The steps after the commit -/

theorem Committed.steady (r : Replacement) :
    Steady host.casing (fun n => ¬ host.casing.Same n (r.name host)) (Committed host o r) where
  unregistered _ _ hn h :=
    ⟨h.active, ⟨h.verified.owned.congr (registered_without hn), h.verified.kernel,
      h.verified.health⟩⟩
  directories _ _ h := ⟨h.active, ⟨h.verified.owned, h.verified.kernel, h.verified.health⟩⟩
  log _ _ h := ⟨h.active, ⟨h.verified.owned, h.verified.kernel, h.verified.health⟩⟩
  transaction _ h := ⟨h.active, ⟨h.verified.owned, h.verified.kernel, h.verified.health⟩⟩
  setupResume _ h := ⟨h.active, ⟨h.verified.owned, h.verified.kernel, h.verified.health⟩⟩
  legacyBackup _ h := ⟨h.active, ⟨h.verified.owned, h.verified.kernel, h.verified.health⟩⟩

/-- The committed cleanup removes neither the candidate nor the pointer to it. -/
theorem finishCommittedCleanup_committed (r : Replacement) (phase : Phase) (recovering : Bool)
    (hprevious : ∀ a, r.previous = some a → ¬ host.casing.Same a.activeName (r.name host)) :
    Keeps (Committed host o r)
      (finishCommittedCleanup host o phase recovering (r.active host)) := by
  have hsteady := @Committed.steady host o r
  refine .bind ?_ fun _ => ?_
  · unfold removePrevious
    cases hp : (r.active host).previousName with
    | none =>
      refine .bind (legacyExists_keeps _) fun _ => .ite (fun _ => ?_) fun _ => .pure _
      exact hsteady.removeLegacy _ (legacyName_ne (prefix_runtimeName _ _ _))
    | some name =>
      obtain ⟨a, ha, rfl⟩ := Option.map_eq_some_iff.mp hp
      exact hsteady.removeOwnedRuntime _ (hprevious a ha) _ _ _
  refine .bind (hsteady.removeOrphanedOwnedRuntimes _ _ _ fun n _ hn => hn) fun _ => ?_
  refine .bind (hsteady.removeLegacyArtifacts _) fun _ => ?_
  refine .bind (write_keeps o fun t ht => ?_) fun _ => ?_
  · exact ⟨⟨_, rfl, rfl⟩, ⟨ht.verified.owned, ht.verified.kernel, ht.verified.health⟩⟩
  · exact write_keeps o fun t ht =>
      ⟨ht.active, ⟨ht.verified.owned, ht.verified.kernel, ht.verified.health⟩⟩

/-- What the deferred cleanup raises is no change of the machine. -/
theorem deferring_ends {P : Machine → Prop} {c : Call PUnit} {m : Machine}
    (hc : Ends c (fun _ t => P t) (fun _ t => P t) m) :
    Ends (deferring c) (fun _ t => P t) (fun _ t => P t) m := by
  unfold Ends EStateM.run deferring
  cases hr : c m with
  | ok a t => exact hc.of_ok hr
  | error e t =>
    have ht : P t := hc.of_error hr
    match e with
    | .raised (.provisioner _) => exact ht
    | .raised .canceled => exact ht
    | .raised .io => exact ht
    | .raised .unauthorized => exact ht
    | .raised .other => exact ht
    | .crashed => exact ht

theorem commitReplacement_committed {r : Replacement} {m : Machine} (hfresh : Fresh host r m) :
    Keeps (Committed host o r) (commitReplacement host o r) := by
  refine .bind (write_keeps o fun t ht => ?_) fun _ => ?_
  · exact ⟨ht.active, ⟨ht.verified.owned, ht.verified.kernel, ht.verified.health⟩⟩
  · intro t ht
    exact deferring_ends (finishCommittedCleanup_committed r _ _
      (fun a ha => hfresh.previous_name ha) t ht)

/-! ## The rollback -/

/-- The operation raises an exception. -/
def Raises (o : Oracle) (site : Site) : Prop := ∃ x, (o site).fails = some (.raised x)

/-- The removal that the rollback begins with. -/
def removeCandidate (host : Host) (o : Oracle) (r : Replacement) : Call PUnit :=
  removeCandidateBestEffort host o .rollbackCandidate (r.journal host) r.package.manifest

/-- What the rollback does when the preparation has left `t`: the removal of the candidate raises
only if the two files are as they were; a write that puts one of them back raises only if the
file it leaves is as it was, and the file whose turn has not come is. -/
structure PutsBack (host : Host) (o : Oracle) (r : Replacement) (m t : Machine) : Prop where
  removal : ∀ x u, (removeCandidate host o r).run t = .error (.raised x) u → SameFiles m t
  config : ∀ u, (removeCandidate host o r).run t = .ok ⟨⟩ u → Raises o .restoreConfig →
    (o .restoreConfig).leaves id m.config t.config = m.config ∧ t.kernelFile = m.kernelFile
  kernelFile : ∀ u, (removeCandidate host o r).run t = .ok ⟨⟩ u →
    (o .restoreConfig).fails = none → Raises o .restoreKernelState →
    (o .restoreKernelState).leaves (fun _ => none) m.kernelFile t.kernelFile = m.kernelFile

/-- Whenever the preparation raises, what it changed is put back. -/
def RollsBack (host : Host) (o : Oracle) (r : Replacement) (m : Machine) : Prop :=
  ∀ old v x t, (beginReplacement host o r).run m = .ok old v →
    (prepareCandidate host o r).run v = .error (.raised x) t → PutsBack host o r m t

theorem removeCandidate_keeps {r : Replacement} {P : Machine → Prop} {free : Text → Prop}
    (hP : Removing host.casing free P) (hfree : free (r.name host)) :
    Keeps P (removeCandidate host o r) :=
  .bind (.check _) fun _ => hP.removeOwnedRuntime _ hfree _ _ _

/-- The removal changes neither the pointer nor the two files, nor what was registered before. -/
theorem removeCandidate_ends {r : Replacement} {m t : Machine} (hfresh : Fresh host r m)
    (h : Standing m t) :
    Ends (removeCandidate host o r) (fun _ u => Standing m u ∧ SameFiles t u)
      (fun _ u => Standing m u ∧ SameFiles t u) t := by
  have hremoving : Removing host.casing (· = r.name host)
      (fun u => Standing m u ∧ SameFiles t u) := by
    refine ⟨?_, ?_, ?_⟩
    · rintro u name rfl ⟨hs, hf⟩
      refine ⟨⟨hs.active, fun x hx => mem_without.mpr ⟨hs.registrations x hx, ?_⟩⟩,
        ⟨hf.config, hf.kernelFile⟩⟩
      exact hfresh.unused.registrations x hx
    · rintro u d ⟨hs, hf⟩
      exact ⟨⟨hs.active, hs.registrations⟩, ⟨hf.config, hf.kernelFile⟩⟩
    · rintro u l ⟨hs, hf⟩
      exact ⟨⟨hs.active, hs.registrations⟩, ⟨hf.config, hf.kernelFile⟩⟩
  exact removeCandidate_keeps hremoving rfl t ⟨h, rfl, rfl⟩

theorem SameFiles.trans {m t u : Machine} (h : SameFiles m t) (h' : SameFiles t u) :
    SameFiles m u :=
  ⟨h'.config.trans h.config, h'.kernelFile.trans h.kernelFile⟩

theorem ignoring_keeps {P : Machine → Prop} {c : Call PUnit} (hc : Keeps P c) :
    Keeps P (rollback.ignoring c) := by
  intro m hm
  unfold Ends EStateM.run rollback.ignoring
  cases hr : c m with
  | ok a t => exact (hc m hm).of_ok hr
  | error e t =>
    have ht : P t := (hc m hm).of_error hr
    match e with
    | .raised (.provisioner _) => exact ht
    | .raised .canceled => exact ht
    | .raised .io => exact ht
    | .raised .unauthorized => exact ht
    | .raised .other => exact ht
    | .crashed => exact ht

/-- Once the files are put back, nothing of the rollback changes them. -/
theorem rolledBack_end (m : Machine) :
    Keeps (RolledBack m) (do
      rollback.ignoring (shutdown o .rollbackShutdown)
      write o (.deleteJournal .replace) deleteJournal) := by
  have hsame : ∀ t : Machine, RolledBack m t → ∀ log journal,
      RolledBack m { t with log := log, journal := journal } := fun t h log journal =>
    ⟨⟨h.standing.active, h.standing.registrations⟩, ⟨h.files.config, h.files.kernelFile⟩⟩
  refine .bind (ignoring_keeps (.bind (.modify fun t h => hsame t h _ _) fun _ => ?_)) fun _ => ?_
  · exact command_keeps o fun _ h => h
  · exact write_keeps o fun t h => hsame t h _ _

/-- A rollback that puts the files back restores what was. -/
theorem rollback_ends {r : Replacement} {m t : Machine} (hfresh : Fresh host r m)
    (h : Standing m t) :
    Ends (rollback host o r m.config m.kernelFile) (fun _ u => RolledBack m u)
      (fun e u => ∀ x, e = .raised x → PutsBack host o r m t → RolledBack m u) t := by
  have hremoval := removeCandidate_ends (o := o) hfresh h
  refine Ends.bind (Ends.intro (fun a u hu => ?_) fun e u hu x hx hputs => ?_)
  · obtain ⟨hs, hf⟩ := hremoval.of_ok hu
    refine Ends.bind (putBytes_ends o (fun hconfig => ?_) (fun x he _ _ hputs => ?_) ?_)
    · refine Ends.bind (putBytes_ends o (fun _ => ?_) (fun x he _ _ hputs => ?_) ?_)
      · have hback : RolledBack m { u with config := m.config, kernelFile := m.kernelFile } :=
          ⟨⟨hs.active, hs.registrations⟩, ⟨rfl, rfl⟩⟩
        exact (rolledBack_end m _ hback).mono (fun _ _ hr => hr) fun _ _ hr _ _ _ => hr
      · have hleaves := hputs.kernelFile u hu hconfig ⟨x, he⟩
        rw [← hf.kernelFile] at hleaves
        exact ⟨⟨hs.active, hs.registrations⟩, ⟨rfl, hleaves⟩⟩
      · intro _ x hx
        cases hx
    · obtain ⟨hleaves, hstate⟩ := hputs.config u hu ⟨x, he⟩
      rw [← hf.config] at hleaves
      exact ⟨⟨hs.active, hs.registrations⟩, ⟨hleaves, hf.kernelFile.trans hstate⟩⟩
    · intro _ x hx
      cases hx
  · subst hx
    exact ⟨(hremoval.of_error hu).1, (hputs.removal x u hu).trans (hremoval.of_error hu).2⟩

/-- A rollback that does not put the files back raises and leaves them changed. -/
theorem rollback_raises {r : Replacement} {m t : Machine} (hfresh : Fresh host r m)
    (h : Standing m t) (hputs : ¬ PutsBack host o r m t) :
    ∃ x u, (rollback host o r m.config m.kernelFile).run t = .error (.raised x) u ∧
      Standing m u ∧ ¬ SameFiles m u := by
  have hremoval := removeCandidate_ends (o := o) hfresh h
  by_contra hnone
  push Not at hnone
  refine hputs ⟨fun x u hu => ?_, fun u hu hraises => ?_, fun u hu hconfig hraises => ?_⟩
  · obtain ⟨hs, hf⟩ := hremoval.of_error hu
    have hsame := hnone x u (bind_eq_error.mpr (.inl hu)) hs
    exact ⟨hf.config.symm.trans hsame.config, hf.kernelFile.symm.trans hsame.kernelFile⟩
  · obtain ⟨hs, hf⟩ := hremoval.of_ok hu
    obtain ⟨x, hx⟩ := hraises
    have hsame := hnone x _ ((run_bind_of_ok hu).trans
      (run_bind_of_error (putBytes_of_raised o hx))) ⟨hs.active, hs.registrations⟩
    refine ⟨?_, hf.kernelFile.symm.trans hsame.kernelFile⟩
    rw [← hf.config]
    exact hsame.config
  · obtain ⟨hs, hf⟩ := hremoval.of_ok hu
    obtain ⟨x, hx⟩ := hraises
    have hsame := hnone x _ ((run_bind_of_ok hu).trans ((run_bind_of_ok
      (putBytes_of_none o hconfig)).trans (run_bind_of_error (putBytes_of_raised o hx))))
      ⟨hs.active, hs.registrations⟩
    rw [← hf.kernelFile]
    exact hsame.kernelFile

/-! ## The replacement -/

/-- The rule for `catch { … throw; }`. -/
theorem Ends.rollingBack {c handler : Call PUnit} {Q : PUnit → Machine → Prop}
    {E : Failure → Machine → Prop} {m : Machine}
    (h : Ends c Q (fun e t => (∀ x, e = .raised x →
      Ends handler (fun _ u => E (.raised x) u) E t) ∧ (e = .crashed → E .crashed t)) m) :
    Ends (rollingBack c handler) Q E m := by
  unfold Ends EStateM.run Installer.rollingBack
  cases hr : c m with
  | ok a t => exact h.of_ok hr
  | error e t =>
    obtain ⟨hraised, hcrashed⟩ := h.of_error hr
    match e with
    | .crashed => exact hcrashed rfl
    | .raised x =>
      have hx := hraised x rfl
      cases hh : handler t with
      | ok a u =>
        simp only [hh]
        exact hx.of_ok hh
      | error e' u =>
        simp only [hh]
        exact hx.of_error hh

theorem rollingBack_error {c handler : Call PUnit} {m t u : Machine} {x x' : Raised}
    (hc : c.run m = .error (.raised x) t) (hh : handler.run t = .error (.raised x') u) :
    (rollingBack c handler).run m = .error (.raised x') u := by
  have hc' : c m = .error (.raised x) t := hc
  have hh' : handler t = .error (.raised x') u := hh
  unfold EStateM.run rollingBack
  rw [hc']
  simp only
  rw [hh']

/-- A replacement that raises has committed or rolled back, if and only if whenever the
preparation raises what it changed is put back. -/
theorem replaceRuntime_all_or_nothing {r : Replacement} {m : Machine} (hfresh : Fresh host r m) :
    (∀ x t, (replaceRuntime host o r).run m = .error (.raised x) t →
      Committed host o r t ∨ RolledBack m t) ↔ RollsBack host o r m := by
  constructor
  · intro hall old v x t hbegin hprepare
    obtain ⟨rfl, hv⟩ := (beginReplacement_ends r m).of_ok hbegin
    have ht := (prepareCandidate_ends r hv.standing).of_error hprepare x rfl
    by_contra hputs
    obtain ⟨x', u, hu, hs, hchanged⟩ := rollback_raises hfresh ht hputs
    have hrun : (replaceRuntime host o r).run m = .error (.raised x') u :=
      (run_bind_of_ok hbegin).trans (run_bind_of_error (rollingBack_error hprepare hu))
    rcases hall x' u hrun with hc | hr
    · exact RolledBack.not_committed hfresh hs hc
    · exact hchanged hr.files
  · intro hrolls
    have hends : Ends (replaceRuntime host o r) (fun _ _ => True)
        (fun e t => ∀ x, e = .raised x → Committed host o r t ∨ RolledBack m t) m := by
      unfold replaceRuntime
      refine Ends.bind (Ends.intro (fun old v hbegin => ?_) fun e v hbegin x _ => ?_)
      · obtain ⟨rfl, hv⟩ := (beginReplacement_ends r m).of_ok hbegin
        refine Ends.bind (Ends.rollingBack (Ends.intro (fun a t hprepare => ?_)
          fun e t hprepare => ⟨fun x hx => ?_, fun _ x hx => by cases hx⟩))
        · have ht := (prepareCandidate_ends r hv.standing).of_ok hprepare
          exact (commitReplacement_committed hfresh t ht).mono (fun _ _ _ => trivial)
            fun _ _ hc _ _ => .inl hc
        · subst hx
          have ht := (prepareCandidate_ends r hv.standing).of_error hprepare x rfl
          have hputs := hrolls _ v x t hbegin hprepare
          exact (rollback_ends hfresh ht).mono (fun _ _ hr _ _ => .inr hr)
            fun _ _ hr x' hx' => .inr (hr x' hx' hputs)
      · exact .inr ((beginReplacement_ends r m).of_error hbegin)
    intro x t hrun
    exact hends.of_error hrun x rfl

/-- Everything is there that the package asks for. -/
def granting : Oracle := fun _ =>
  { Answer.good with
    output := testPackage.manifest.kernelRelease
    version := testPackage.manifest.minimumWslVersion
    freeSpace := 1099511627776 }

/-- The installation of the candidate fails and leaves its directory. -/
def unpacking : Oracle := fun site =>
  if site = .install then { granting .install with fails := some (.raised .io) } else granting site

/-- The write that puts `.wslconfig` back raises when it has emptied the file. -/
def truncating : Oracle := fun site =>
  if site = .restoreConfig then
    { granting .restoreConfig with
      fails := some (.raised .io)
      done := false
      part := some ⟨.utf8, []⟩ }
  else unpacking site

def firstGeneration : Generation := ⟨List.replicate 32 'a', by decide⟩

def firstReplacement : Replacement := ⟨"install", testPackage, none, firstGeneration⟩

/-- The candidate is not installed: the file is put back, unless that is cut off. -/
theorem replaceRuntime_all_or_nothing_unpacking :
    ((∀ x t,
      (replaceRuntime testHost unpacking firstReplacement).run (bareMachine (some userFile)) =
        .error (.raised x) t → Committed testHost unpacking firstReplacement t ∨
          RolledBack (bareMachine (some userFile)) t) ↔
      RollsBack testHost unpacking firstReplacement (bareMachine (some userFile))) ∧
    failureOf ((replaceRuntime testHost unpacking firstReplacement).run
      (bareMachine (some userFile))) = some (.raised .io) ∧
    (after (replaceRuntime testHost unpacking firstReplacement)
      (bareMachine (some userFile))).config = some userFile ∧
    ¬ RollsBack testHost truncating firstReplacement (bareMachine (some userFile)) := by
  have hfresh : Fresh testHost firstReplacement (bareMachine (some userFile)) :=
    ⟨⟨by simp [bareMachine], by simp [bareMachine]⟩, .inl rfl⟩
  refine ⟨replaceRuntime_all_or_nothing hfresh, by decide +kernel, by decide +kernel, ?_⟩
  intro hrolls
  have hall := (replaceRuntime_all_or_nothing (o := truncating) hfresh).mpr hrolls
  have hfailure : failureOf ((replaceRuntime testHost truncating firstReplacement).run
      (bareMachine (some userFile))) = some (.raised .io) := by decide +kernel
  have hactive : (after (replaceRuntime testHost truncating firstReplacement)
      (bareMachine (some userFile))).active = none := by decide +kernel
  have hconfig : (after (replaceRuntime testHost truncating firstReplacement)
      (bareMachine (some userFile))).config = some ⟨.utf8, []⟩ := by decide +kernel
  obtain ⟨t, ht⟩ := error_of_failureOf hfailure
  unfold after at hactive hconfig
  rw [ht] at hactive hconfig
  rcases hall _ t ht with hcommitted | hrolled
  · obtain ⟨a, ha, -⟩ := hcommitted.active
    exact absurd (hactive.symm.trans ha) (by simp)
  · exact absurd (hconfig.symm.trans hrolled.files.config) (by decide)

end SwitchTrade.Installer

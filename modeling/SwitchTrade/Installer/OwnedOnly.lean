import SwitchTrade.Installer.Destruction
import SwitchTrade.Transition.Run

/-!
# The operations destroy only what is owned and inactive

The names in the state files are those of runtimes of this product, and the ones that are to be
removed are not active (`Named`): every operation keeps this wherever it ends. So whatever is
registered, whatever the views omit and wherever operations raise or are cut off, each act of an
operation on a runtime or a directory is justified (`destroys_only_owned`).
-/

namespace SwitchTrade.Installer

open InPlace Transition

variable {host : Host} {o : Oracle}

/-! ## The state files -/

structure Named (host : Host) (active : Option ActiveRuntime) (journal : Option OperationJournal) :
    Prop where
  current : ∀ a, active = some a → runtimePrefix <+: a.activeName
  previous : ∀ a p, active = some a → a.previousName = some p →
    runtimePrefix <+: p ∧ ¬ host.casing.Same p a.activeName
  candidate : ∀ j, journal = some j → ∃ name, j.candidateName = some name ∧
    j.candidateLocation = some (runtimeLocation host name) ∧ runtimePrefix <+: name ∧
    ∀ a, active = some a → a.activeName ≠ name → ¬ host.casing.Same name a.activeName

namespace Named

variable {active active' : Option ActiveRuntime} {journal journal' : Option OperationJournal}

theorem none : Named host none none :=
  ⟨by simp, by simp, by simp⟩

/-- State files that are gone name nothing. -/
theorem shrink (h : Named host active journal) (hactive : active' = active ∨ active' = Option.none)
    (hjournal : journal' = journal ∨ journal' = Option.none) : Named host active' journal' := by
  have hof : ∀ a, active' = some a → active = some a := by
    intro a ha
    rcases hactive with rfl | rfl
    · exact ha
    · cases ha
  refine ⟨fun a ha => h.current a (hof a ha), fun a p ha => h.previous a p (hof a ha),
    fun j hj => ?_⟩
  rcases hjournal with rfl | rfl
  · obtain ⟨name, hname, hlocation, hstart, hother⟩ := h.candidate j hj
    exact ⟨name, hname, hlocation, hstart, fun a ha => hother a (hof a ha)⟩
  · cases hj

/-- The active runtime without the one before it. -/
theorem clearPrevious {a : ActiveRuntime} (h : Named host (some a) journal) :
    Named host (some { a with previousName := Option.none }) journal := by
  refine ⟨fun b hb => ?_, fun b p hb hp => ?_, fun j hj => ?_⟩
  · cases hb
    exact h.current a rfl
  · cases hb
    cases hp
  · obtain ⟨name, hname, hlocation, hstart, hother⟩ := h.candidate j hj
    refine ⟨name, hname, hlocation, hstart, fun b hb => ?_⟩
    cases hb
    exact hother a rfl

end Named

/-- The watched machine, with whatever its state files name. -/
def Course (host : Host) (o : Oracle) (w : Watch) (m : Machine) : Prop :=
  ∃ active journal, Named host active journal ∧
    Watched host o { w with active := active, journal := journal } m

theorem Course.named {w : Watch} {m : Machine} (h : Course host o w m) :
    Named host m.active m.journal := by
  obtain ⟨active, journal, hnamed, hw⟩ := h
  rw [hw.active, hw.journal]
  exact hnamed

/-- The watch from the machine on. -/
theorem Course.watched {w : Watch} {m : Machine} (h : Course host o w m) :
    Watched host o { w with active := m.active, journal := m.journal } m := by
  obtain ⟨active, journal, -, hw⟩ := h
  exact ⟨rfl, rfl, hw.transaction, hw.log⟩

theorem Watched.course {w : Watch} {active : Option ActiveRuntime}
    {journal : Option OperationJournal} {m : Machine}
    (h : Watched host o { w with active := active, journal := journal } m)
    (hnamed : Named host active journal) : Course host o w m := ⟨active, journal, hnamed, h⟩

/-- What keeps every watch keeps the course. -/
theorem Course.keeps {α : Type} {w : Watch} {c : Call α}
    (h : ∀ active journal, Named host active journal →
      Keeps (Watched host o { w with active := active, journal := journal }) c) :
    Keeps (Course host o w) c := by
  rintro m ⟨active, journal, hnamed, hw⟩
  exact (h active journal hnamed m hw).mono (fun _ _ ht => ht.course hnamed)
    fun _ _ ht => ht.course hnamed

/-! ## The kernel setting -/

theorem Watched.ensureDirectory {w : Watch} {m : Machine} (h : Watched host o w m) (path : Path) :
    Watched host o w (ensureDirectory path m) := by
  unfold Installer.ensureDirectory
  split
  · exact h
  · exact h.congr rfl rfl (.inl rfl) rfl

/-- `Apply` neither destroys a runtime nor writes a state file. -/
theorem apply_watched (w : Watch) (package : Package) :
    Keeps (Watched host o w) (apply host o package) := by
  refine .bind (.check _) fun image => ?_
  refine .bind (look_keeps o) fun _ => ?_
  refine .bind (.raiseIf _ _) fun _ => ?_
  refine .bind ?_ fun _ => ?_
  · refine .bind .get fun m => .ite (fun _ => .pure _) fun _ => ?_
    refine attempt_keeps o (fun t ht => ht.congr rfl rfl (.inl rfl) rfl) fun t ht => ?_
    split
    · exact ht.congr rfl rfl (.inl rfl) rfl
    · exact ht
  refine .bind (look_keeps o) fun _ => ?_
  refine .bind (.raiseIf _ _) fun _ => ?_
  refine .bind (readKernelState_keeps o) fun existing => ?_
  refine .bind ?_ fun original => ?_
  · cases existing with
    | none =>
      refine .bind (.bind (look_keeps o) fun original => ?_) fun _ => .pure _
      exact .bind (putBytes_keeps o fun _ t ht => ht.congr rfl rfl (.inl rfl) rfl) fun _ => .pure _
    | some state => exact .bind .get fun _ => .bind (.raiseIf _ _) fun _ => .pure _
  refine .bind (look_keeps o) fun _ => ?_
  refine .bind (write_keeps o fun t ht => ht.congr rfl rfl (.inl rfl) rfl) fun _ => ?_
  exact write_keeps o fun t ht => ht.congr rfl rfl (.inl rfl) rfl

/-- Nor does `Restore`. -/
theorem restore_watched (w : Watch) : Keeps (Watched host o w) (restore host o) := by
  refine .bind (readKernelState_keeps o) fun state => ?_
  cases state with
  | none => exact .pure _
  | some state =>
    refine .bind .get fun _ => .bind (.raiseIf _ _) fun _ => ?_
    refine .bind (look_keeps o) fun _ => .ite (fun _ => ?_) fun _ => .ite (fun _ => ?_) fun _ => ?_
    · exact .bind (write_keeps o fun _ ht => ht) fun _ => .throw _
    · exact write_keeps o fun t ht => ht.congr rfl rfl (.inl rfl) rfl
    · exact write_keeps o fun t ht => ht.congr rfl rfl (.inl rfl) rfl

/-! ## Committed cleanup and recovery -/

theorem Named.watch {w : Watch} {active : Option ActiveRuntime} {journal : Option OperationJournal}
    (h : Named host active journal) :
    Watch.Named { w with active := active, journal := journal } := h.current

theorem removePrevious_watched {w : Watch} {active : ActiveRuntime}
    {journal : Option OperationJournal} (hnamed : Named host (some active) journal) (phase : Phase)
    (recovering : Bool) :
    Keeps (Watched host o { w with active := some active, journal := journal })
      (removePrevious host o phase recovering active) := by
  unfold removePrevious
  cases hp : active.previousName with
  | some name =>
    have hremovable :
        Removable host { w with active := some active, journal := journal } name := by
      refine ⟨(hnamed.previous active name rfl hp).1, fun _ a ha => ?_⟩
      cases ha
      exact (hnamed.previous active name rfl hp).2
    exact hremovable.removeOwnedRuntime _ none none rfl
  | none => exact removeLegacyIfAny_watched hnamed.watch phase

theorem finishCommittedCleanup_course {w : Watch} {active : ActiveRuntime}
    {journal : Option OperationJournal} {m : Machine} (hnamed : Named host (some active) journal)
    (hm : Watched host o { w with active := some active, journal := journal } m)
    (phase : Phase) (recovering : Bool) :
    Ends (finishCommittedCleanup host o phase recovering active)
      (fun _ t => Course host o w t) (fun _ t => Course host o w t) m := by
  have herror : ∀ {α : Type} {c : Call α} {t : Machine},
      Ends c (fun _ u => Watched host o { w with active := some active, journal := journal } u)
        (fun _ u => Watched host o { w with active := some active, journal := journal } u) t →
      Ends c (fun _ u => Watched host o { w with active := some active, journal := journal } u)
        (fun _ u => Course host o w u) t :=
    fun h => h.mono (fun _ _ hu => hu) fun _ _ hu => hu.course hnamed
  refine (herror (removePrevious_watched hnamed phase recovering m hm)).seq fun _ t ht => ?_
  refine (herror (removeOrphanedOwnedRuntimes_watched phase _ (fun _ a ha => ?_) t ht)).seq
    fun _ u hu => ?_
  · cases ha
    rfl
  refine (herror (removeLegacyArtifacts_watched phase u hu)).seq fun _ v hv => ?_
  have hcleared : Watched host o
      { w with active := some { active with previousName := none }, journal := journal }
      { v with active := some { active with previousName := none } } :=
    ⟨rfl, hv.journal, hv.transaction, hv.log⟩
  refine Ends.bind (write_ends o (fun _ => ?_) (fun _ _ _ => hv.course hnamed) fun _ =>
    hcleared.course hnamed.clearPrevious)
  have hdeleted : Course host o w
      (deleteJournal { v with active := some { active with previousName := none } }) :=
    @Watched.course host o w (some { active with previousName := none }) none _
      ⟨rfl, rfl, hv.transaction, hv.log⟩ (hnamed.clearPrevious.shrink (.inl rfl) (.inr rfl))
  exact write_ends o (fun _ => hdeleted) (fun _ _ _ => hcleared.course hnamed.clearPrevious)
    fun _ => hdeleted

theorem Watched.deleteJournal {w : Watch} {active : Option ActiveRuntime}
    {journal : Option OperationJournal} {m : Machine} (hnamed : Named host active journal)
    (hm : Watched host o { w with active := active, journal := journal } m) (site : Site) :
    Ends (write o site Installer.deleteJournal) (fun _ t => Course host o w t)
      (fun _ t => Course host o w t) m := by
  have hdeleted : Course host o w (Installer.deleteJournal m) :=
    ⟨active, none, hnamed.shrink (.inl rfl) (.inr rfl), hm.active, rfl, hm.transaction, hm.log⟩
  exact write_ends o (fun _ => hdeleted) (fun _ _ _ => hm.course hnamed) fun _ => hdeleted

theorem removeCandidateBestEffort_watched {w : Watch} {j : OperationJournal} {name : Text}
    (hname : j.candidateName = some name)
    (hlocation : j.candidateLocation = some (runtimeLocation host name))
    (h : Removable host w name) (caller : Caller) (manifest : ReleaseManifest) :
    Keeps (Watched host o w) (removeCandidateBestEffort host o caller j manifest) := by
  unfold removeCandidateBestEffort
  rw [hname, hlocation]
  exact .bind (.check _) fun _ => h.removeOwnedRuntime caller _ _ rfl

theorem recoverJournal_course {w : Watch} (manifest : ReleaseManifest) {j : OperationJournal}
    {m : Machine} (hm : Course host o w m) (hj : m.journal = some j) :
    Ends (recoverJournal host o manifest j) (fun _ t => Course host o w t)
      (fun _ t => Course host o w t) m := by
  have hnamed := hm.named
  have hw := hm.watched
  unfold recoverJournal
  refine Ends.bind (look_ends o (fun _ => ?_) fun _ _ => hm)
  cases hfilter : m.active.filter fun a => some a.activeName = j.candidateName with
  | some a =>
    obtain ⟨ha, -⟩ := Option.filter_eq_some_iff.mp hfilter
    rw [ha] at hnamed hw
    exact finishCommittedCleanup_course hnamed hw .recover true
  | none =>
    obtain ⟨name, hname, hlocation, hstart, hother⟩ := hnamed.candidate j hj
    have hremovable :
        Removable host { w with active := m.active, journal := m.journal } name := by
      refine ⟨hstart, fun _ a ha => hother a ha fun hsame => ?_⟩
      have ha' : m.active = some a := ha
      rw [ha', Option.filter_some] at hfilter
      simp [hsame, hname] at hfilter
    refine Ends.bind (Ends.raiseIf (fun _ => ?_) fun _ => hm)
    refine ((removeCandidateBestEffort_watched hname hlocation hremovable _ manifest m hw).mono
      (fun _ _ ht => ht) fun _ _ ht => ht.course hnamed).seq fun _ t ht => ?_
    exact ht.deleteJournal hnamed _

theorem recoverInterrupted_course (w : Watch) (manifest : ReleaseManifest) :
    Keeps (Course host o w) (recoverInterrupted host o manifest) := by
  intro m hm
  unfold recoverInterrupted
  refine Ends.bind (look_ends o (fun _ => ?_) fun _ _ => hm)
  cases hj : m.journal with
  | none => exact Ends.pure hm
  | some j => exact recoverJournal_course manifest hm hj

theorem removeCandidateBestEffort_keeps {P : Machine → Prop} (hP : Removing host.casing AnyName P)
    (caller : Caller) (j : OperationJournal) (manifest : ReleaseManifest) :
    Keeps P (removeCandidateBestEffort host o caller j manifest) := by
  unfold removeCandidateBestEffort
  split
  · exact .bind (.check _) fun _ => hP.removeOwnedRuntime _ trivial _ _ _
  · exact .pure _

/-- A name that is new to the machine is new after a recovery. -/
theorem recoverInterrupted_unused (manifest : ReleaseManifest) (name : Text) :
    Keeps (Unused host name) (recoverInterrupted host o manifest) := by
  have hsteady : Steady host.casing AnyName (Unused host name) :=
    { unregistered := fun m other _ h =>
        ⟨fun r hr => h.registrations r (mem_without.mp hr).1, h.active⟩
      directories := fun m d h => ⟨h.registrations, h.active⟩
      log := fun m l h => ⟨h.registrations, h.active⟩
      transaction := fun m h => ⟨h.registrations, h.active⟩
      setupResume := fun m h => ⟨h.registrations, h.active⟩
      legacyBackup := fun m h => ⟨h.registrations, h.active⟩ }
  have hjournal :
      ∀ phase, Keeps (Unused host name) (write o (.deleteJournal phase) deleteJournal) :=
    fun phase => write_keeps o fun m h => ⟨h.registrations, h.active⟩
  intro m hm
  unfold recoverInterrupted
  refine Ends.bind (look_ends o (fun _ => ?_) fun _ _ => hm)
  cases m.journal with
  | none => exact Ends.pure hm
  | some j =>
    unfold recoverJournal
    refine Ends.bind (look_ends o (fun _ => ?_) fun _ _ => hm)
    cases hfilter : m.active.filter fun a => some a.activeName = j.candidateName with
    | some a =>
      obtain ⟨ha, -⟩ := Option.filter_eq_some_iff.mp hfilter
      have hcleared : ∀ t, Unused host name t →
          Unused host name { t with active := some { a with previousName := none } } := by
        intro t ht
        refine ⟨ht.registrations, fun a' ha' => ?_⟩
        cases ha'
        exact hm.active a ha
      refine Keeps.bind ?_ (fun _ => ?_) m hm
      · unfold removePrevious
        cases a.previousName with
        | some p => exact hsteady.removeOwnedRuntime _ trivial _ _ _
        | none =>
          refine .bind (legacyExists_keeps _) fun _ => .ite (fun _ => ?_) fun _ => .pure _
          exact hsteady.removeLegacy _ trivial
      refine .bind (hsteady.removeOrphanedOwnedRuntimes _ _ _ fun _ _ _ => trivial) fun _ => ?_
      refine .bind (hsteady.removeLegacyArtifacts _) fun _ => ?_
      exact .bind (write_keeps o hcleared) fun _ => hjournal _
    | none =>
      refine Keeps.bind (.raiseIf _ _) (fun _ => ?_) m hm
      refine .bind (removeCandidateBestEffort_keeps hsteady.toRemoving _ _ _) fun _ => ?_
      exact hjournal _

/-! ## Replacement -/

/-- The watch while the candidate is prepared: the journal names it, the pointer does not. -/
def Watch.preparing (w : Watch) (host : Host) (r : Replacement) : Watch :=
  { w with journal := some (r.journal host) }

/-- The watch once the pointer names the candidate. -/
def Watch.replaced (w : Watch) (host : Host) (r : Replacement) : Watch :=
  { w with active := some (r.active host), journal := some (r.journal host) }

/-- The candidate has another name than the active runtime, which it replaces if any. -/
structure Replaces (host : Host) (r : Replacement) (w : Watch) : Prop where
  named : Named host w.active w.journal
  other : ∀ a, w.active = some a → ¬ host.casing.Same a.activeName (r.name host)
  previous : r.previous = none ∨ r.previous = w.active

namespace Replaces

variable {w : Watch} {r : Replacement} {m : Machine}

theorem prefix_name (r : Replacement) : runtimePrefix <+: r.name host := prefix_runtimeName _ _ _

theorem preparing (h : Replaces host r w) :
    Named host w.active (some (r.journal host)) where
  current := h.named.current
  previous := h.named.previous
  candidate j hj := by
    cases hj
    exact ⟨r.name host, rfl, rfl, prefix_name r, fun a ha _ hs => h.other a ha hs.symm⟩

theorem replaced (h : Replaces host r w) (committed : Bool) :
    Named host (some (r.active host)) (some { r.journal host with committed := committed }) where
  current a ha := by
    cases ha
    exact prefix_name r
  previous a p ha hp := by
    cases ha
    obtain ⟨before, hbefore, rfl⟩ := Option.map_eq_some_iff.mp hp
    have hactive : w.active = some before := by
      rcases h.previous with hnone | hsame
      · rw [hnone] at hbefore
        cases hbefore
      · exact hsame.symm.trans hbefore
    exact ⟨h.named.current before hactive, h.other before hactive⟩
  candidate j hj := by
    cases hj
    refine ⟨r.name host, rfl, rfl, prefix_name r, fun a ha hne => ?_⟩
    cases ha
    exact absurd rfl hne

/-- The candidate may be removed while the pointer does not name it. -/
theorem removable (h : Replaces host r w) : Removable host (w.preparing host r) (r.name host) where
  named := prefix_name r
  inactive _ a ha hs := h.other a ha hs.symm

theorem beginReplacement (h : Replaces host r w) (hm : Watched host o w m) :
    Ends (beginReplacement host o r) (fun _ t => Watched host o (w.preparing host r) t)
      (fun _ t => Course host o w t) m := by
  have hcourse : ∀ {t}, Watched host o w t → Course host o w t := fun ht => ht.course h.named
  have hlock : Keeps (Watched host o w) (acquireLock host o) :=
    write_keeps o fun t ht => ht.ensureDirectory _
  refine ((hlock m hm).mono (fun _ _ ht => ht) fun _ _ ht => hcourse ht).seq fun _ t ht => ?_
  have hpreflight : Keeps (Watched host o w) (preflight host o r.package) :=
    preflight_keeps (fun u path hu => hu.ensureDirectory path) r.package
  refine ((hpreflight t ht).mono (fun _ _ hu => hu) fun _ _ hu => hcourse hu).seq fun _ u hu => ?_
  have hwritten : Watched host o (w.preparing host r) { u with journal := some (r.journal host) } :=
    ⟨hu.active, rfl, hu.transaction, hu.log⟩
  refine Ends.bind (write_ends o (fun _ => ?_) (fun _ _ _ => hcourse hu) fun _ =>
    Watched.course hwritten h.preparing)
  exact look_ends o (fun _ => hwritten) fun _ _ => Watched.course hwritten h.preparing

/-- The health check terminates a candidate that has been verified. -/
theorem installCandidate (h : Replaces host r w) :
    Keeps (Watched host o (w.preparing host r)) (installCandidate host o r) := by
  refine .bind (apply_watched _ _) fun _ => ?_
  refine .bind (Watched.shutdown _) fun _ => ?_
  refine .bind ?_ fun _ => ?_
  · have hregister : ∀ left t, Watched host o (w.preparing host r) t →
        Watched host o (w.preparing host r) (registerRuntime (r.registration host) left t) :=
      fun left t ht => (ht.ensureDirectory _).congr rfl rfl (.inl rfl) rfl
    refine attempt_keeps o (fun t ht => hregister _ t ht) fun t ht => ?_
    split
    · exact hregister _ t ht
    · exact ht
  intro t ht
  refine (verifyOwned_ends fun _ => ht).seq fun _ u hu => ?_
  obtain ⟨rfl, hstart, hverified⟩ := hu
  refine Ends.bind (Ends.bind (look_ends o (fun _ => ?_) fun _ _ => ht))
  refine Ends.raiseIf (fun _ => ?_) fun _ => ht
  have howned : OwnedRuntime host u.registrations (r.name host) := ⟨hstart, hverified.any⟩
  exact (ht.destroy (h.removable.terminated ht howned) fun hv => hv).mono (fun _ _ hv => hv.2)
    fun _ _ hv => hv

theorem prepareCandidate (h : Replaces host r w) (hm : Watched host o (w.preparing host r) m) :
    Ends (prepareCandidate host o r) (fun _ t => Watched host o (w.replaced host r) t)
      (fun e t => (∀ x, e = .raised x → Watched host o (w.preparing host r) t) ∧
        Course host o w t) m := by
  have hcourse : ∀ {t}, Watched host o (w.preparing host r) t → Course host o w t :=
    fun ht => Watched.course ht h.preparing
  refine ((h.installCandidate m hm).mono (fun _ _ ht => ht)
    fun _ _ ht => ⟨fun _ _ => ht, hcourse ht⟩).seq fun _ t ht => ?_
  have hwritten : Watched host o (w.replaced host r) { t with active := some (r.active host) } :=
    ⟨rfl, ht.journal, ht.transaction, ht.log⟩
  refine write_ends o (fun _ => hwritten) (fun _ _ _ => ⟨fun _ _ => ht, hcourse ht⟩) fun _ => ?_
  exact ⟨by simp, Watched.course hwritten (h.replaced false)⟩

theorem rollback (h : Replaces host r w) (hm : Watched host o (w.preparing host r) m)
    (config : Option Content) (kernelFile : Option (Option KernelState)) :
    Ends (rollback host o r config kernelFile) (fun _ t => Course host o w t)
      (fun _ t => Course host o w t) m := by
  have hcourse : ∀ {α : Type} {c : Call α} {t : Machine},
      Keeps (Watched host o (w.preparing host r)) c → Watched host o (w.preparing host r) t →
      Ends c (fun _ u => Watched host o (w.preparing host r) u) (fun _ u => Course host o w u) t :=
    fun hc ht => (hc _ ht).mono (fun _ _ hu => hu) fun _ _ hu => Watched.course hu h.preparing
  refine (hcourse (removeCandidateBestEffort_watched rfl rfl h.removable _ _) hm).seq fun _ t ht =>
    ?_
  refine (hcourse (putBytes_keeps o ?_) ht).seq fun _ u hu => ?_
  · exact fun _ u hu => hu.congr rfl rfl (.inl rfl) rfl
  refine (hcourse (putBytes_keeps o ?_) hu).seq fun _ v hv => ?_
  · exact fun _ v hv => hv.congr rfl rfl (.inl rfl) rfl
  refine (hcourse (ignoring_keeps (Watched.shutdown _)) hv).seq fun _ z hz => ?_
  exact Watched.deleteJournal h.preparing hz _

theorem commitReplacement (h : Replaces host r w) (hm : Watched host o (w.replaced host r) m) :
    Ends (commitReplacement host o r) (fun _ t => Course host o w t)
      (fun _ t => Course host o w t) m := by
  have hcommitted : Watched host o { w with
      active := some (r.active host)
      journal := some { r.journal host with committed := true } }
      { m with journal := some { r.journal host with committed := true } } :=
    ⟨hm.active, rfl, hm.transaction, hm.log⟩
  refine Ends.bind (write_ends o (fun _ => ?_) (fun _ _ _ => hm.course (h.replaced false)) fun _ =>
    hcommitted.course (h.replaced true))
  exact deferring_ends (finishCommittedCleanup_course (h.replaced true) hcommitted .replace false)

/-- A replacement destroys only what it has verified, and never what is active. -/
theorem replaceRuntime (h : Replaces host r w) (hm : Watched host o w m) :
    Ends (replaceRuntime host o r) (fun _ t => Course host o w t)
      (fun _ t => Course host o w t) m := by
  refine (h.beginReplacement hm).seq fun old t ht => ?_
  refine Ends.bind (Ends.rollingBack ((h.prepareCandidate ht).mono (fun _ u hu => ?_)
    fun e u hu => ⟨fun x hx => ?_, fun _ => hu.2⟩))
  · exact h.commitReplacement hu
  · exact h.rollback (hu.1 x hx) _ _

end Replaces

/-! ## The operations -/

/-- An operation of the provisioner, with what it is to install. -/
inductive Operation where
  | install (package : Package) (operation : Generation)
  | repair (package : Package) (operation : Generation)
  | uninstall

namespace Operation

def call (host : Host) (o : Oracle) : Operation → Call PUnit
  | .install package operation => Installer.install host o package operation
  | .repair package operation => Installer.repair host o package operation
  | .uninstall => Installer.uninstall host o

/-- The name of the candidate of an operation that installs one is new to the machine. -/
def Fresh (host : Host) (m : Machine) : Operation → Prop
  | .install package operation | .repair package operation =>
    Unused host (runtimeName host.casing package.manifest.releaseId operation) m
  | .uninstall => True

end Operation

variable {w : Watch} {m : Machine}

theorem inspectState_keeps : Keeps (Watched host o w) (inspectState host o) := by
  have hnames : ∀ site, Keeps (Watched host o w) (listNames host o site) := fun _ => look_keeps o
  have hview : ∀ names name attempt,
      Keeps (Watched host o w) (inEitherView host o names name attempt) := fun _ _ _ =>
    .ite (fun _ => .pure _) fun _ => .bind (look_keeps o) fun _ => .pure _
  refine .bind (write_keeps o fun t ht => ht.ensureDirectory _) fun _ => ?_
  refine .bind (look_keeps o) fun journal => .bind (look_keeps o) fun active => ?_
  refine .bind ?_ fun names => ?_
  · unfold namesIfAny
    cases (o (.inspectNames 0)).fails with
    | none => exact .bind (hnames _) fun _ => .pure _
    | some failure => exact .ite (fun _ => .pure _) fun _ => .throw _
  · cases names with
    | none => exact .pure _
    | some names =>
      refine .ite (fun _ => .pure _) fun _ => ?_
      cases active with
      | none => exact .bind .get fun _ => .pure _
      | some active =>
        refine .bind (.bind (hview _ _ _) fun first => .ite (fun _ => .pure _) fun _ => ?_) fun _ =>
          .bind .get fun _ => .ite (fun _ => .pure _) fun _ => .bind (.raiseIf _ _) fun _ => .pure _
        exact .bind (look_keeps o) fun _ => .bind (hnames _) fun _ => hview _ _ _

theorem install_course {package : Package} {operation : Generation} (hm : Course host o w m)
    (hfresh : (Operation.install package operation).Fresh host m) :
    Ends (install host o package operation) (fun _ t => Course host o w t)
      (fun _ t => Course host o w t) m := by
  have hreplaces : Replaces host ⟨"install", package, none, operation⟩
      { w with active := m.active, journal := m.journal } :=
    ⟨hm.named, hfresh.active, .inl rfl⟩
  refine ((inspectState_keeps m hm.watched).mono (fun _ _ ht => ht)
    fun _ _ ht => ht.course hm.named).seq fun _ t ht => ?_
  refine Ends.bind (Ends.raiseIf (fun _ => ?_) fun _ => ht.course hm.named)
  exact hreplaces.replaceRuntime ht

theorem repair_course {package : Package} {operation : Generation} (hm : Course host o w m)
    (hfresh : (Operation.repair package operation).Fresh host m) :
    Ends (repair host o package operation) (fun _ t => Course host o w t)
      (fun _ t => Course host o w t) m := by
  have hrecovered := (recoverInterrupted_course w package.manifest m hm).and
    (recoverInterrupted_unused (o := o) package.manifest _ m hfresh)
  refine (hrecovered.mono (fun _ _ ht => ht) fun _ _ ht => ht.1).seq fun _ t ht => ?_
  obtain ⟨ht, hunused⟩ := ht
  refine Ends.bind (look_ends o (fun _ => ?_) fun _ _ => ht)
  have hreplaces : Replaces host ⟨"repair", package, t.active, operation⟩
      { w with active := t.active, journal := t.journal } :=
    ⟨ht.named, hunused.active, .inr rfl⟩
  have hverify : Keeps (Watched host o { w with active := t.active, journal := t.journal })
      (verifyLegacyIfAny host o t.active) := by
    unfold verifyLegacyIfAny
    cases t.active with
    | some _ => exact .pure _
    | none =>
      refine .bind (legacyExists_keeps _) fun _ => .ite (fun _ u hu => ?_) fun _ => .pure _
      exact (verifyLegacyOwned_ends fun _ => hu).mono (fun _ v hv => hv.1 ▸ hu) fun _ _ hv => hv
  refine ((hverify t ht.watched).mono (fun _ _ hu => hu)
    fun _ _ hu => hu.course ht.named).seq fun _ u hu => ?_
  exact hreplaces.replaceRuntime hu

/-! ## Uninstallation -/

theorem uninstallTargets_prefix {active : Option ActiveRuntime} {journal : Option OperationJournal}
    (h : Named host active journal) {n : Text}
    (hn : n ∈ uninstallTargets host.casing active journal) : runtimePrefix <+: n := by
  have hmem := mem_of_mem_distinctNames hn
  simp only [List.mem_append, Option.mem_toList, Option.map_eq_some_iff,
    Option.bind_eq_some_iff] at hmem
  rcases hmem with (⟨a, ha, rfl⟩ | ⟨a, ha, hp⟩) | ⟨j, hj, hname⟩
  · exact h.current a ha
  · exact (h.previous a n ha hp).1
  · obtain ⟨name, hcandidate, -, hstart, -⟩ := h.candidate j hj
    rw [hcandidate] at hname
    cases hname
    exact hstart

theorem uninstallRuntimes_course (hw : w.uninstalling) :
    Keeps (Course host o w) (uninstallRuntimes host o) := by
  refine Course.keeps fun active journal hnamed => ?_
  refine .bind (write_keeps o fun t ht => ht.ensureDirectory _) fun _ => ?_
  intro t ht
  refine Ends.bind (look_ends o (fun _ => ?_) fun _ _ => ht)
  refine Ends.bind (look_ends o (fun _ => ?_) fun _ _ => ht)
  have htargets : ∀ n ∈ uninstallTargets host.casing t.active t.journal,
      Removable host { w with active := active, journal := journal } n := by
    intro n hn
    rw [ht.active, ht.journal] at hn
    exact ⟨ uninstallTargets_prefix hnamed hn, fun huninstalling => absurd hw huninstalling⟩
  refine Keeps.bind (removeEach_watched _ _ htargets) (fun _ => ?_) t ht
  refine .bind ?_ fun _ => removeLegacyIfAny_watched hnamed.watch _
  exact removeOrphanedOwnedRuntimes_watched _ _ fun huninstalling => absurd hw huninstalling

theorem Course.removeTree (hw : w.uninstalling) {site : Site} {path : Path} {parent : Option Path}
    {effect : Machine → Machine} (hpath : path ∈ installationTrees host)
    (heffect : ∀ active journal, Named host active journal →
      ∀ t, Watched host o { w with active := active, journal := journal } t →
        Course host o w (effect t)) :
    Keeps (Course host o w) (removeOwnedTree host o site path parent effect id) := by
  intro m hm
  have hnamed := hm.named
  refine Ends.bind (Ends.get (Ends.ite (fun _ => ?_) fun _ => Ends.pure hm))
  refine Ends.bind (Ends.raiseIf (fun _ => ?_) fun _ => hm)
  refine Ends.bind (Ends.modify ?_)
  have hr := hm.watched.record (d := .deleted path)
    ⟨Or.inr ⟨hw, hpath⟩, fun huninstalling => absurd hw huninstalling⟩
  have hwithout : Watched host o { w with active := m.active, journal := m.journal }
      (withoutTree host.casing path (record (.deleted path) m)) :=
    hr.congr rfl rfl (.inl rfl) rfl
  have hdeleted := heffect _ _ hnamed _ hwithout
  refine attempt_ends o (fun _ => hdeleted) fun _ _ => ?_
  split
  · exact hdeleted
  · exact hr.course hnamed

theorem withoutStateFile_course (h : Course host o w m) (file : StateFile) :
    Course host o w (withoutStateFile m file) := by
  have hnamed := h.named
  have hw := h.watched
  cases file with
  | active =>
    exact ⟨none, m.journal, hnamed.shrink (.inr rfl) (.inl rfl), rfl, rfl, hw.transaction, hw.log⟩
  | backups => exact ⟨m.active, m.journal, hnamed, rfl, rfl, hw.transaction, hw.log⟩
  | kernelState => exact ⟨m.active, m.journal, hnamed, rfl, rfl, hw.transaction, hw.log⟩
  | journal =>
    exact ⟨m.active, none, hnamed.shrink (.inl rfl) (.inr rfl), rfl, rfl, hw.transaction, hw.log⟩

theorem foldl_withoutStateFile_course (gone : List StateFile) (h : Course host o w m) :
    Course host o w (gone.foldl withoutStateFile m) := by
  induction gone generalizing m with
  | nil => exact h
  | cons file rest ih => exact ih (withoutStateFile_course h file)

theorem removeStateRoot_course (hw : w.uninstalling) :
    Keeps (Course host o w) (removeStateRoot host o) := by
  intro m hm
  have hr := hm.watched.record (d := .deleted host.paths.stateRoot)
    ⟨Or.inr ⟨hw, by simp [installationTrees]⟩, fun huninstalling => absurd hw huninstalling⟩
  have hcourse := hr.course hm.named
  have hdeleted : Course host o w (withoutStateFiles
      (withoutTree host.casing host.paths.stateRoot (record (.deleted host.paths.stateRoot) m))) :=
    ⟨none, none, .none, rfl, rfl, hr.transaction, hr.log⟩
  refine Ends.bind (Ends.modify (attempt_ends o (fun _ => hdeleted) fun _ _ => ?_))
  split
  · exact hdeleted
  · exact foldl_withoutStateFile_course _ hcourse

theorem uninstall_course (hw : w.uninstalling) :
    Keeps (Course host o w) (uninstall host o) := by
  have hid : ∀ active journal, Named host active journal →
      ∀ t, Watched host o { w with active := active, journal := journal } t →
        Course host o w (id t) := fun _ _ hnamed t ht => ht.course hnamed
  refine .bind (uninstallRuntimes_course hw) fun _ => ?_
  refine .bind (Course.keeps fun _ _ _ => restore_watched _) fun _ => ?_
  refine .bind ?_ fun _ => ?_
  · refine .bind (Course.keeps fun _ _ _ => Watched.shutdown _) fun _ => ?_
    refine .bind (Course.removeTree hw (by simp [installationTrees]) hid) fun _ => ?_
    refine .bind (Course.removeTree hw (by simp [installationTrees]) ?_) fun _ => ?_
    · exact fun _ _ hnamed t ht =>
        (ht.congr (t := withoutKernels t) rfl rfl (.inl rfl) rfl).course hnamed
    · exact Course.removeTree hw (by simp [installationTrees]) hid
  refine .bind (removeStateRoot_course hw) fun _ => ?_
  refine .bind (Course.keeps fun _ _ _ => removeLegacyArtifacts_watched _) fun _ => ?_
  refine Course.removeTree hw (by simp [installationTrees]) fun _ _ _ t ht => ?_
  exact ⟨none, none, .none, rfl, rfl, .inr rfl, ht.log⟩

/-! ## Every sequence of operations -/

/-- An operation, however it ends, or a change that others make: to what is registered, to
directories and to files, but not to the provisioner's own pointer, journal and log. -/
inductive Event where
  | performed (operation : Operation) (o : Oracle)
  | meanwhile (t : Machine)

def Event.Fresh (host : Host) (m : Machine) : Event → Prop
  | .performed operation _ => operation.Fresh host m
  | .meanwhile _ => True

/-- The watch of an operation. -/
def Operation.watch (operation : Operation) (m : Machine) : Watch :=
  ⟨m.transaction, operation = .uninstall, m.log, m.active, m.journal⟩

theorem Operation.course {operation : Operation} (hnamed : Named host m.active m.journal)
    (hfresh : operation.Fresh host m) :
    Course host o (operation.watch m) (after (operation.call host o) m) := by
  have hm : Course host o (operation.watch m) m :=
    ⟨m.active, m.journal, hnamed, rfl, rfl, .inl rfl, [], (List.append_nil _).symm, by simp⟩
  have hends : Ends (operation.call host o) (fun _ t => Course host o (operation.watch m) t)
      (fun _ t => Course host o (operation.watch m) t) m := by
    cases operation with
    | install package generation => exact install_course hm hfresh
    | repair package generation => exact repair_course hm hfresh
    | uninstall => exact uninstall_course rfl m hm
  unfold after
  cases hr : (operation.call host o).run m with
  | ok a t => exact hends.of_ok hr
  | error e t => exact hends.of_error hr

end SwitchTrade.Installer

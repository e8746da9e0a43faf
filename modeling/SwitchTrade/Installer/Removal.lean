import SwitchTrade.Installer.ProvisioningEngine

/-!
# What a removal leaves alone

The removal of runtimes and of legacy files changes directories, the legacy files and the
registrations of the names it is given. What does not depend on those (`Steady`), such as the
files of the provisioner's own state and `.wslconfig` (`Machine.files`) or the registration of
another name, stays as it is.
-/

namespace SwitchTrade.Installer

open InPlace

/-- `.wslconfig` and the files of the state directory and the kernel directory. -/
structure Files where
  config : Option Content
  backup : Option Content
  kernelFile : Option (Option KernelState)
  kernels : Text → Option Text
  active : Option ActiveRuntime
  journal : Option OperationJournal

def Machine.files (m : Machine) : Files :=
  ⟨m.config, m.backup, m.kernelFile, m.kernels, m.active, m.journal⟩

variable {host : Host} {o : Oracle}

/-- What the removal of runtimes does not change if it unregisters only names that are `free`. -/
structure Removing (casing : Casing) (free : Text → Prop) (P : Machine → Prop) : Prop where
  unregistered : ∀ m name, free name → P m → P (withoutRegistration casing name m)
  directories : ∀ m d, P m → P { m with directories := d }
  log : ∀ m l, P m → P { m with log := l }

/-- What the removal of the legacy files does not change either. -/
structure Steady (casing : Casing) (free : Text → Prop) (P : Machine → Prop) : Prop
    extends Removing casing free P where
  transaction : ∀ m, P m → P { m with transaction := none }
  setupResume : ∀ m, P m → P { m with setupResume := false }
  legacyBackup : ∀ m, P m → P { m with legacyBackup := none }

/-- Every name may be unregistered. -/
def AnyName : Text → Prop := fun _ => True

/-! ## Looking changes nothing -/

section

variable {P : Machine → Prop}

theorem verifyOwned_keeps (place : RemovalSite → Site) (name : Text)
    (expectedRelease expectedPayload : Option Text) (location : Path) :
    Keeps P
      (verifyOwned host o place name expectedRelease expectedPayload location) := by
  refine .bind (.raiseIf _ _) fun _ => ?_
  refine .bind (look_keeps o) fun _ => ?_
  refine .bind (.check _) fun _ => ?_
  refine .bind (.raiseIf _ _) fun _ => ?_
  refine .bind (look_keeps o) fun _ => ?_
  exact .raiseIf _ _

theorem goneFromBoth_keeps (place : RemovalSite → Site) (name : Text) (attempt : Nat) :
    Keeps P (goneFromBoth host o place name attempt) := by
  refine .bind (look_keeps o) fun registration => ?_
  cases registration with
  | some _ => exact .pure _
  | none => exact .bind (look_keeps o) fun _ => .pure _

theorem legacyExists_keeps (phase : Phase) : Keeps P (legacyExists host o phase) := by
  refine .bind (look_keeps o) fun registration => ?_
  cases registration with
  | some _ => exact .pure _
  | none => exact .bind (look_keeps o) fun _ => .pure _

theorem verifyLegacyOwned_keeps (phase : Phase) :
    Keeps P (verifyLegacyOwned host o phase) := by
  refine .bind (look_keeps o) fun _ => ?_
  refine .bind (.check _) fun _ => ?_
  refine .bind (look_keeps o) fun _ => ?_
  refine .bind (.check _) fun _ => ?_
  refine .bind (.raiseIf _ _) fun _ => ?_
  refine .bind (.raiseIf _ _) fun _ => ?_
  refine .bind (look_keeps o) fun _ => ?_
  exact .raiseIf _ _

/-- The orphans by name have names of this product and are not the active runtime. -/
theorem orphansByName_ends (phase : Phase) (activeName : Text) (names : List Text) (m : Machine)
    (hm : P m) : Ends (orphansByName host o phase activeName names)
      (fun found t => (∀ n ∈ found, runtimePrefix <+: n ∧ ¬ host.casing.Same n activeName) ∧ P t)
      (fun _ t => P t) m := by
  induction names generalizing m with
  | nil => exact Ends.pure ⟨fun n hn => absurd hn List.not_mem_nil, hm⟩
  | cons name rest ih =>
    refine Ends.ite (fun _ => ih m hm) fun hname => ?_
    refine (look_keeps o m hm).seq fun registration t ht => ?_
    refine (ih t ht).seq fun others u hu => ?_
    have hcons : ∀ n ∈ name :: others, runtimePrefix <+: n ∧ ¬ host.casing.Same n activeName := by
      intro n hn
      rcases List.mem_cons.mp hn with rfl | hn
      · exact ⟨Decidable.not_not.mp fun hc => hname (.inl hc), fun hc => hname (.inr hc)⟩
      · exact hu.1 n hn
    cases registration with
    | none => exact Ends.pure hu
    | some r =>
      apply Ends.ite
      · intro _
        exact Ends.pure ⟨hcons, hu.2⟩
      · intro _
        exact Ends.pure hu

theorem mem_orphansByDirectory {m : Machine} {activeName n : Text}
    (h : n ∈ orphansByDirectory host m activeName) :
    runtimePrefix <+: n ∧ ¬ host.casing.Same n activeName := by
  obtain ⟨directory, -, hd⟩ := List.mem_filterMap.mp h
  cases hl : directory.getLast? with
  | none =>
    rw [hl] at hd
    cases hd
  | some name =>
    rw [hl] at hd
    simp only at hd
    split at hd
    · next hc =>
        cases hd
        exact hc.2
    · cases hd

theorem mem_of_mem_distinctNames {casing : Casing} {names : List Text} {n : Text}
    (h : n ∈ distinctNames casing names) : n ∈ names := by
  induction names with
  | nil => cases h
  | cons name rest ih =>
    rcases List.mem_cons.mp h with rfl | h
    · exact List.mem_cons_self
    · exact List.mem_cons_of_mem _ (ih (List.mem_filter.mp h).1)

end

namespace Removing

variable {free : Text → Prop} {P : Machine → Prop} (hP : Removing host.casing free P)
include hP

theorem destroy (site : Site) (destruction : Destruction) {effect : Machine → Machine}
    (h : ∀ m, P m → P (effect m)) :
    Keeps P (destroy o site destruction effect) :=
  .bind (.modify fun m hm => hP.log m _ hm) fun _ => command_keeps o h

theorem removeOwnedTree (site : Site) (path : Path) (parent : Option Path) :
    Keeps P (removeOwnedTree host o site path parent id id) := by
  apply Keeps.get_bind
  intro m hm
  apply Ends.ite
  · intro _
    refine Keeps.bind (.raiseIf _ _) (fun _ => ?_) m hm
    refine .bind (.modify fun m h => hP.log m _ h) fun _ => ?_
    apply attempt_keeps o
    · intro t ht
      exact hP.directories t _ ht
    · intro t ht
      split
      · exact hP.directories t _ ht
      · exact ht
  · intro _
    exact Ends.pure hm

theorem pollRemoved (place : RemovalSite → Site) (name : Text) (location : Path)
    (attempts : List Nat) :
    Keeps P (pollRemoved host o place name location attempts) := by
  induction attempts with
  | nil => exact .throw _
  | cons attempt rest ih =>
    refine .bind (goneFromBoth_keeps _ _ _) fun gone => ?_
    refine .ite (fun _ => hP.removeOwnedTree _ _ _) fun _ => ?_
    refine .bind (.ite (fun _ => .pure _) fun _ => look_keeps o) fun _ => ih

theorem removeOwnedRuntime (caller : Caller) {name : Text} (hname : free name)
    (expectedRelease expectedPayload : Option Text) (location : Option Path) :
    Keeps P
      (removeOwnedRuntime host o caller name expectedRelease expectedPayload location) := by
  refine .bind (look_keeps o) fun registration => ?_
  cases registration with
  | none =>
    refine .bind (look_keeps o) fun _ => ?_
    refine .bind (.raiseIf _ _) fun _ => ?_
    exact hP.removeOwnedTree _ _ _
  | some _ =>
    refine .bind (verifyOwned_keeps _ _ _ _ _) fun _ => ?_
    refine .bind (hP.destroy _ _ fun _ h => h) fun _ => ?_
    refine .bind (hP.destroy _ _ fun m h => hP.unregistered m _ hname h) fun _ => ?_
    exact hP.pollRemoved _ _ _ _

theorem removeEach (caller : Caller) (names : List Text) (hnames : ∀ n ∈ names, free n) :
    Keeps P (removeEach host o caller names) := by
  induction names with
  | nil => exact .pure _
  | cons name rest ih =>
    refine .bind (hP.removeOwnedRuntime _ (hnames name List.mem_cons_self) _ _ _) fun _ => ?_
    exact ih fun n hn => hnames n (List.mem_cons_of_mem _ hn)

/-- Orphans are removed whose names are of this product and not the active one. -/
theorem removeOrphanedOwnedRuntimes (phase : Phase) (caller : Caller) (activeName : Text)
    (hfree : ∀ n, runtimePrefix <+: n → ¬ host.casing.Same n activeName → free n) :
    Keeps P (removeOrphanedOwnedRuntimes host o phase caller activeName) := by
  intro m hm
  refine (look_keeps o m hm).seq fun names t ht => ?_
  refine (orphansByName_ends _ _ _ t ht).seq fun byName u hu => ?_
  refine Ends.bind (look_ends o (fun _ => ?_) fun _ _ => hu.2)
  refine hP.removeEach _ _ (fun n hn => ?_) u hu.2
  rcases List.mem_append.mp (mem_of_mem_distinctNames hn) with hn | hn
  · exact hfree n (hu.1 n hn).1 (hu.1 n hn).2
  · obtain ⟨hstart, hother⟩ := mem_orphansByDirectory hn
    exact hfree n hstart hother

theorem removeLegacy (phase : Phase) (hfree : free legacyName) :
    Keeps P (removeLegacy host o phase) := by
  refine .bind (verifyLegacyOwned_keeps _) fun _ => ?_
  refine .bind (hP.destroy _ _ fun _ h => h) fun _ => ?_
  exact hP.destroy _ _ fun m h => hP.unregistered m _ hfree h

theorem removeLegacyIfAny (phase : Phase) (hfree : free legacyName) :
    Keeps P (removeLegacyIfAny host o phase) :=
  .bind (legacyExists_keeps _) fun _ => .ite (fun _ => hP.removeLegacy _ hfree) fun _ => .pure _

theorem acquireLock : Keeps P (acquireLock host o) := by
  apply write_keeps o
  intro m hm
  unfold ensureDirectory
  split
  · exact hm
  · exact hP.directories m _ hm

theorem uninstallRuntimes (hfree : ∀ n, free n) : Keeps P (uninstallRuntimes host o) := by
  refine .bind hP.acquireLock fun _ => ?_
  refine .bind (look_keeps o) fun active => ?_
  refine .bind (look_keeps o) fun journal => ?_
  refine .bind (hP.removeEach _ _ fun n _ => hfree n) fun _ => ?_
  refine .bind (hP.removeOrphanedOwnedRuntimes _ _ _ fun n _ _ => hfree n) fun _ => ?_
  exact hP.removeLegacyIfAny _ (hfree _)

end Removing

theorem Steady.removeLegacyArtifacts {free : Text → Prop} {P : Machine → Prop}
    (hP : Steady host.casing free P) (phase : Phase) :
    Keeps P (removeLegacyArtifacts host o phase) := by
  refine .bind .get fun _ => ?_
  refine .bind (.ite (fun _ => hP.removeOwnedTree _ _ _) fun _ => .pure _) fun _ => ?_
  refine .bind (hP.removeOwnedTree _ _ _) fun _ => ?_
  refine .bind (write_keeps o hP.transaction) fun _ => ?_
  refine .bind (write_keeps o hP.setupResume) fun _ => ?_
  exact write_keeps o hP.legacyBackup

end SwitchTrade.Installer

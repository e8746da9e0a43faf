import SwitchTrade.Installer.Removal

/-!
# The candidate of a replacement

`Verified` is what `VerifyOwnedAsync` has found when it returns; a removal of another name
leaves it (`registered_without`). The steps that install a candidate change the kernel files and
add its registration, and leave what does not depend on those (`Installing`).
-/

namespace SwitchTrade.Installer

open InPlace

variable {host : Host} {o : Oracle}

/-! ## Registrations by name -/

theorem registered_eq_none {casing : Casing} {m : Machine} {name : Text} :
    registered casing m name = none ↔ ∀ r ∈ m.registrations, ¬ casing.Same r.name name := by
  unfold registered
  rw [List.find?_eq_none]
  simp only [decide_eq_true_eq]

theorem mem_without {casing : Casing} {m : Machine} {name : Text} {r : Registration} :
    r ∈ (withoutRegistration casing name m).registrations ↔
      r ∈ m.registrations ∧ ¬ casing.Same r.name name := by
  unfold withoutRegistration
  rw [List.mem_filter]
  simp only [decide_eq_true_eq]

/-- The registration of a name outlives the removal of another. -/
theorem registered_without {casing : Casing} {m : Machine} {name other : Text}
    (h : ¬ casing.Same other name) :
    registered casing (withoutRegistration casing other m) name = registered casing m name := by
  unfold registered withoutRegistration
  simp only
  induction m.registrations with
  | nil => rfl
  | cons r rest ih =>
    by_cases hname : casing.Same r.name name
    · have hother : ¬ casing.Same r.name other := by
        intro hs
        exact h (hs.symm.trans hname)
      rw [List.filter_cons_of_pos (by simpa using hother),
        List.find?_cons_of_pos (by simpa using hname),
        List.find?_cons_of_pos (by simpa using hname)]
    · rw [List.find?_cons_of_neg (by simpa using hname)]
      by_cases hother : casing.Same r.name other
      · rw [List.filter_cons_of_neg (by simpa using hother)]
        exact ih
      · rw [List.filter_cons_of_pos (by simpa using hother),
          List.find?_cons_of_neg (by simpa using hname)]
        exact ih

/-- The view shows no more than what is registered. -/
theorem lookUp_ends {site : Site} {name : Text} {m : Machine}
    {Q : Option Registration → Machine → Prop} {E : Failure → Machine → Prop}
    (hsome : ∀ r, registered host.casing m name = some r →
      ¬ ContainsName host.casing (o site).omitted name → Q (some r) m)
    (hnone : registered host.casing m name = none ∨
      ContainsName host.casing (o site).omitted name → Q none m)
    (hfail : ∀ e, (o site).fails = some e → E e m) : Ends (lookUp host o site name) Q E m := by
  apply look_ends o
  · intro _
    by_cases homitted : ContainsName host.casing (o site).omitted name
    · rw [if_pos homitted]
      exact hnone (.inr homitted)
    · rw [if_neg homitted]
      cases hr : registered host.casing m name with
      | none => exact hnone (.inl hr)
      | some r => exact hsome r hr homitted
  · exact hfail

/-! ## Verification -/

/-- The name is registered at the location with a marker of this product. -/
def Verified (host : Host) (m : Machine) (name : Text)
    (expectedRelease expectedPayload : Option Text)
    (location : Path) : Prop :=
  ∃ r, registered host.casing m name = some r ∧
    PathIsUnder host.casing r.basePath host.paths.runtimeRoot ∧
    PathEquals host.casing r.basePath location ∧
    ∃ v, r.marker = some v ∧ v.Owned expectedRelease expectedPayload

theorem Verified.congr {m t : Machine} {name : Text} {release payload : Option Text}
    {location : Path}
    (h : Verified host m name release payload location)
    (hs : registered host.casing t name = registered host.casing m name) :
    Verified host t name release payload location := by
  obtain ⟨r, hr, hrest⟩ := h
  exact ⟨r, hs.trans hr, hrest⟩

theorem Marker.Owned.any {v : Marker} {release payload : Option Text}
    (h : v.Owned release payload) :
    v.Owned none none :=
  ⟨h.1, h.2.1, h.2.2.1, fun _ hc => (by cases hc), fun _ hc => (by cases hc)⟩

theorem Verified.any {m : Machine} {name : Text} {release payload : Option Text} {location : Path}
    (h : Verified host m name release payload location) :
    Verified host m name none none location := by
  obtain ⟨r, hr, hunder, hequals, v, hv, howned⟩ := h
  exact ⟨r, hr, hunder, hequals, v, hv, howned.any⟩

/-- A verification that returns has read the machine and changed nothing. -/
theorem verifyOwned_ends {place : RemovalSite → Site} {name : Text} {release payload : Option Text}
    {location : Path} {m : Machine} {E : Failure → Machine → Prop} (hE : ∀ e, E e m) :
    Ends (verifyOwned host o place name release payload location)
      (fun _ t => t = m ∧ runtimePrefix <+: name ∧ Verified host m name release payload location)
      E m := by
  unfold verifyOwned
  refine Ends.bind (Ends.raiseIf (fun hstart => ?_) fun _ => hE _)
  refine Ends.bind (lookUp_ends (fun r hr _ => ?_) (fun _ => ?_) fun e _ => hE e)
  · refine Ends.bind (Ends.check (fun registration hreg => ?_) fun e _ => hE e)
    cases hreg
    refine Ends.bind (Ends.raiseIf (fun hlocation => ?_) fun _ => hE _)
    refine Ends.bind (look_ends o (fun _ => ?_) fun e _ => hE e)
    refine Ends.raiseIf (fun hmarker => ?_) fun _ => hE _
    obtain ⟨v, hv, howned⟩ := Decidable.not_not.mp hmarker
    rw [hr] at hv
    refine ⟨rfl, Decidable.not_not.mp hstart, r, hr, ?_, ?_, v, hv, howned⟩
    · exact Decidable.not_not.mp fun hc => hlocation (.inl hc)
    · exact Decidable.not_not.mp fun hc => hlocation (.inr hc)
  · refine Ends.bind (Ends.check (fun registration hreg => ?_) fun e _ => hE e)
    cases hreg

/-! ## Installation -/

/-- What the registration of a candidate does not change if the registrations it adds are of the
kind `adds`. -/
structure Registering (adds : Registration → Prop) (P : Machine → Prop) : Prop where
  directories : ∀ m d, P m → P { m with directories := d }
  log : ∀ m l, P m → P { m with log := l }
  added : ∀ (m : Machine) (r : Registration), adds r → P m →
    P { m with registrations := m.registrations ++ [r] }

/-- What `Apply` does not change either. -/
structure Installing (adds : Registration → Prop) (P : Machine → Prop) : Prop
    extends Registering adds P where
  config : ∀ m c, P m → P { m with config := c }
  backup : ∀ m b, P m → P { m with backup := b }
  kernelFile : ∀ m s, P m → P { m with kernelFile := s }
  kernels : ∀ m k, P m → P { m with kernels := k }

theorem verifyKernel_keeps {P : Machine → Prop} (expected : Text) :
    Keeps P (verifyKernel o expected) :=
  .bind (look_keeps o) fun _ => .raiseIf _ _

namespace Registering

variable {adds : Registration → Prop} {P : Machine → Prop} (hP : Registering adds P)
include hP

theorem ensureDirectory (path : Path) (m : Machine) (hm : P m) : P (ensureDirectory path m) := by
  unfold Installer.ensureDirectory
  split
  · exact hm
  · exact hP.directories m _ hm

omit hP in
theorem ensureDirectory_registrations (path : Path) (m : Machine) :
    (Installer.ensureDirectory path m).registrations = m.registrations := by
  unfold Installer.ensureDirectory
  split
  · rfl
  · rfl

theorem registerRuntime (registration : Registration) {left : Option Registration}
    (hleft : ∀ r, left = some r → adds r) (m : Machine) (hm : P m) :
    P (registerRuntime registration left m) := by
  have hensured := hP.ensureDirectory registration.basePath m hm
  have hsame := ensureDirectory_registrations registration.basePath m
  cases left with
  | none =>
    unfold Installer.registerRuntime
    rw [Option.toList_none, List.append_nil, ← hsame]
    exact hensured
  | some r =>
    have hadded := hP.added _ r (hleft r rfl) hensured
    rw [hsame] at hadded
    exact hadded

theorem installRuntime {registration : Registration} (hadds : adds registration)
    (hleft : ∀ left, (o .install).left = some left →
      adds { left with name := registration.name }) :
    Keeps P (installRuntime o registration) := by
  apply attempt_keeps o
  · intro m hm
    refine hP.registerRuntime registration (fun r hr => ?_) m hm
    cases hr
    exact hadds
  · intro m hm
    split
    · refine hP.registerRuntime registration (fun r hr => ?_) m hm
      obtain ⟨left, hl, rfl⟩ := Option.map_eq_some_iff.mp hr
      exact hleft left hl
    · exact hm

theorem destroy (site : Site) (destruction : Destruction) :
    Keeps P (destroy o site destruction id) :=
  .bind (.modify fun m hm => hP.log m _ hm) fun _ => command_keeps o fun _ h => h

end Registering

namespace Installing

variable {adds : Registration → Prop} {P : Machine → Prop} (hP : Installing adds P)
include hP

theorem copyKernel (installed image : Text) : Keeps P (copyKernel o installed image) := by
  apply Keeps.get_bind
  intro m hm
  refine Ends.ite (fun _ => Ends.pure hm) fun _ => ?_
  apply attempt_ends o
  · intro _
    exact hP.kernels m _ hm
  · intro e _
    split
    · exact hP.kernels m _ hm
    · exact hm

theorem originalBackup (state : Option KernelState) :
    Keeps P (originalBackup host o state) := by
  cases state with
  | none =>
    refine .bind (.bind (look_keeps o) fun original => ?_) fun _ => .pure _
    exact .bind (putBytes_keeps o fun file t ht => hP.backup t file ht) fun _ => .pure _
  | some existing => exact .bind .get fun _ => .bind (.raiseIf _ _) fun _ => .pure _

theorem apply (package : Package) : Keeps P (Installer.apply host o package) := by
  refine .bind (.check _) fun image => ?_
  refine .bind (look_keeps o) fun _ => ?_
  refine .bind (.raiseIf _ _) fun _ => ?_
  refine .bind (hP.copyKernel _ _) fun _ => ?_
  refine .bind (look_keeps o) fun _ => ?_
  refine .bind (.raiseIf _ _) fun _ => ?_
  refine .bind (readKernelState_keeps o) fun existing => ?_
  refine .bind (hP.originalBackup _) fun original => ?_
  refine .bind (look_keeps o) fun config => ?_
  refine .bind (write_keeps o fun t ht => hP.config t _ ht) fun _ => ?_
  exact write_keeps o fun t ht => hP.kernelFile t _ ht

end Installing

theorem Registering.installCandidate {r : Replacement} {adds : Registration → Prop}
    {P : Machine → Prop} (hP : Registering adds P) (hadds : adds (r.registration host))
    (hleft : ∀ left, (o .install).left = some left → adds { left with name := r.name host })
    {m : Machine} (happly : Ends (Installer.apply host o r.package) (fun _ t => P t)
      (fun _ t => P t) m) :
    Ends (installCandidate host o r) (fun _ t => P t) (fun _ t => P t) m := by
  refine happly.seq fun _ t ht => ?_
  refine Keeps.bind (hP.destroy _ _) (fun _ => ?_) t ht
  refine .bind (hP.installRuntime hadds hleft) fun _ => ?_
  refine .bind (verifyOwned_keeps _ _ _ _ _) fun _ => ?_
  refine .bind (verifyKernel_keeps _) fun _ => ?_
  exact hP.destroy _ _

/-- The candidate is verified: its marker, its kernel and its health. -/
structure CandidateVerified (host : Host) (o : Oracle) (r : Replacement) (m : Machine) : Prop where
  owned : Verified host m (r.name host) (some r.package.manifest.releaseId)
    (some r.package.manifest.runtimeContentId) (r.location host)
  kernel : (o .uname).fails = none ∧ (o .uname).output = r.package.manifest.kernelRelease
  health : (o .health).fails = none

/-- A candidate is installed only if it is verified. -/
theorem installCandidate_verified (r : Replacement) (m : Machine) :
    Ends (installCandidate host o r) (fun _ t => CandidateVerified host o r t)
      (fun _ _ => True) m := by
  have hany : ∀ {α : Type} {c : Call α} {s : Machine},
      Ends c (fun _ _ => True) (fun _ _ => True) s :=
    Ends.intro (fun _ _ _ => trivial) fun _ _ _ => trivial
  unfold installCandidate
  refine hany.seq fun _ t _ => ?_
  refine hany.seq fun _ u _ => ?_
  refine hany.seq fun _ v _ => ?_
  refine (verifyOwned_ends fun _ => trivial).seq fun _ w hw => ?_
  obtain ⟨rfl, -, hverified⟩ := hw
  unfold verifyKernel checkHealth destroy
  refine Ends.bind (Ends.bind (look_ends o (fun hu => ?_) fun _ _ => trivial))
  refine Ends.raiseIf (fun houtput => ?_) fun _ => trivial
  refine Ends.bind (Ends.modify ?_)
  refine command_ends o (fun hhealth => ?_) (fun _ _ => trivial) fun _ _ _ => trivial
  exact ⟨hverified, ⟨hu, Decidable.not_not.mp houtput⟩, hhealth⟩

end SwitchTrade.Installer

import SwitchTrade.Installer.Rollback

/-!
# What a removal destroys

Every act that the log holds was issued on the registrations and the active pointer it is logged
with. `Act.Justified` says which acts are in order: a runtime is terminated or unregistered that
is registered at its location with a marker of this product, or that the legacy transaction
names; a directory is deleted that this product has made. Unless SwitchTrade is uninstalled the
active runtime is spared by these acts; `wsl --shutdown` names no runtime and ends them all.
`Watched` carries this through the removal routines, on whatever
registrations they find.
-/

namespace SwitchTrade.Installer

open InPlace

variable {host : Host} {o : Oracle}

/-! ## Acts in order -/

/-- The query does not show a registration of the name. -/
def Omits (host : Host) (o : Oracle) (site : Site) (name : Text) : Prop :=
  ContainsName host.casing (o site).omitted name

/-- Of the two queries by which a removal finds a runtime gone one does not omit it. -/
structure Shows (host : Host) (o : Oracle) : Prop where
  first : ∀ caller name, Omits host o (.removal caller name .registration) name →
    ¬ Omits host o (.removal caller name .names) name
  polled : ∀ caller name attempt,
    Omits host o (.removal caller name (.pollRegistration attempt)) name →
      ¬ Omits host o (.removal caller name (.pollNames attempt)) name

/-- What the name is registered as. -/
def RegisteredAs (host : Host) (registrations : List Registration) (name : Text)
    (r : Registration) : Prop :=
  registrations.find? (fun r => host.casing.Same r.name name) = some r

/-- A runtime with a name and a marker of this product, registered at its location. -/
def OwnedRuntime (host : Host) (registrations : List Registration) (name : Text) : Prop :=
  runtimePrefix <+: name ∧ ∃ r, RegisteredAs host registrations name r ∧
    PathIsUnder host.casing r.basePath host.paths.runtimeRoot ∧
    PathEquals host.casing r.basePath (runtimeLocation host name) ∧
    ∃ v, r.marker = some v ∧ v.Owned none none

/-- The legacy runtime, registered where the transaction says with the marker it says. -/
def LegacyRuntime (host : Host) (transaction : Option Transaction)
    (registrations : List Registration) (name : Text) : Prop :=
  name = legacyName ∧ ∃ r t installId, RegisteredAs host registrations legacyName r ∧
    transaction = some t ∧ t.malformed = false ∧ t.Matches host.casing r.basePath installId ∧
    ∃ v, r.marker = some v ∧ v.Legacy installId

def recoveryPath (host : Host) : Path := host.paths.dataRoot ++ ["recovery".toList]

/-- The location of a runtime of this product that is registered nowhere, if the views show it,
the directory of the legacy runtime if the transaction names it, or the recovery directory. -/
def OwnedDirectory (host : Host) (o : Oracle) (transaction : Option Transaction)
    (registrations : List Registration) (path : Path) : Prop :=
  (∃ name, runtimePrefix <+: name ∧ path = runtimeLocation host name ∧
    (Shows host o → ∀ r ∈ registrations, ¬ host.casing.Same r.name name)) ∨
  (path = legacyRuntimePath host ∧ NamesLegacyPath host transaction) ∨ path = recoveryPath host

/-- The trees that an uninstallation removes as a whole. -/
def installationTrees (host : Host) : List Path :=
  [host.paths.runtimeRoot, host.paths.kernelRoot, host.paths.dataRoot ++ ["logs".toList],
    host.paths.stateRoot, host.paths.dataRoot]

/-- What the act destroys is of this installation. A shutdown of WSL destroys nothing: what runs
is ended, whoever owns it, and may be started again. -/
def Act.Owned (host : Host) (o : Oracle) (transaction : Option Transaction) (uninstalling : Prop)
    (a : Act) : Prop :=
  match a.destruction with
  | .terminated name | .unregistered name =>
    OwnedRuntime host a.registrations name ∨ LegacyRuntime host transaction a.registrations name
  | .deleted path =>
    OwnedDirectory host o transaction a.registrations path ∨
      uninstalling ∧ path ∈ installationTrees host
  | .shutdown => True

/-- The act is not on the runtime that is active, unless it ends all that run. -/
def Act.Spares (host : Host) (a : Act) : Prop :=
  ∀ active, a.active = some active →
    match a.destruction with
    | .terminated name | .unregistered name => ¬ host.casing.Same name active.activeName
    | .deleted path => ¬ InTree host.casing path (runtimeLocation host active.activeName)
    | .shutdown => True

structure Act.Justified (host : Host) (o : Oracle) (transaction : Option Transaction)
    (uninstalling : Prop) (a : Act) : Prop where
  owned : a.Owned host o transaction uninstalling
  spares : ¬ uninstalling → a.Spares host

/-! ## Trees -/

theorem inTree_append {casing : Casing} {root path rest : Path} :
    InTree casing (root ++ path) (root ++ rest) ↔ InTree casing path rest := by
  unfold InTree
  rw [List.map_append, List.map_append, List.prefix_append_right_inj]

theorem same_of_inTree {casing : Casing} {root rest : Path} {a b : Text}
    (h : InTree casing (root ++ [a]) (root ++ b :: rest)) : casing.Same a b := by
  rw [inTree_append] at h
  exact (List.cons_prefix_cons.mp h).1

theorem runtimeLocation_eq (name : Text) :
    runtimeLocation host name = host.paths.dataRoot ++ ["runtimes".toList, name] := by
  unfold runtimeLocation Paths.runtimeRoot
  rw [List.append_assoc]
  rfl

/-- The legacy directory does not hold the location of a runtime. -/
theorem not_inTree_legacy (name : Text) :
    ¬ InTree host.casing (legacyRuntimePath host) (runtimeLocation host name) := by
  intro h
  rw [runtimeLocation_eq] at h
  have hl := (same_of_inTree h).length
  simp at hl

/-- Nor does the recovery directory. -/
theorem not_inTree_recovery (name : Text) :
    ¬ InTree host.casing (recoveryPath host) (runtimeLocation host name) := by
  intro h
  rw [runtimeLocation_eq] at h
  have hs := same_of_inTree h
  have hc : host.casing.upper 'e' = host.casing.upper 'u' := by
    have := congrArg (fun l => l[1]?) hs
    simpa using this
  rw [host.casing.ascii 'e' (by decide), host.casing.ascii 'u' (by decide)] at hc
  exact absurd hc (by decide)

/-! ## The watched machine -/

/-- What is fixed while a removal routine runs. -/
structure Watch where
  transaction : Option Transaction
  uninstalling : Prop
  seen : List Act
  active : Option ActiveRuntime
  journal : Option OperationJournal

/-- The acts since `seen` are justified, the state files as at the start. -/
structure Watched (host : Host) (o : Oracle) (w : Watch) (m : Machine) : Prop where
  active : m.active = w.active
  journal : m.journal = w.journal
  transaction : m.transaction = w.transaction ∨ m.transaction = none
  log : ∃ acts, m.log = w.seen ++ acts ∧
    ∀ a ∈ acts, a.Justified host o w.transaction w.uninstalling

namespace Watched

variable {w : Watch} {m t : Machine}

theorem congr (h : Watched host o w m) (hactive : t.active = m.active)
    (hjournal : t.journal = m.journal)
    (htransaction : t.transaction = m.transaction ∨ t.transaction = none)
    (hlog : t.log = m.log) : Watched host o w t where
  active := hactive.trans h.active
  journal := hjournal.trans h.journal
  transaction := by
    rcases htransaction with ht | ht
    · rw [ht]
      exact h.transaction
    · exact .inr ht
  log := by
    rw [hlog]
    exact h.log

theorem record {d : Destruction} (h : Watched host o w m)
    (hj : Act.Justified host o w.transaction w.uninstalling ⟨d, m.registrations, m.active⟩) :
    Watched host o w (record d m) where
  active := h.active
  journal := h.journal
  transaction := h.transaction
  log := by
    obtain ⟨acts, hlog, hacts⟩ := h.log
    refine ⟨acts ++ [⟨d, m.registrations, m.active⟩], ?_, fun a ha => ?_⟩
    · unfold Installer.record
      rw [← List.append_assoc, ← hlog]
    · rcases List.mem_append.mp ha with ha | ha
      · exact hacts a ha
      · rw [List.mem_singleton.mp ha]
        exact hj

/-- What the transaction file says is what it said. -/
theorem transaction_eq {value : Transaction} (h : Watched host o w m)
    (ht : m.transaction = some value) : w.transaction = some value := by
  rcases h.transaction with hs | hn
  · exact hs.symm.trans ht
  · rw [hn] at ht
    cases ht

/-- A command that destroys leaves the machine that logged it, with its effect. -/
theorem destroy {site : Site} {d : Destruction} {effect : Machine → Machine}
    (h : Watched host o w m)
    (hj : Act.Justified host o w.transaction w.uninstalling ⟨d, m.registrations, m.active⟩)
    (heffect : Watched host o w (Installer.record d m) →
      Watched host o w (effect (Installer.record d m))) :
    Ends (destroy o site d effect)
      (fun _ t => t = effect (Installer.record d m) ∧ Watched host o w t)
      (fun _ t => Watched host o w t) m := by
  have hr := h.record hj
  exact Ends.bind (Ends.modify (command_ends o (fun _ => ⟨rfl, heffect hr⟩) (fun _ _ => hr)
    fun _ _ _ => heffect hr))

theorem shutdown (site : Site) : Keeps (Watched host o w) (Installer.shutdown o site) := by
  intro m hm
  have hends : Ends (Installer.shutdown o site)
      (fun _ t => t = id (Installer.record .shutdown m) ∧ Watched host o w t)
      (fun _ t => Watched host o w t) m :=
    hm.destroy ⟨trivial, fun _ _ _ => trivial⟩ fun h => h
  exact hends.mono (fun _ _ h => h.2) fun _ _ h => h

/-- A tree is deleted whose deletion is justified when it exists. -/
theorem removeOwnedTree {site : Site} {path : Path} {parent : Option Path}
    {effect broken : Machine → Machine} (h : Watched host o w m)
    (hj : Act.Justified host o w.transaction w.uninstalling
      ⟨.deleted path, m.registrations, m.active⟩)
    (heffect : ∀ t, Watched host o w t → Watched host o w (effect t))
    (hbroken : ∀ t, Watched host o w t → Watched host o w (broken t)) :
    Ends (removeOwnedTree host o site path parent effect broken)
      (fun _ t => Watched host o w t) (fun _ t => Watched host o w t) m := by
  refine Ends.bind (Ends.get (Ends.ite (fun _ => ?_) fun _ => Ends.pure h))
  refine Ends.bind (Ends.raiseIf (fun _ => ?_) fun _ => h)
  refine Ends.bind (Ends.modify ?_)
  have hwithout : ∀ t, Watched host o w t →
      Watched host o w (withoutTree host.casing path t) :=
    fun t ht => ht.congr rfl rfl (.inl rfl) rfl
  have hr := h.record hj
  refine attempt_ends o (fun _ => heffect _ (hwithout _ hr)) fun _ _ => ?_
  split
  · exact heffect _ (hwithout _ hr)
  · exact hbroken _ hr

end Watched

/-! ## The two views -/

/-- A name that the list does not show is registered nowhere, or the list omits it. -/
theorem not_registered_of_names {site : Site} {m : Machine} {name : Text}
    (h : ¬ ContainsName host.casing ((m.registrations.map Registration.name).filter fun n =>
      ¬ ContainsName host.casing (o site).omitted n) name) (hshown : ¬ Omits host o site name) :
    ∀ r ∈ m.registrations, ¬ host.casing.Same r.name name := by
  intro r hr hsame
  refine h ⟨r.name, List.mem_filter.mpr ⟨List.mem_map_of_mem hr, ?_⟩, hsame⟩
  simp only [decide_eq_true_eq]
  rintro ⟨n, hn, hs⟩
  exact hshown ⟨n, hn, hs.trans hsame⟩

/-- A name that neither view shows is registered nowhere if one of them shows what is. -/
theorem not_registered_of_views {first second : Site} {m : Machine} {name : Text}
    (hfirst : registered host.casing m name = none ∨ Omits host o first name)
    (hsecond : ¬ ContainsName host.casing ((m.registrations.map Registration.name).filter fun n =>
      ¬ ContainsName host.casing (o second).omitted n) name)
    (hshows : Omits host o first name → ¬ Omits host o second name) :
    ∀ r ∈ m.registrations, ¬ host.casing.Same r.name name := by
  rcases hfirst with hnone | homitted
  · exact registered_eq_none.mp hnone
  · exact not_registered_of_names hsecond (hshows homitted)

/-! ## `RemoveOwnedRuntimeAsync` -/

/-- The removal is of a name of this product that is not the active one. -/
structure Removable (host : Host) (w : Watch) (name : Text) : Prop where
  named : runtimePrefix <+: name
  inactive : ¬ w.uninstalling → ∀ a, w.active = some a → ¬ host.casing.Same name a.activeName

namespace Removable

variable {w : Watch} {name : Text} {m : Machine}

theorem directory (h : Removable host w name) (hm : Watched host o w m)
    (hgone : Shows host o → ∀ r ∈ m.registrations, ¬ host.casing.Same r.name name) :
    Act.Justified host o w.transaction w.uninstalling
      ⟨.deleted (runtimeLocation host name), m.registrations, m.active⟩ where
  owned := .inl (.inl ⟨name, h.named, rfl, hgone⟩)
  spares huninstalling active hactive htree :=
    h.inactive huninstalling active (hm.active.symm.trans hactive) (same_of_inTree htree)

theorem terminated (h : Removable host w name) (hm : Watched host o w m)
    (howned : OwnedRuntime host m.registrations name) :
    Act.Justified host o w.transaction w.uninstalling
      ⟨.terminated name, m.registrations, m.active⟩ where
  owned := .inl howned
  spares huninstalling active hactive :=
    h.inactive huninstalling active (hm.active.symm.trans hactive)

theorem unregistered (h : Removable host w name) (hm : Watched host o w m)
    (howned : OwnedRuntime host m.registrations name) :
    Act.Justified host o w.transaction w.uninstalling
      ⟨.unregistered name, m.registrations, m.active⟩ where
  owned := .inl howned
  spares huninstalling active hactive :=
    h.inactive huninstalling active (hm.active.symm.trans hactive)

theorem removeLocation (h : Removable host w name) {place : RemovalSite → Site}
    (hm : Watched host o w m)
    (hgone : Shows host o → ∀ r ∈ m.registrations, ¬ host.casing.Same r.name name) :
    Ends (removeLocation host o place (runtimeLocation host name))
      (fun _ t => Watched host o w t) (fun _ t => Watched host o w t) m :=
  hm.removeOwnedTree (h.directory hm hgone) (fun _ ht => ht) fun _ ht => ht

/-- A poll that finds the runtime gone from both views. -/
theorem goneFromBoth_ends (caller : Caller) (attempt : Nat) (hm : Watched host o w m) :
    Ends (goneFromBoth host o (.removal caller name) name attempt)
      (fun gone t => t = m ∧ (gone = true → Shows host o →
        ∀ r ∈ m.registrations, ¬ host.casing.Same r.name name))
      (fun _ t => Watched host o w t) m := by
  refine Ends.bind (lookUp_ends (fun r _ _ => ?_) (fun hfirst => ?_) fun _ _ => hm)
  · exact Ends.pure ⟨rfl, fun hc => by simp at hc⟩
  · refine Ends.bind (look_ends o (fun _ => ?_) fun _ _ => hm)
    refine Ends.pure ⟨rfl, fun hgone hshows => ?_⟩
    exact not_registered_of_views hfirst (of_decide_eq_true hgone)
      (hshows.polled caller name attempt)

theorem pollRemoved (h : Removable host w name) (caller : Caller) (attempts : List Nat) :
    Keeps (Watched host o w)
      (pollRemoved host o (.removal caller name) name (runtimeLocation host name) attempts) := by
  induction attempts with
  | nil => exact .throw _
  | cons attempt rest ih =>
    intro m hm
    refine (goneFromBoth_ends caller attempt hm).seq fun gone t ht => ?_
    obtain ⟨rfl, hgone⟩ := ht
    refine Ends.ite (fun hc => h.removeLocation hm (hgone hc)) fun _ => ?_
    refine Keeps.bind ?_ (fun _ => ih) t hm
    exact .ite (fun _ => .pure _) fun _ => look_keeps o

/-- The removal destroys a runtime that it has verified, or a directory of none. -/
theorem removeOwnedRuntime (h : Removable host w name) (caller : Caller)
    (release payload : Option Text) {location : Option Path}
    (hlocation : location.getD (runtimeLocation host name) = runtimeLocation host name) :
    Keeps (Watched host o w)
      (removeOwnedRuntime host o caller name release payload location) := by
  intro m hm
  unfold Installer.removeOwnedRuntime
  rw [hlocation]
  refine Ends.bind (lookUp_ends (fun r _ _ => ?_) (fun hfirst => ?_) fun _ _ => hm)
  · refine (verifyOwned_ends fun _ => hm).seq fun _ t ht => ?_
    obtain ⟨rfl, -, hverified⟩ := ht
    have howned : OwnedRuntime host t.registrations name := ⟨h.named, hverified.any⟩
    refine (hm.destroy (h.terminated hm howned) fun ht => ht).seq fun _ u hu => ?_
    obtain ⟨rfl, hu⟩ := hu
    refine (hu.destroy (h.unregistered hu howned) fun hv => ?_).seq fun _ v hv => ?_
    · exact hv.congr rfl rfl (.inl rfl) rfl
    · exact h.pollRemoved caller _ v hv.2
  · refine Ends.bind (look_ends o (fun _ => ?_) fun _ _ => hm)
    refine Ends.bind (Ends.raiseIf (fun hnames => ?_) fun _ => hm)
    exact h.removeLocation hm fun hshows =>
      not_registered_of_views hfirst hnames (hshows.first caller name)

end Removable

theorem removeEach_watched {w : Watch} (caller : Caller) (names : List Text)
    (h : ∀ n ∈ names, Removable host w n) :
    Keeps (Watched host o w) (removeEach host o caller names) := by
  induction names with
  | nil => exact .pure _
  | cons name rest ih =>
    refine .bind ((h name List.mem_cons_self).removeOwnedRuntime caller none none rfl) fun _ => ?_
    exact ih fun n hn => h n (List.mem_cons_of_mem _ hn)

/-! ## Orphans -/

theorem removeOrphanedOwnedRuntimes_watched {w : Watch} (phase : Phase) (caller : Caller)
    {activeName : Text}
    (hactive : ¬ w.uninstalling → ∀ a, w.active = some a → a.activeName = activeName) :
    Keeps (Watched host o w) (removeOrphanedOwnedRuntimes host o phase caller activeName) := by
  have hremovable : ∀ n, runtimePrefix <+: n ∧ ¬ host.casing.Same n activeName →
      Removable host w n := by
    rintro n ⟨hstart, hother⟩
    refine ⟨hstart, fun huninstalling a ha => ?_⟩
    rw [hactive huninstalling a ha]
    exact hother
  intro m hm
  refine Keeps.bind (look_keeps o) (fun names => ?_) m hm
  intro t ht
  refine (orphansByName_ends phase activeName names t ht).seq fun byName u hu => ?_
  refine Ends.bind (look_ends o (fun _ => ?_) fun _ _ => hu.2)
  refine removeEach_watched caller _ (fun n hn => hremovable n ?_) u hu.2
  rcases List.mem_append.mp (mem_of_mem_distinctNames hn) with hn | hn
  · exact hu.1 n hn
  · exact mem_orphansByDirectory hn

/-! ## The legacy runtime -/

/-- A verification of the legacy runtime that returns has read the machine. -/
theorem verifyLegacyOwned_ends {phase : Phase} {m : Machine} {E : Failure → Machine → Prop}
    (hE : ∀ e, E e m) : Ends (verifyLegacyOwned host o phase)
      (fun _ t => t = m ∧ LegacyRuntime host m.transaction m.registrations legacyName) E m := by
  unfold verifyLegacyOwned
  refine Ends.bind (lookUp_ends (fun r hr _ => ?_) (fun _ => ?_) fun e _ => hE e)
  · refine Ends.bind (Ends.check (fun registration hreg => ?_) fun e _ => hE e)
    cases hreg
    refine Ends.bind (look_ends o (fun _ => ?_) fun e _ => hE e)
    refine Ends.bind (Ends.check (fun t htransaction => ?_) fun e _ => hE e)
    cases hm : m.transaction with
    | none =>
      rw [hm] at htransaction
      cases htransaction
    | some value =>
      rw [hm] at htransaction
      cases htransaction
      refine Ends.bind (Ends.raiseIf (fun hwell => ?_) fun _ => hE _)
      refine Ends.bind (Ends.raiseIf (fun hmatches => ?_) fun _ => hE _)
      refine Ends.bind (look_ends o (fun _ => ?_) fun e _ => hE e)
      refine Ends.raiseIf (fun hmarker => ?_) fun _ => hE _
      obtain ⟨v, hv, hlegacy⟩ := Decidable.not_not.mp hmarker
      rw [hr] at hv
      exact ⟨rfl, rfl, r, _, _, hr, rfl, by simpa using hwell,
        Decidable.not_not.mp hmatches, v, hv, hlegacy⟩
  · refine Ends.bind (Ends.check (fun registration hreg => ?_) fun e _ => hE e)
    cases hreg

/-- The active runtime has a name of this product. -/
def Watch.Named (w : Watch) : Prop := ∀ a, w.active = some a → runtimePrefix <+: a.activeName

theorem removeLegacy_watched {w : Watch} (hnamed : w.Named) (phase : Phase) :
    Keeps (Watched host o w) (removeLegacy host o phase) := by
  intro m hm
  refine (verifyLegacyOwned_ends fun _ => hm).seq fun _ t ht => ?_
  obtain ⟨rfl, hlegacy⟩ := ht
  have howned : LegacyRuntime host w.transaction t.registrations legacyName := by
    obtain ⟨hname, r, value, installId, hr, ht, hrest⟩ := hlegacy
    exact ⟨hname, r, value, installId, hr, hm.transaction_eq ht, hrest⟩
  have hspared : ∀ a, t.active = some a → ¬ host.casing.Same legacyName a.activeName :=
    fun a ha => legacyName_ne (hnamed a (hm.active.symm.trans ha))
  have hterminated : Act.Justified host o w.transaction w.uninstalling
      ⟨.terminated legacyName, t.registrations, t.active⟩ := ⟨Or.inr howned, fun _ => hspared⟩
  have hunregistered : Act.Justified host o w.transaction w.uninstalling
      ⟨.unregistered legacyName, t.registrations, t.active⟩ := ⟨Or.inr howned, fun _ => hspared⟩
  refine (hm.destroy hterminated fun ht => ht).seq fun _ u hu => ?_
  obtain ⟨rfl, hu⟩ := hu
  refine (hu.destroy hunregistered fun hv => ?_).mono (fun _ _ h => h.2) fun _ _ h => h
  exact hv.congr rfl rfl (.inl rfl) rfl

theorem removeLegacyIfAny_watched {w : Watch} (hnamed : w.Named) (phase : Phase) :
    Keeps (Watched host o w) (removeLegacyIfAny host o phase) :=
  .bind (legacyExists_keeps phase) fun _ => .ite (fun _ => removeLegacy_watched hnamed phase)
    fun _ => .pure _

theorem removeLegacyArtifacts_watched {w : Watch} (phase : Phase) :
    Keeps (Watched host o w) (removeLegacyArtifacts host o phase) := by
  intro m hm
  refine Ends.bind (Ends.get ?_)
  refine Keeps.bind ?_ (fun _ => ?_) m hm
  · refine .ite (fun hnames t ht => ?_) fun _ => .pure _
    refine ht.removeOwnedTree ⟨.inl (.inr (.inl ⟨rfl, ?_⟩)), fun _ _ _ => not_inTree_legacy _⟩
      (fun _ h => h) fun _ h => h
    obtain ⟨value, hvalue, hrest⟩ := hnames
    exact ⟨value, hm.transaction_eq hvalue, hrest⟩
  refine .bind (fun t ht => ?_) fun _ => ?_
  · exact ht.removeOwnedTree ⟨.inl (.inr (.inr rfl)), fun _ _ _ => not_inTree_recovery _⟩
      (fun _ h => h) fun _ h => h
  refine .bind (write_keeps o fun t ht => ht.congr rfl rfl (.inr rfl) rfl) fun _ => ?_
  refine .bind (write_keeps o fun t ht => ht.congr rfl rfl (.inl rfl) rfl) fun _ => ?_
  exact write_keeps o fun t ht => ht.congr rfl rfl (.inl rfl) rfl

end SwitchTrade.Installer

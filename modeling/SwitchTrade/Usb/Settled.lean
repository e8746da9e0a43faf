import SwitchTrade.Usb.Session

/-!
# What a release shows, and when it returns

A release that returns has read both sides last in the state it reports (`release_shows`).
Conversely, where every answer shows the adapter in the state it was taken from (`Settled`),
the release of a lease that is `Ready` returns and removes the file, and the release of a
lease that is not raises.
-/

namespace SwitchTrade.Usb

open InPlace

/-! ## The readings of a log -/

def Entry.seen : Entry → Option (Option UsbAdapter)
  | .windows now => some now
  | _ => none

def Entry.probed : Entry → Option Linux
  | .linux _ value => some value
  | _ => none

/-- Linux shows an attached adapter at rest, or a detached one gone. -/
def Linux.shows (linux : Linux) (attached : Bool) : Prop :=
  if attached then linux.quiescent else linux.gone

/-- The last readings of Windows and of Linux show the adapter attached, or detached. -/
def Shows (attached : Bool) (log : List Entry) : Prop :=
  ∃ now linux, log.findSome? Entry.seen = some (some now) ∧
    log.findSome? Entry.probed = some linux ∧ now.attached = attached ∧ linux.shows attached

section Partial

variable {host : Host}

/-- Whatever an end leaves. -/
abbrev anyFailure : Failure → Working → Prop := fun _ _ => True

theorem ends_true {α : Type} {m : Call α} {w : Working} :
    Ends m (fun _ _ => True) anyFailure w :=
  Ends.intro (fun _ _ _ => trivial) fun _ _ _ => trivial

/-- `current` returns what the log last shows of Windows. -/
theorem current_seen {w : Working} :
    Ends (current host) (fun a t => t.log.findSome? Entry.seen = some (some a)) anyFailure w := by
  apply Ends.bind
  apply Ends.get
  apply ends_true.seq
  intro devices t _
  split
  · apply Ends.bind
    apply Ends.raiseIf
    · intro _
      exact rfl
    · intro _
      trivial
  · exact Ends.throw trivial

theorem currentAfterDetach_seen {w : Working} :
    Ends (currentAfterDetach host) (fun now t => t.log.findSome? Entry.seen = some now)
      anyFailure w := by
  apply Ends.bind
  apply Ends.get
  apply ends_true.seq
  intro devices t _
  split
  · exact rfl
  · apply Ends.bind
    apply Ends.raiseIf
    · intro _
      exact rfl
    · intro _
      trivial
  · exact Ends.throw trivial

theorem probe_probed {w : Working} {seen : Option UsbAdapter}
    (h : w.log.findSome? Entry.seen = some seen) :
    Ends probe (fun linux t => t.log.findSome? Entry.probed = some linux ∧
      t.log.findSome? Entry.seen = some seen) anyFailure w := by
  have hblind : Blind fun w => w.log.findSome? Entry.seen = some seen := fun _ _ h => h
  apply Ends.bind
  apply Ends.get
  apply Ends.bind
  refine Ends.raiseIf ?_ fun _ => trivial
  intro _
  have hask := ask_keeps hblind Answers.nextProbe w h
  apply (hask.mono (fun _ _ ht => ht) fun _ _ _ => trivial).seq
  intro x t ht
  have hanswer := (answer_keeps x : Keeps (fun w => w.log.findSome? Entry.seen = some seen) _) t ht
  apply (hanswer.mono (fun _ _ hu => hu) fun _ _ _ => trivial).seq
  intro value u hu
  exact ⟨rfl, hu⟩

/-- Once the wait has counted three, the log shows the adapter detached and gone from Linux. -/
theorem awaitReturn_shows {ticks : List Bool} {seen : Seen} {w : Working} (h : seen.stable < 3) :
    Ends (awaitReturn host ticks seen) (fun out t => 3 ≤ out.stable → Shows false t.log)
      anyFailure w := by
  induction ticks generalizing seen w with
  | nil => exact Ends.throw trivial
  | cons tick ticks ih =>
    cases tick with
    | false =>
      apply Ends.pure
      intro hstable
      omega
    | true =>
      apply currentAfterDetach_seen.seq
      intro now t ht
      apply (probe_probed ht).seq
      intro linux u ⟨hlinux, hnow⟩
      by_cases hround : shownDetached now = true ∧ linux.gone
      · have hshows : Shows false u.log := by
          cases now with
          | none => cases hround.1
          | some a =>
            refine ⟨a, linux, hnow, hlinux, ?_, hround.2⟩
            have hdetached : (!a.attached) = true := hround.1
            simpa using hdetached
        apply Ends.ite
        · intro _
          apply Ends.pure
          intro _
          exact hshows
        · intro hstable
          apply ih
          exact Nat.lt_of_not_le hstable
      · apply Ends.ite
        · intro hstable
          rw [if_neg hround] at hstable
          omega
        · intro hstable
          apply ih
          exact Nat.lt_of_not_le hstable

theorem releaseAcquired_shows {now : UsbAdapter} {w : Working} :
    Ends (releaseAcquired host now) (fun _ t => Shows false t.log) anyFailure w := by
  apply ends_true.seq
  intro _ t _
  apply ends_true.seq
  intro _ u _
  apply Ends.bind
  apply Ends.get
  apply (awaitReturn_shows (Nat.zero_lt_succ 2)).seq
  intro seen v hv
  refine Ends.raiseIf ?_ fun _ => trivial
  intro hstable
  exact hv (Nat.le_of_not_lt hstable)

/-- A prior adapter is released only while it is attached and quiescent. -/
theorem releasePrior_shows {now : UsbAdapter} {w : Working}
    (h : w.log.findSome? Entry.seen = some (some now)) :
    Ends (releasePrior now) (fun _ t => Shows true t.log) anyFailure w := by
  apply (probe_probed h).seq
  intro linux t ⟨hlinux, hnow⟩
  refine Ends.raiseIf ?_ fun _ => trivial
  intro hrest
  have hattached : now.attached = true := by
    by_contra hdetached
    exact hrest (.inl (by simpa using hdetached))
  have hquiescent : linux.quiescent := by
    by_contra hbusy
    exact hrest (.inr hbusy)
  exact ⟨now, linux, hnow, hlinux, hattached, hquiescent⟩

/-- A predicate on the log that only looks at what Windows showed. -/
def SawWindows (now : UsbAdapter) (w : Working) : Prop :=
  w.log.findSome? Entry.seen = some (some now)

theorem sawWindows_blind (now : UsbAdapter) : Blind (SawWindows now) := fun _ _ h => h

theorem persist_saw (now : UsbAdapter) (attachIntent : Bool) :
    Keeps (SawWindows now) (persist attachIntent) := by
  have hwrite : Keeps (SawWindows now) (writeFile attachIntent) := Keeps.modify fun _ h => h
  apply (ask_keeps (sawWindows_blind now) _).bind
  intro x
  cases x with
  | replaced => exact hwrite
  | refused => exact Keeps.throw _
  | replacedThenRaised => exact hwrite.bind fun _ => Keeps.throw _

theorem bindLinuxIdentity_saw (now : UsbAdapter) (attachIntent : Bool) (gate : String) :
    Keeps (SawWindows now) (bindLinuxIdentity attachIntent gate) := by
  apply Keeps.bind Keeps.get
  intro w
  apply Keeps.ite
  · intro _
    exact Keeps.pure _
  intro _
  apply Keeps.ite
  · intro _
    exact Keeps.raiseIf _ _
  intro _
  apply Keeps.bind
  · apply (ask_keeps (sawWindows_blind now) _).bind
    intro x
    cases x with
    | ok identity => exact (Keeps.raiseIf _ _).bind fun _ => Keeps.pure _
    | error e => exact (Keeps.raiseIf _ _).bind fun _ => Keeps.throw _
  intro identity
  apply Keeps.bind
  · exact Keeps.modify fun _ h => h
  · intro _
    exact persist_saw now attachIntent

theorem bindForRelease_saw (now current : UsbAdapter) :
    Keeps (SawWindows now) (bindForRelease current) := by
  apply Keeps.bind Keeps.get
  intro w
  apply Keeps.ite
  · intro _
    apply Keeps.bind (Keeps.raiseIf _ _)
    intro _
    exact bindLinuxIdentity_saw _ _ _
  · intro _
    exact Keeps.pure _

/-- A release that returns has last seen the adapter detached if the run had attached it, and
attached otherwise. -/
theorem release_shows {w : Working} (h : w.file ≠ none ∨ w.lease.active = true) :
    Ends (release host) (fun _ t => Shows (!w.lease.acquiredByRun) t.log) anyFailure w := by
  apply Ends.bind
  apply Ends.get
  apply Ends.ite
  · rintro ⟨hfile, hactive⟩
    rcases h with h | h
    · exact absurd hfile h
    · rw [hactive] at h
      cases h
  intro _
  apply current_seen.seq
  intro now t ht
  have hbind := bindForRelease_saw now now t ht
  apply (hbind.mono (fun _ _ hu => hu) fun _ _ _ => trivial).seq
  intro _ u hu
  have hbranch : Ends (releaseBy host w.lease.acquiredByRun now)
      (fun _ t => Shows (!w.lease.acquiredByRun) t.log) anyFailure u := by
    apply Ends.ite
    · intro hacquired
      rw [hacquired]
      exact releaseAcquired_shows
    · intro hacquired
      rw [Bool.not_eq_true] at hacquired
      rw [hacquired]
      exact releasePrior_shows hu
  apply hbranch.seq
  intro _ v hv
  have hblind : Blind fun t => Shows (!w.lease.acquiredByRun) t.log := fun _ _ h => h
  have hactive : Keeps (fun t => Shows (!w.lease.acquiredByRun) t.log) (setActive false) :=
    Keeps.modify fun _ h => h
  have hunlink : Keeps (fun t => Shows (!w.lease.acquiredByRun) t.log) unlinkRecovery := by
    apply (ask_keeps hblind _).bind
    intro x
    apply (raiseGiven_keeps x).bind
    intro _
    exact Keeps.modify fun _ h => h
  have htail := hactive.bind fun _ => hunlink.bind fun _ =>
    Keeps.pure (⟨true, true, true, w.lease.acquiredByRun⟩ : Released)
  exact (htail v hv).mono (fun _ _ hx => hx) fun _ _ _ => trivial

end Partial

/-! ## A settled adapter -/

/-- Every answer shows the adapter `now`, attached or not as `prior` tells and at rest, and
nothing fails. -/
structure Settled (host : Host) (prior : Bool) (adapter now : UsbAdapter) (e : Answers) :
    Prop where
  states : ∀ x ∈ e.states,
    ∃ devices, x = .ok ⟨0, .ok devices⟩ ∧ sameInstance host adapter devices = [now]
  profile : now.usbId = adapter.usbId
  attached : now.attached = prior
  probes : ∀ x ∈ e.probes, ∃ linux, x = .ok linux ∧ linux.shows prior
  identities : ∀ x ∈ e.identities, ∃ id, x = .ok id ∧ validLinuxIdentity id = true
  writes : ∀ x ∈ e.writes, x = .replaced
  unlinks : ∀ x ∈ e.unlinks, x = none

/-- There are as many answers as that. -/
structure Enough (n m k : Nat) (e : Answers) : Prop where
  states : n ≤ e.states.length
  probes : m ≤ e.probes.length
  identities : k ≤ e.identities.length
  writes : k ≤ e.writes.length
  unlinks : 1 ≤ e.unlinks.length
  /-- the clock allows three rounds -/
  ticks : ∃ rest, e.ticks = true :: true :: true :: rest

/-- No end of the call is a raise. -/
abbrev noFailure : Failure → Working → Prop := fun _ _ => False

section Total

variable {host : Host} {prior : Bool} {adapter now : UsbAdapter} {m n k : Nat}

/-- A settled moment of a call: the lease and the file are those, and the answers to come. -/
structure Calm (host : Host) (prior : Bool) (adapter now : UsbAdapter) (n m k : Nat)
    (lease : Lease) (file : Option Recovery) (w : Working) : Prop where
  lease : w.lease = lease
  file : w.file = file
  settled : Settled host prior adapter now w.answers
  enough : Enough n m k w.answers

variable {lease : Lease} {file : Option Recovery} {w : Working}

/-- It uses up one answer of Windows. -/
theorem inventory_calm (h : Calm host prior adapter now (n + 1) m k lease file w) :
    Ends inventory (fun devices t => sameInstance host adapter devices = [now] ∧
      Calm host prior adapter now n m k lease file t) noFailure w := by
  cases hs : w.answers.states with
  | nil =>
    have hlength := h.enough.states
    rw [hs, List.length_nil] at hlength
    omega
  | cons x xs =>
    obtain ⟨devices, rfl, hdevices⟩ := h.settled.states x (by rw [hs]; exact List.mem_cons_self)
    have hnext : ∀ log, Calm host prior adapter now n m k lease file
        { w with log := log, answers := { w.answers with states := xs } } := by
      intro log
      refine ⟨h.lease, h.file, { h.settled with states := ?_ }, { h.enough with states := ?_ }⟩
      · intro y hy
        apply h.settled.states
        rw [hs]
        exact List.mem_cons_of_mem _ hy
      · have hlength := h.enough.states
        rw [hs, List.length_cons] at hlength
        show n ≤ xs.length
        omega
    apply Ends.bind
    apply Ends.bind
    apply Ends.modify
    apply Ends.bind
    unfold ask Ends
    simp only [EStateM.run, Answers.nextState, hs]
    exact ⟨hdevices, hnext _⟩

/-- It uses up one answer of Linux. -/
theorem probe_calm (h : Calm host prior adapter now n (m + 1) k lease file w)
    (hbound : lease.exactIdentityRequired = true → lease.linuxIdentity ≠ none) :
    Ends probe (fun linux t => linux.shows prior ∧
      Calm host prior adapter now n m k lease file t) noFailure w := by
  cases hp : w.answers.probes with
  | nil =>
    have hlength := h.enough.probes
    rw [hp, List.length_nil] at hlength
    omega
  | cons x xs =>
    obtain ⟨linux, rfl, hshows⟩ := h.settled.probes x (by rw [hp]; exact List.mem_cons_self)
    have hnext : ∀ log, Calm host prior adapter now n m k lease file
        { w with log := log, answers := { w.answers with probes := xs } } := by
      intro log
      refine ⟨h.lease, h.file, { h.settled with probes := ?_ }, { h.enough with probes := ?_ }⟩
      · intro y hy
        apply h.settled.probes
        rw [hp]
        exact List.mem_cons_of_mem _ hy
      · have hlength := h.enough.probes
        rw [hp, List.length_cons] at hlength
        show m ≤ xs.length
        omega
    apply Ends.bind
    apply Ends.get
    apply Ends.bind
    rw [h.lease]
    apply Ends.raiseIf
    · intro _
      apply Ends.bind
      unfold ask Ends
      simp only [EStateM.run, Answers.nextProbe, hp]
      exact ⟨hshows, hnext _⟩
    · rintro ⟨hexact, hnone⟩
      exact hbound hexact hnone

theorem current_calm (h : Calm host prior adapter now (n + 1) m k lease file w)
    (hadapter : lease.adapter = adapter) :
    Ends (current host) (fun a t => a = now ∧ Calm host prior adapter now n m k lease file t)
      noFailure w := by
  apply Ends.bind
  apply Ends.get
  apply (inventory_calm h).seq
  rintro devices t ⟨hdevices, ht⟩
  rw [h.lease, hadapter, hdevices]
  apply Ends.bind
  apply Ends.raiseIf
  · intro _
    exact ⟨rfl, { ht with }⟩
  · intro husb
    exact husb h.settled.profile

theorem currentAfterDetach_calm (h : Calm host prior adapter now (n + 1) m k lease file w)
    (hadapter : lease.adapter = adapter) (hbus : now.busId = adapter.busId) :
    Ends (currentAfterDetach host)
      (fun a t => a = some now ∧ Calm host prior adapter now n m k lease file t) noFailure w := by
  apply Ends.bind
  apply Ends.get
  apply (inventory_calm h).seq
  rintro devices t ⟨hdevices, ht⟩
  rw [h.lease, hadapter, hdevices]
  apply Ends.bind
  apply Ends.raiseIf
  · intro _
    exact ⟨rfl, { ht with }⟩
  · rintro (husb | hne)
    · exact husb h.settled.profile
    · exact hne hbus

/-- Three rounds that show the adapter gone end the wait. -/
theorem awaitReturn_calm (seen : Seen) (rest : List Bool) (hk : seen.stable + n = 3) (hn : 0 < n)
    (h : Calm host false adapter now n n k lease file w) (hadapter : lease.adapter = adapter)
    (hbus : now.busId = adapter.busId)
    (hbound : lease.exactIdentityRequired = true → lease.linuxIdentity ≠ none) :
    Ends (awaitReturn host (List.replicate n true ++ rest) seen)
      (fun out t => out.stable = 3 ∧ Calm host false adapter now 0 0 k lease file t)
      noFailure w := by
  induction n generalizing seen w with
  | zero => omega
  | succ n ih =>
    apply (currentAfterDetach_calm h hadapter hbus).seq
    rintro a t ⟨rfl, ht⟩
    apply (probe_calm ht hbound).seq
    rintro linux u ⟨hshows, hu⟩
    have hround : shownDetached (some now) = true ∧ linux.gone := by
      refine ⟨?_, hshows⟩
      show (!now.attached) = true
      rw [ht.settled.attached]
      rfl
    rw [if_pos hround]
    apply Ends.ite
    · intro hstable
      have hzero : n = 0 := by omega
      subst hzero
      apply Ends.pure
      exact ⟨by show seen.stable + 1 = 3; omega, hu⟩
    · intro hstable
      apply ih
      · show seen.stable + 1 + n = 3
        omega
      · omega
      · exact hu

/-- The lease after the release has followed the adapter to the bus it is on. -/
theorem followBus_calm (h : Calm host false adapter now n m k lease file w)
    (hadapter : lease.adapter = adapter) :
    Ends (followBus now) (fun _ t => ∃ lease' : Lease, now.busId = lease'.adapter.busId ∧
      lease'.exactIdentityRequired = lease.exactIdentityRequired ∧
      lease'.linuxIdentity = lease.linuxIdentity ∧
      Calm host false lease'.adapter now n m k lease' file t) noFailure w := by
  apply Ends.bind
  apply Ends.get
  rw [h.lease]
  apply Ends.ite
  · intro hbus
    apply Ends.pure
    rw [← hadapter] at h
    exact ⟨lease, hbus, rfl, rfl, h⟩
  · intro _
    apply Ends.bind
    apply Ends.raiseIf
    · intro _
      apply Ends.modify
      refine ⟨{ lease with adapter := now }, rfl, rfl, rfl, ?_, h.file, ?_, h.enough⟩
      · rw [h.lease]
      · refine { h.settled with states := ?_, profile := rfl }
        intro x hx
        obtain ⟨devices, hd, hdevices⟩ := h.settled.states x hx
        refine ⟨devices, hd, ?_⟩
        have hmem : now ∈ sameInstance host adapter devices := by
          rw [hdevices]
          exact List.mem_singleton_self now
        have hfold : host.casefold now.instanceId = host.casefold adapter.instanceId := by
          have hfiltered := (List.mem_filter.mp hmem).2
          simpa using hfiltered
        rw [← hdevices]
        unfold sameInstance
        rw [hfold]
    · intro hattached
      rw [h.settled.attached] at hattached
      cases hattached

/-- It uses up one identity; its write is still to come. -/
theorem resolve_calm {gate : String} (h : Calm host prior adapter now n m (k + 1) lease file w) :
    Ends (resolve gate) (fun _ t => Settled host prior adapter now t.answers ∧
      Enough n m k t.answers ∧ 1 ≤ t.answers.writes.length ∧ t.lease = lease) noFailure w := by
  cases hi : w.answers.identities with
  | nil =>
    have hlength := h.enough.identities
    rw [hi, List.length_nil] at hlength
    omega
  | cons x xs =>
    obtain ⟨id, rfl, hvalid⟩ := h.settled.identities x (by rw [hi]; exact List.mem_cons_self)
    apply Ends.bind
    unfold ask Ends
    simp only [EStateM.run, Answers.nextIdentity, hi]
    apply Ends.bind
    apply Ends.raiseIf
    · intro _
      apply Ends.pure
      have hlength := h.enough.identities
      rw [hi, List.length_cons] at hlength
      have hwrites := h.enough.writes
      refine ⟨{ h.settled with identities := ?_ }, ?_, ?_, h.lease⟩
      · intro y hy
        apply h.settled.identities
        rw [hi]
        exact List.mem_cons_of_mem _ hy
      · refine { h.enough with identities := ?_, writes := ?_ }
        · show k ≤ xs.length
          omega
        · show k ≤ w.answers.writes.length
          omega
      · show 1 ≤ w.answers.writes.length
        omega
    · intro hinvalid
      rw [hvalid] at hinvalid
      cases hinvalid

theorem persist_calm (attachIntent : Bool) (hs : Settled host prior adapter now w.answers)
    (he : Enough n m 0 w.answers) (hw : 1 ≤ w.answers.writes.length) :
    Ends (persist attachIntent) (fun _ t => t.lease = w.lease ∧
      Settled host prior adapter now t.answers ∧ Enough n m 0 t.answers) noFailure w := by
  cases hx : w.answers.writes with
  | nil =>
    rw [hx, List.length_nil] at hw
    omega
  | cons x xs =>
    have hreplaced := hs.writes x (by rw [hx]; exact List.mem_cons_self)
    subst hreplaced
    apply Ends.bind
    unfold ask Ends
    simp only [EStateM.run, Answers.nextWrite, hx]
    refine ⟨rfl, { hs with writes := ?_ }, { he with writes := ?_ }⟩
    · intro y hy
      apply hs.writes
      rw [hx]
      exact List.mem_cons_of_mem _ hy
    · exact Nat.zero_le _

/-- Whether the exact identity is known or need not be. -/
def Lease.Bound (lease : Lease) : Prop :=
  lease.exactIdentityRequired = true → lease.linuxIdentity ≠ none

/-- The lease can be released once the adapter is back: the run is known to own an adapter that
was detached, and a needed exact identity is known or can still be resolved. -/
structure Lease.Ready (lease : Lease) (prior : Bool) : Prop where
  owned : prior = false → lease.acquiredByRun = true
  identified : lease.exactIdentityRequired = true → lease.linuxIdentity = none →
    prior = true ∧ lease.identityResolver = true

theorem bindForRelease_calm (h : Calm host prior adapter now n m 1 lease file w)
    (hready : lease.Ready prior) :
    Ends (bindForRelease now) (fun _ t => ∃ (lease' : Lease) (file' : Option Recovery),
      lease'.adapter = lease.adapter ∧ lease'.Bound ∧
      Calm host prior adapter now n m 0 lease' file' t) noFailure w := by
  apply Ends.bind
  apply Ends.get
  rw [h.lease]
  apply Ends.ite
  · rintro ⟨hexact, hnone⟩
    obtain ⟨hprior, hresolver⟩ := hready.identified hexact hnone
    apply Ends.bind
    apply Ends.raiseIf
    · intro _
      apply Ends.bind
      apply Ends.get
      rw [h.lease]
      apply Ends.ite
      · intro hsome
        rw [hnone] at hsome
        cases hsome
      intro _
      apply Ends.ite
      · intro hnoresolver
        rw [hresolver] at hnoresolver
        cases hnoresolver
      intro _
      apply (resolve_calm h).seq
      rintro id t ⟨hs, he, hw, hl⟩
      apply Ends.bind
      apply Ends.modify
      have hpersist := persist_calm lease.acquiredByRun
        (w := { t with lease := { t.lease with linuxIdentity := some id } }) hs he hw
      apply hpersist.mono _ fun _ _ hf => hf
      rintro _ u ⟨hu, hs, he⟩
      refine ⟨u.lease, u.file, ?_, ?_, rfl, rfl, hs, he⟩
      · rw [hu, ← hl]
      · intro _ hc
        rw [hu] at hc
        cases hc
    · intro hdetached
      rw [h.settled.attached, hprior] at hdetached
      cases hdetached
  · intro hknown
    apply Ends.pure
    refine ⟨lease, file, rfl, ?_, { h with enough := ?_ }⟩
    · intro hexact hnone
      exact hknown ⟨hexact, hnone⟩
    · exact { h.enough with identities := Nat.zero_le _, writes := Nat.zero_le _ }

theorem releasePrior_calm (h : Calm host true adapter now n (m + 1) k lease file w)
    (hbound : lease.Bound) :
    Ends (releasePrior now) (fun _ t => Calm host true adapter now n m k lease file t)
      noFailure w := by
  apply (probe_calm h hbound).seq
  rintro linux t ⟨hshows, ht⟩
  apply Ends.raiseIf
  · intro _
    exact ht
  · rintro (hdetached | hbusy)
    · rw [h.settled.attached] at hdetached
      cases hdetached
    · exact hbusy hshows

/-- Three answers of either side are enough for the release. -/
theorem releaseAcquired_calm (h : Calm host false adapter now 3 3 k lease file w)
    (hadapter : lease.adapter = adapter) (hbound : lease.Bound) :
    Ends (releaseAcquired host now)
      (fun _ t => ∃ adapter' lease', Calm host false adapter' now 0 0 k lease' file t)
      noFailure w := by
  apply (followBus_calm h hadapter).seq
  rintro _ t ⟨lease', hbus, hexact, hidentity, ht⟩
  apply Ends.bind
  have hdetached : now.attached = false := ht.settled.attached
  unfold detachIfAttached
  rw [hdetached]
  apply Ends.pure
  apply Ends.bind
  apply Ends.get
  obtain ⟨rest, hticks⟩ := ht.enough.ticks
  rw [hticks]
  have hbound' : lease'.Bound := by
    intro he
    rw [hidentity]
    exact hbound (by rw [← hexact]; exact he)
  have hawait := awaitReturn_calm ⟨0, false, none⟩ rest rfl (by omega) ht rfl hbus
    hbound'
  apply hawait.seq
  rintro seen u ⟨hstable, hu⟩
  apply Ends.raiseIf
  · intro _
    exact ⟨_, _, hu⟩
  · intro hshort
    omega

theorem unlinkRecovery_calm (h : Calm host prior adapter now n m k lease file w) :
    Ends unlinkRecovery (fun _ t => t.file = none) noFailure w := by
  cases hx : w.answers.unlinks with
  | nil =>
    have hlength := h.enough.unlinks
    rw [hx, List.length_nil] at hlength
    omega
  | cons x xs =>
    have hnone := h.settled.unlinks x (by rw [hx]; exact List.mem_cons_self)
    subst hnone
    apply Ends.bind
    unfold ask Ends
    simp only [EStateM.run, Answers.nextUnlink, hx]
    exact rfl

/-- Once the adapter is back, the release of a ready lease returns and removes the file. -/
theorem release_returns (hrecord : w.file ≠ none ∨ w.lease.active = true)
    (hacquired : w.lease.acquiredByRun = true → prior = false) (hready : w.lease.Ready prior)
    (hsettled : Settled host prior w.lease.adapter now w.answers)
    (henough : Enough 4 3 1 w.answers) :
    Ends (release host) (fun _ t => t.file = none) noFailure w := by
  apply Ends.bind
  apply Ends.get
  apply Ends.ite
  · rintro ⟨hfile, hactive⟩
    rcases hrecord with h | h
    · exact absurd hfile h
    · rw [hactive] at h
      cases h
  intro _
  have hcalm : Calm host prior w.lease.adapter now 4 3 1 w.lease w.file w :=
    ⟨rfl, rfl, hsettled, henough⟩
  apply (current_calm hcalm rfl).seq
  rintro a t ⟨rfl, ht⟩
  apply (bindForRelease_calm ht hready).seq
  rintro _ u ⟨lease', file', hadapter, hbound, hu⟩
  have hbranch : Ends (releaseBy host w.lease.acquiredByRun a)
      (fun _ t => ∃ prior adapter n m k lease file,
        Calm host prior adapter a n m k lease file t) noFailure u := by
    cases hprior : prior with
    | false =>
      unfold releaseBy
      rw [hready.owned hprior]
      subst hprior
      apply (releaseAcquired_calm hu hadapter hbound).mono _ fun _ _ hf => hf
      rintro _ v ⟨adapter', lease', hv⟩
      exact ⟨_, _, _, _, _, _, _, hv⟩
    | true =>
      have hunacquired : w.lease.acquiredByRun = false := by
        by_contra hc
        have hfalse := hacquired (by simpa using hc)
        rw [hprior] at hfalse
        cases hfalse
      unfold releaseBy
      rw [hunacquired]
      subst hprior
      apply (releasePrior_calm hu hbound).mono _ fun _ _ hf => hf
      intro _ v hv
      exact ⟨_, _, _, _, _, _, _, hv⟩
  apply hbranch.seq
  rintro _ v ⟨prior', adapter', n', m', k', lease'', file'', hv⟩
  apply Ends.bind
  apply Ends.modify
  have hv' : Calm host prior' adapter' a n' m' k' { v.lease with active := false } file''
      { v with lease := { v.lease with active := false } } := { hv with lease := rfl }
  apply (unlinkRecovery_calm hv').seq
  intro _ x hx
  exact Ends.pure hx

/-- The release of a lease that is not ready raises even when the adapter is back. -/
theorem release_blocked (hrecord : w.file ≠ none ∨ w.lease.active = true)
    (hnot : ¬ w.lease.Ready prior)
    (hsettled : Settled host prior w.lease.adapter now w.answers)
    (henough : Enough 4 3 1 w.answers) :
    Ends (release host) (fun _ _ => False) anyFailure w := by
  apply Ends.bind
  apply Ends.get
  apply Ends.ite
  · rintro ⟨hfile, hactive⟩
    rcases hrecord with h | h
    · exact absurd hfile h
    · rw [hactive] at h
      cases h
  intro _
  have hcalm : Calm host prior w.lease.adapter now 4 3 1 w.lease w.file w :=
    ⟨rfl, rfl, hsettled, henough⟩
  apply ((current_calm hcalm rfl).mono (fun _ _ ht => ht) fun _ _ hf => hf.elim).seq
  rintro a t ⟨rfl, ht⟩
  apply Ends.bind
  apply Ends.bind
  apply Ends.get
  rw [ht.lease]
  apply Ends.ite
  · rintro ⟨hexact, hnone⟩
    apply Ends.bind
    apply Ends.raiseIf
    · intro hattached
      apply Ends.bind
      apply Ends.get
      rw [ht.lease]
      -- without a resolver the identity cannot be learned, with one the lease is ready
      have hprior : prior = true := by
        rw [ht.settled.attached] at hattached
        simpa using hattached
      have hresolver : w.lease.identityResolver = false := by
        by_contra hc
        apply hnot
        refine ⟨?_, fun _ _ => ⟨hprior, by simpa using hc⟩⟩
        intro hfalse
        rw [hprior] at hfalse
        cases hfalse
      apply Ends.ite
      · intro hsome
        rw [hnone] at hsome
        cases hsome
      intro _
      rw [hresolver]
      apply Ends.raiseIf
      · intro hc
        exact absurd hexact hc
      · intro _
        trivial
    · intro _
      trivial
  · intro hknown
    apply Ends.pure
    have howned : ¬ (prior = false → w.lease.acquiredByRun = true) := by
      intro howned
      exact hnot ⟨howned, fun hexact hnone => absurd ⟨hexact, hnone⟩ hknown⟩
    rw [Classical.not_imp] at howned
    obtain ⟨hprior, hunacquired⟩ := howned
    rw [Bool.not_eq_true] at hunacquired
    apply Ends.bind
    unfold releaseBy
    rw [hunacquired]
    apply Ends.bind
    apply (ends_true (w := t)).mono _ fun _ _ _ => trivial
    intro linux u _
    apply Ends.raiseIf
    · intro hc
      apply absurd _ hc
      left
      rw [ht.settled.attached]
      exact hprior
    · intro _
      trivial

end Total

end SwitchTrade.Usb

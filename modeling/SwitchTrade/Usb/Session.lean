import SwitchTrade.Usb.Lease

/-!
# One lease over its processes

A session is the life of one recovery file: a process acquires the adapter, and that process
or later ones release it. What ends one process and begins another is free, and so is every
answer a call meets. Each end of a call leaves what the session has begun (`Begun`): the
adapter is known as it was read when `acquire` began, the lease and the file agree with that
reading, and no detach was issued unless it showed the adapter detached.
-/

namespace SwitchTrade.Usb

open InPlace Transition

/-- The adapter of a reading of Windows that found it. -/
def Entry.reading : Entry → Option UsbAdapter
  | .windows now => now
  | _ => none

/-- The first reading of the adapter: the one `acquire` began with. -/
def opened (log : List Entry) : Option UsbAdapter := log.reverse.findSome? Entry.reading

theorem opened_cons {e : Entry} {log : List Entry} {a : UsbAdapter} (h : opened log = some a) :
    opened (e :: log) = some a := by
  unfold opened at h ⊢
  rw [List.reverse_cons, List.findSome?_append, h]
  rfl

/-- The value is one `fromRecovery` takes, and it tells the attachment `prior`. -/
structure Recovery.Sound (host : Host) (prior : Bool) (value : Recovery) : Prop where
  schema : value.schema = 1
  named : value.instanceId ≠ ""
  bus : busIdMatches value.busId = true
  supported : host.supported value.usbId = true
  identity : ∀ id, value.linuxIdentity = some id → validLinuxIdentity id = true
  prior : value.priorAttached = prior

/-- The session has begun with the adapter attached or not as `prior` tells, and its recovery
file is there. -/
structure Begun (host : Host) (prior : Bool) (w : Working) : Prop where
  opened : ∃ a, opened w.log = some a ∧ a.attached = prior
  adapter : w.lease.adapter.attached = prior
  supported : host.supported w.lease.adapter.usbId = true
  identity : ∀ id, w.lease.linuxIdentity = some id → validLinuxIdentity id = true
  acquired : w.lease.acquiredByRun = true → prior = false
  file : ∃ r, w.file = some r ∧ r.Sound host prior
  detached : ∀ bus, Entry.command (detachCommand bus) ∈ w.log → prior = false

/-! ## Statements that read -/

/-- A predicate that does not look at the answers still to come. -/
def Blind (P : Working → Prop) : Prop := ∀ w answers, P w → P { w with answers := answers }

section Reads

variable {P : Working → Prop} (hP : Blind P)

include hP

theorem ask_keeps {α : Type} (next : Answers → Option (α × Answers)) : Keeps P (ask next) := by
  intro w h
  apply Ends.intro
  · intro a t hr
    unfold ask at hr
    simp only [EStateM.run] at hr
    split at hr
    · cases hr
      exact hP w _ h
    · cases hr
  · intro e t hr
    unfold ask at hr
    simp only [EStateM.run] at hr
    split at hr
    · cases hr
    · cases hr
      exact h

omit hP in
theorem answer_keeps {α : Type} (x : Except Raised α) : Keeps P (answer x) := by
  cases x with
  | ok a => exact Keeps.pure a
  | error e => exact Keeps.throw _

omit hP in
theorem raiseGiven_keeps (x : Option Raised) : Keeps P (raiseGiven x) := by
  cases x with
  | some e => exact Keeps.throw _
  | none => exact Keeps.pure _

theorem checkpoint_keeps : Keeps P checkpoint :=
  (ask_keeps hP _).bind raiseGiven_keeps

theorem run_keeps {α : Type} {next : Answers → Option (Except Raised (Completed α) × Answers)}
    {command : List String} {code gate : String} (hnote : Keeps P (note (.command command))) :
    Keeps P (run next command code gate) := by
  apply hnote.bind
  intro _
  apply (ask_keeps hP _).bind
  intro x
  cases x with
  | ok result => exact (Keeps.raiseIf _ _).bind fun _ => Keeps.pure _
  | error e => exact (Keeps.raiseIf _ _).bind fun _ => Keeps.throw _

theorem inventory_keeps (hnote : Keeps P (note (.command ["usbipd.exe", "state"]))) :
    Keeps P inventory := by
  apply (run_keeps hP hnote).bind
  intro x
  cases x with
  | ok devices => exact Keeps.pure _
  | error e => exact Keeps.throw _

end Reads

/-! ## What has begun stays -/

namespace Begun

variable {host : Host} {prior : Bool}

theorem blind : Blind (Begun host prior) := fun _ _ h => { h with }

/-- The value a begun lease writes. -/
theorem recovery_sound {w : Working} (h : Begun host prior w) (attachIntent : Bool) :
    (w.lease.recovery attachIntent).Sound host prior where
  schema := rfl
  named := w.lease.adapter.instance_named
  bus := w.lease.adapter.bus_matches
  supported := h.supported
  identity := h.identity
  prior := h.adapter

theorem note {entry : Entry} (he : ∀ bus, entry = .command (detachCommand bus) → prior = false) :
    Keeps (Begun host prior) (note entry) := by
  apply Keeps.modify
  intro w h
  obtain ⟨a, ha, hattached⟩ := h.opened
  refine { h with opened := ⟨a, opened_cons ha, hattached⟩, detached := ?_ }
  intro bus hmem
  rcases List.mem_cons.mp hmem with hentry | hmem
  · exact he bus hentry.symm
  · exact h.detached bus hmem

theorem note_windows (now : Option UsbAdapter) :
    Keeps (Begun host prior) (Usb.note (.windows now)) := by
  apply note
  intro bus he
  cases he

/-- A command that is no detach, or one for an adapter that was detached. -/
theorem run {α : Type} {next : Answers → Option (Except Raised (Completed α) × Answers)}
    {command : List String} {code gate : String}
    (hc : ∀ bus, command = detachCommand bus → prior = false) :
    Keeps (Begun host prior) (run next command code gate) := by
  apply run_keeps blind
  apply note
  intro bus he
  cases he
  exact hc bus rfl

theorem inventory : Keeps (Begun host prior) inventory := by
  apply inventory_keeps blind
  apply note
  intro bus he
  simp [detachCommand] at he

/-- The adapter `current` gives back is of the profile the lease is for. -/
theorem current {w : Working} (h : Begun host prior w) :
    Ends (current host) (fun a t => host.supported a.usbId = true ∧ Begun host prior t)
      (fun _ t => Begun host prior t) w := by
  apply Ends.bind
  apply Ends.get
  apply (inventory w h).seq
  intro devices t ht
  split
  next item hitem =>
    by_cases husb : item.usbId ≠ w.lease.adapter.usbId
    · apply Ends.bind
      apply Ends.raiseIf (fun hn => absurd husb hn)
      intro _
      exact ht
    · apply Ends.bind
      apply Ends.raiseIf _ (fun hc => absurd hc husb)
      intro _
      apply (note_windows (some item) t ht).seq
      intro _ u hu
      apply Ends.pure
      have husb' : item.usbId = w.lease.adapter.usbId := Classical.not_not.mp husb
      rw [husb']
      exact ⟨h.supported, hu⟩
  next => exact Ends.throw ht

theorem currentAfterDetach : Keeps (Begun host prior) (currentAfterDetach host) := by
  apply Keeps.bind Keeps.get
  intro w
  apply inventory.bind
  intro devices
  split
  · exact (note_windows none).bind fun _ => Keeps.pure _
  next item _ =>
    exact (Keeps.raiseIf _ _).bind fun _ => (note_windows (some item)).bind fun _ => Keeps.pure _
  · exact Keeps.throw _

theorem probe : Keeps (Begun host prior) probe := by
  apply Keeps.bind Keeps.get
  intro w
  apply Keeps.bind (Keeps.raiseIf _ _)
  intro _
  apply (ask_keeps blind _).bind
  intro x
  apply (answer_keeps x).bind
  intro value
  apply Keeps.bind
  · apply note
    intro bus he
    cases he
  · intro _
    exact Keeps.pure _

theorem writeFile (attachIntent : Bool) : Keeps (Begun host prior) (writeFile attachIntent) := by
  apply Keeps.modify
  intro w h
  exact { h with file := ⟨_, rfl, h.recovery_sound attachIntent⟩ }

theorem persist (attachIntent : Bool) : Keeps (Begun host prior) (persist attachIntent) := by
  apply (ask_keeps blind _).bind
  intro x
  cases x with
  | replaced => exact writeFile attachIntent
  | refused => exact Keeps.throw _
  | replacedThenRaised => exact (writeFile attachIntent).bind fun _ => Keeps.throw _

theorem resolve (gate : String) : ∀ w, Begun host prior w →
    Ends (resolve gate) (fun id t => validLinuxIdentity id = true ∧ Begun host prior t)
      (fun _ t => Begun host prior t) w := by
  intro w h
  apply (ask_keeps blind _ w h).seq
  intro x t ht
  cases x with
  | ok identity =>
    apply Ends.bind
    apply Ends.raiseIf
    · intro hvalid
      exact Ends.pure ⟨by simpa using hvalid, ht⟩
    · intro _
      exact ht
  | error e =>
    apply Ends.bind
    apply Ends.raiseIf
    · intro _
      exact ht
    · intro _
      exact ht

theorem bindLinuxIdentity (attachIntent : Bool) (gate : String) :
    Keeps (Begun host prior) (bindLinuxIdentity attachIntent gate) := by
  apply Keeps.bind Keeps.get
  intro w
  apply Keeps.ite
  · intro _
    exact Keeps.pure _
  intro _
  apply Keeps.ite
  · intro _
    exact Keeps.raiseIf _ _
  intro _
  apply Keeps.bind_of (resolve gate)
  intro identity hvalid
  apply Keeps.bind
  · apply Keeps.modify
    intro v h
    refine { h with identity := ?_ }
    intro id hid
    cases hid
    exact hvalid
  · intro _
    exact persist attachIntent

theorem setActive (active : Bool) : Keeps (Begun host prior) (setActive active) := by
  apply Keeps.modify
  intro w h
  exact { h with }

/-! ## `acquire` and `release` -/

theorem acquireAttached : Keeps (Begun host prior) acquireAttached := by
  apply (bindLinuxIdentity _ _).bind
  intro _
  apply probe.bind
  intro linux
  exact Keeps.raiseIf _ _

theorem enumerate (ticks : List Bool) (stable : Nat) (linux : Option Linux) :
    Keeps (Begun host prior) (enumerate host ticks stable linux) := by
  induction ticks generalizing stable linux with
  | nil => exact Keeps.throw _
  | cons tick ticks ih =>
    cases tick with
    | false => exact Keeps.pure _
    | true =>
      apply (checkpoint_keeps blind).bind
      intro _
      apply Keeps.bind_of fun w h => current h
      intro now _
      apply Keeps.bind Keeps.get
      intro w
      apply Keeps.bind (Keeps.raiseIf _ _)
      intro _
      apply probe.bind
      intro reading
      apply Keeps.ite
      · intro _
        exact Keeps.pure _
      · intro _
        exact ih _ _

theorem acquireDetached (busId : String) (hprior : prior = false) :
    Keeps (Begun host prior) (acquireDetached host busId) := by
  have hcommand : ∀ {command : List String} {code gate : String},
      Keeps (Begun host prior) (Usb.run Answers.nextCommand command code gate) :=
    run fun _ _ => hprior
  apply Keeps.bind Keeps.get
  intro w
  apply Keeps.bind (Keeps.check _)
  intro command
  apply hcommand.bind
  intro _
  apply Keeps.bind
  · apply Keeps.modify
    intro v h
    exact { h with acquired := fun _ => hprior }
  intro _
  apply (persist true).bind
  intro _
  apply hcommand.bind
  intro _
  apply (bindLinuxIdentity _ _).bind
  intro _
  apply Keeps.bind Keeps.get
  intro v
  apply (enumerate _ _ _).bind
  intro x
  exact Keeps.raiseIf _ _

theorem followBus {now : UsbAdapter} (hsupported : host.supported now.usbId = true)
    (hprior : prior = false) : Keeps (Begun host prior) (followBus now) := by
  apply Keeps.bind Keeps.get
  intro w
  apply Keeps.ite
  · intro _
    exact Keeps.pure _
  intro _ v h
  apply Ends.bind
  apply Ends.raiseIf
  · intro hattached
    apply Ends.modify
    have hdetached : now.attached = prior := by
      rw [hprior]
      simpa using hattached
    exact { h with adapter := hdetached, supported := hsupported }
  · intro _
    exact h

theorem awaitReturn (ticks : List Bool) (seen : Seen) :
    Keeps (Begun host prior) (awaitReturn host ticks seen) := by
  induction ticks generalizing seen with
  | nil => exact Keeps.throw _
  | cons tick ticks ih =>
    cases tick with
    | false => exact Keeps.pure _
    | true =>
      apply currentAfterDetach.bind
      intro now
      apply probe.bind
      intro linux
      apply Keeps.ite
      · intro _
        exact Keeps.pure _
      · intro _
        exact ih _

theorem detach (now : UsbAdapter) (hprior : prior = false) :
    Keeps (Begun host prior) (detach now) := by
  apply probe.bind
  intro linux
  apply Keeps.bind (Keeps.raiseIf _ _)
  intro _
  exact run fun _ _ => hprior

theorem detachIfAttached (now : UsbAdapter) (hprior : prior = false) :
    Keeps (Begun host prior) (detachIfAttached now) := by
  apply Keeps.ite
  · intro _
    exact detach now hprior
  · intro _
    exact Keeps.pure _

theorem releaseAcquired {now : UsbAdapter} (hsupported : host.supported now.usbId = true)
    (hprior : prior = false) : Keeps (Begun host prior) (releaseAcquired host now) := by
  apply (followBus hsupported hprior).bind
  intro _
  apply (detachIfAttached now hprior).bind
  intro _
  apply Keeps.bind Keeps.get
  intro w
  apply (awaitReturn _ _).bind
  intro seen
  exact Keeps.raiseIf _ _

theorem releasePrior (now : UsbAdapter) : Keeps (Begun host prior) (releasePrior now) := by
  apply probe.bind
  intro linux
  exact Keeps.raiseIf _ _

theorem releaseBy {acquiredByRun : Bool} {now : UsbAdapter}
    (hsupported : host.supported now.usbId = true)
    (hacquired : acquiredByRun = true → prior = false) :
    Keeps (Begun host prior) (releaseBy host acquiredByRun now) := by
  apply Keeps.ite
  · intro h
    exact releaseAcquired hsupported (hacquired h)
  · intro _
    exact releasePrior now

theorem bindForRelease (now : UsbAdapter) : Keeps (Begun host prior) (bindForRelease now) := by
  apply Keeps.bind Keeps.get
  intro w
  apply Keeps.ite
  · intro _
    apply Keeps.bind (Keeps.raiseIf _ _)
    intro _
    exact bindLinuxIdentity _ _
  · intro _
    exact Keeps.pure _

/-- Nothing is left to put back. -/
structure Done (w : Working) : Prop where
  file : w.file = none
  inactive : w.lease.active = false
  opened : ∃ a, Usb.opened w.log = some a
  detached : ∀ bus, Entry.command (detachCommand bus) ∈ w.log →
    ∃ a, Usb.opened w.log = some a ∧ a.attached = false

theorem unlinkRecovery {w : Working} (h : Begun host prior w) (hactive : w.lease.active = false) :
    Ends unlinkRecovery (fun _ t => Done t) (fun _ t => Begun host prior t) w := by
  have hblind : Blind fun w => Begun host prior w ∧ w.lease.active = false :=
    fun _ _ h => ⟨blind _ _ h.1, h.2⟩
  have hask := ask_keeps hblind Answers.nextUnlink w ⟨h, hactive⟩
  apply (hask.mono (fun _ _ ht => ht) fun _ _ he => he.1).seq
  intro x t ht
  have hraise := (raiseGiven_keeps x : Keeps (fun w => Begun host prior w ∧
    w.lease.active = false) _) t ht
  apply (hraise.mono (fun _ _ hu => hu) fun _ _ he => he.1).seq
  intro _ u hu
  apply Ends.modify
  obtain ⟨a, ha, hattached⟩ := hu.1.opened
  refine ⟨rfl, hu.2, ⟨a, ha⟩, ?_⟩
  intro bus hmem
  exact ⟨a, ha, hattached.trans (hu.1.detached bus hmem)⟩

/-- A release that returns leaves nothing; one that is cut off leaves what was begun. -/
theorem release {w : Working} (h : Begun host prior w) :
    Ends (release host) (fun _ t => Done t) (fun _ t => Begun host prior t) w := by
  apply Ends.bind
  apply Ends.get
  apply Ends.ite
  · rintro ⟨hfile, -⟩
    obtain ⟨r, hr, -⟩ := h.file
    rw [hfile] at hr
    cases hr
  intro _
  apply (current h).seq
  intro now t ⟨hsupported, ht⟩
  apply (bindForRelease now t ht).seq
  intro _ u hu
  apply (releaseBy hsupported h.acquired u hu).seq
  intro _ v hv
  apply Ends.bind
  apply Ends.modify
  have hv' : Begun host prior { v with lease := { v.lease with active := false } } := { hv with }
  apply (unlinkRecovery hv' rfl).seq
  intro _ t ht
  exact Ends.pure ht

theorem acquireFrom {now : UsbAdapter} (hnow : now.attached = prior) :
    Keeps (Begun host prior) (acquireFrom host now) := by
  apply Keeps.ite
  · intro _
    exact acquireAttached
  · intro hdetached
    apply acquireDetached
    rw [← hnow]
    simpa using hdetached

end Begun

/-! ## How a session begins -/

/-- `acquire` has changed nothing yet, and no command but the inventory was issued. -/
structure Untouched (lease : Lease) (w : Working) : Prop where
  lease : w.lease = lease
  file : w.file = none
  commands : ∀ c, Entry.command c ∈ w.log → c = ["usbipd.exe", "state"]

/-- A lease as it is made, for an adapter of a supported profile. -/
structure Lease.Fresh (host : Host) (lease : Lease) : Prop where
  supported : host.supported lease.adapter.usbId = true
  inactive : lease.active = false
  unacquired : lease.acquiredByRun = false
  unbound : lease.linuxIdentity = none

namespace Untouched

variable {host : Host} {lease : Lease}

theorem note {w : Working} {entry : Entry} (h : Untouched lease w)
    (he : ∀ c, entry = .command c → c = ["usbipd.exe", "state"]) :
    Untouched lease { w with log := entry :: w.log } := by
  refine { h with commands := ?_ }
  intro c hmem
  rcases List.mem_cons.mp hmem with hentry | hmem
  · exact he c hentry.symm
  · exact h.commands c hmem

/-- Nothing changed, and the adapter was not read. -/
def Unread (lease : Lease) (w : Working) : Prop := Untouched lease w ∧ opened w.log = none

theorem unread_blind : Blind (Unread lease) := fun _ _ h => ⟨{ h.1 with }, h.2⟩

theorem note_inventory :
    Keeps (Unread lease) (Usb.note (.command ["usbipd.exe", "state"])) := by
  apply Keeps.modify
  intro w h
  refine ⟨h.1.note ?_, ?_⟩
  · intro c hc
    cases hc
    rfl
  · have hread := h.2
    unfold opened at hread ⊢
    rw [List.reverse_cons, List.findSome?_append, hread]
    rfl

theorem current {w : Working} (h : Unread lease w) :
    Ends (current host) (fun a t => Untouched lease t ∧ opened t.log = some a)
      (fun _ t => Untouched lease t) w := by
  apply Ends.bind
  apply Ends.get
  have hinventory := inventory_keeps unread_blind note_inventory w h
  apply (hinventory.mono (fun _ _ ht => ht) fun _ _ ht => ht.1).seq
  intro devices t ht
  split
  next item _ =>
    apply Ends.bind
    apply Ends.raiseIf
    · intro _
      apply Ends.bind
      apply Ends.modify
      apply Ends.pure
      refine ⟨ht.1.note fun c hc => (by cases hc), ?_⟩
      have hread := ht.2
      unfold opened at hread ⊢
      rw [List.reverse_cons, List.findSome?_append, hread]
      rfl
    · intro _
      exact ht.1
  next => exact Ends.throw ht.1

/-- The first write begins the session, unless it fails before the file is there. -/
theorem persist {w : Working} {a : UsbAdapter} (attachIntent : Bool) (h : Untouched lease w)
    (hlease : lease.Fresh host) (ha : opened w.log = some a)
    (hattached : a.attached = lease.adapter.attached) :
    Ends (persist attachIntent) (fun _ t => Begun host a.attached t)
      (fun _ t => Untouched lease t ∨ Begun host a.attached t) w := by
  have hblind : Blind fun w => Untouched lease w ∧ opened w.log = some a :=
    fun _ _ h => ⟨{ h.1 with }, h.2⟩
  have hask := ask_keeps hblind Answers.nextWrite w ⟨h, ha⟩
  apply (hask.mono (fun _ _ ht => ht) fun _ _ ht => .inl ht.1).seq
  intro x t ht
  have hbegun : Begun host a.attached
      { t with file := some (t.lease.recovery attachIntent) } := by
    have hl := ht.1.lease
    exact {
      opened := ⟨a, ht.2, rfl⟩
      adapter := by rw [hl, hattached]
      supported := by rw [hl]; exact hlease.supported
      identity := by
        rw [hl, hlease.unbound]
        intro id hid
        cases hid
      acquired := by
        rw [hl, hlease.unacquired]
        intro hc
        cases hc
      file := by
        refine ⟨_, rfl, rfl, t.lease.adapter.instance_named, t.lease.adapter.bus_matches, ?_, ?_,
          ?_⟩
        · show host.supported t.lease.adapter.usbId = true
          rw [hl]
          exact hlease.supported
        · show ∀ id, t.lease.linuxIdentity = some id → validLinuxIdentity id = true
          rw [hl, hlease.unbound]
          intro id hid
          cases hid
        · show t.lease.adapter.attached = a.attached
          rw [hl, hattached]
      detached := by
        intro bus hmem
        have hc := ht.1.commands _ hmem
        simp [detachCommand] at hc }
  cases x with
  | replaced => exact Ends.modify hbegun
  | refused => exact Ends.throw (.inl ht.1)
  | replacedThenRaised =>
    apply Ends.bind
    apply Ends.modify
    exact Ends.throw (.inr hbegun)

/-- However `acquire` ends, it has begun the session or changed nothing. -/
theorem acquire {w : Working} (h : Unread lease w) (hlease : lease.Fresh host) :
    Ends (acquire host) (fun _ t => ∃ prior, Begun host prior t)
      (fun _ t => Untouched lease t ∨ ∃ prior, Begun host prior t) w := by
  have hcheckpoint := checkpoint_keeps unread_blind w h
  apply (hcheckpoint.mono (fun _ _ ht => ht) fun _ _ ht => .inl ht.1).seq
  intro _ t ht
  apply Ends.bind
  apply Ends.get
  have hl := ht.1.lease
  apply Ends.ite
  · intro hactive
    rw [hl, hlease.inactive] at hactive
    cases hactive
  intro _
  apply ((current ht).mono (fun _ _ hu => hu) fun _ _ hu => .inl hu).seq
  intro a u hu
  apply Ends.bind
  refine Ends.raiseIf ?_ (fun _ => .inl hu.1)
  intro hsame
  have hattached : a.attached = lease.adapter.attached := by
    rw [hl] at hsame
    by_contra hne
    exact hsame (.inr hne)
  have hpersist := persist (!a.attached) hu.1 hlease hu.2 hattached
  apply (hpersist.mono (fun _ _ hv => hv) fun _ _ hv => hv.imp id fun hb => ⟨_, hb⟩).seq
  intro _ v hv
  apply ((Begun.acquireFrom rfl v hv).mono (fun _ _ hb => hb) fun _ _ hb => .inr ⟨_, hb⟩).seq
  intro _ v hv
  have hcheckpoint := checkpoint_keeps Begun.blind v hv
  apply (hcheckpoint.mono (fun _ _ hb => hb) fun _ _ hb => .inr ⟨_, hb⟩).seq
  intro _ v hv
  apply ((Begun.setActive true v hv).mono (fun _ _ hb => hb) fun _ _ hb => .inr ⟨_, hb⟩).seq
  intro _ v hv
  apply Ends.bind
  apply Ends.get
  exact Ends.pure ⟨_, hv⟩

end Untouched

end SwitchTrade.Usb

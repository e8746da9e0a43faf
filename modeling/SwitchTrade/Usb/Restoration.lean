import SwitchTrade.Usb.Settled

/-!
# Restoration of the adapter

The runs of one lease: `acquire` once, then any number of releases, in the process that
acquired or in one that reads the recovery file; every call may return, raise or be cut off.
In every reachable state a detach was issued only for an adapter that was read detached, and
the recovery file is one `fromRecovery` takes. Whether the adapter can be put back is exactly
whether the lease is `Ready` (`lease_restoration`).
-/

namespace SwitchTrade.Usb

open InPlace Transition

/-! ## The runs -/

structure Session where
  /-- The lease of the process that runs, if one does. -/
  process : Option Lease
  file : Option Recovery
  log : List Entry
  /-- `acquire` has been called. -/
  begun : Bool
  /-- A release has returned that had a file or an active lease to release. -/
  returned : Bool

inductive Action where
  | acquire (answers : Answers)
  | release (answers : Answers)
  | exit
  | recover (distro runtimeRoot : String) (identityResolver : Bool)

namespace Session

def working (s : Session) (lease : Lease) (answers : Answers) : Working :=
  ⟨lease, s.file, s.log, answers⟩

/-- The session after a call: a call that is cut off ends the process. -/
def ended {α : Type} (s : Session) : EStateM.Result Failure Working α → Session
  | .ok _ w => { s with process := some w.lease, file := w.file, log := w.log }
  | .error (.raised _) w => { s with process := some w.lease, file := w.file, log := w.log }
  | .error .crashed w => { s with process := none, file := w.file, log := w.log }

/-- There is something to release. -/
def Record (s : Session) (lease : Lease) : Prop := s.file ≠ none ∨ lease.active = true

instance (s : Session) (lease : Lease) : Decidable (s.Record lease) := by
  unfold Record
  infer_instance

def isOk {α : Type} : EStateM.Result Failure Working α → Bool
  | .ok _ _ => true
  | .error _ _ => false

def step (host : Host) (s : Session) : Action → Option Session
  | .acquire answers =>
    match s.process with
    | some lease =>
      if s.begun then none
      else some { s.ended ((acquire host).run (s.working lease answers)) with begun := true }
    | none => none
  | .release answers =>
    match s.process with
    | some lease =>
      let result := (release host).run (s.working lease answers)
      let restored := isOk result && decide (s.Record lease)
      some { s.ended result with returned := s.returned || restored }
    | none => none
  | .exit => some { s with process := none }
  | .recover distro runtimeRoot identityResolver =>
    match s.file with
    | some value =>
      match fromRecovery host distro runtimeRoot identityResolver value with
      | .ok lease => some { s with process := some lease }
      | .error _ => some s
    | none => none

/-- A process has made a lease for an adapter of a supported profile; its recovery file is not
there. -/
def Init (host : Host) (s : Session) : Prop :=
  ∃ adapter distro runtimeRoot identityResolver, host.supported adapter.usbId = true ∧
    s = ⟨some (Lease.new adapter distro runtimeRoot identityResolver), none, [], false, false⟩

end Session

def lifecycle (host : Host) : System Session Action :=
  System.ofStep (Session.Init host) (Session.step host)

/-! ## The invariant of the runs -/

/-- An attach command was issued. -/
def AttachIssued (log : List Entry) : Prop :=
  ∃ lease busId, Entry.command (attachCommand lease busId) ∈ log

structure Session.Sound (host : Host) (s : Session) : Prop where
  detached : ∀ bus, Entry.command (detachCommand bus) ∈ s.log →
    ∃ a, opened s.log = some a ∧ a.attached = false
  file : ∀ r, s.file = some r → ∃ a, opened s.log = some a ∧ r.Sound host a.attached
  process : ∀ lease, s.process = some lease →
    s.file = none ∧ lease.active = false ∨
      ∃ prior, ∀ answers, Begun host prior (s.working lease answers)
  fresh : s.begun = false →
    s.file = none ∧ s.log = [] ∧ ∀ lease, s.process = some lease → lease.Fresh host
  returned : AttachIssued s.log → s.file ≠ none ∨ s.returned = true

namespace Session

variable {host : Host}

theorem Sound.of_init {s : Session} (h : s.Init host) : s.Sound host := by
  obtain ⟨adapter, distro, runtimeRoot, identityResolver, hsupported, rfl⟩ := h
  constructor
  · intro bus hmem
    cases hmem
  · intro r hr
    cases hr
  · intro lease hl
    cases hl
    exact .inl ⟨rfl, rfl⟩
  · intro _
    refine ⟨rfl, rfl, ?_⟩
    intro lease hl
    cases hl
    exact ⟨hsupported, rfl, rfl, rfl⟩
  · rintro ⟨lease, busId, hmem⟩
    cases hmem

/-- What a call from a begun session leaves when it does not return. -/
theorem Sound.of_begun {s : Session} {prior : Bool} {w : Working} (h : Begun host prior w)
    (hbegun : s.begun = true) (hfile : s.file = w.file) (hlog : s.log = w.log)
    (hprocess : ∀ lease, s.process = some lease → lease = w.lease) : s.Sound host := by
  obtain ⟨a, ha, hattached⟩ := h.opened
  constructor
  · intro bus hmem
    rw [hlog] at hmem ⊢
    exact ⟨a, ha, hattached.trans (h.detached bus hmem)⟩
  · intro r hr
    obtain ⟨r', hr', hsound⟩ := h.file
    rw [hfile, hr'] at hr
    cases hr
    rw [hlog, ← hattached] at *
    exact ⟨a, ha, hsound⟩
  · intro lease hl
    right
    refine ⟨prior, ?_⟩
    intro answers
    rw [hprocess lease hl]
    unfold working
    rw [hfile, hlog]
    exact { h with }
  · intro hc
    rw [hbegun] at hc
    cases hc
  · intro _
    left
    obtain ⟨r, hr, -⟩ := h.file
    rw [hfile, hr]
    exact Option.some_ne_none r

/-- What `acquire` leaves when it has changed nothing. -/
theorem Sound.of_untouched {s : Session} {lease : Lease} {w : Working}
    (h : Untouched lease w) (hlease : lease.Fresh host) (hbegun : s.begun = true)
    (hfile : s.file = w.file) (hlog : s.log = w.log)
    (hprocess : ∀ l, s.process = some l → l = w.lease) : s.Sound host := by
  constructor
  · intro bus hmem
    rw [hlog] at hmem
    have hc := h.commands _ hmem
    simp [detachCommand] at hc
  · intro r hr
    rw [hfile, h.file] at hr
    cases hr
  · intro l hl
    left
    rw [hprocess l hl, h.lease]
    exact ⟨hfile.trans h.file, hlease.inactive⟩
  · intro hc
    rw [hbegun] at hc
    cases hc
  · rintro ⟨l, busId, hmem⟩
    rw [hlog] at hmem
    have hc := h.commands _ hmem
    simp [attachCommand] at hc

theorem Sound.acquire {s : Session} {lease : Lease} {answers : Answers} (h : s.Sound host)
    (hprocess : s.process = some lease) (hbegun : s.begun = false) :
    Sound host { s.ended ((acquire host).run (s.working lease answers)) with begun := true } := by
  obtain ⟨hfile, hlog, hfresh⟩ := h.fresh hbegun
  have hlease := hfresh lease hprocess
  have hunread : Untouched.Unread lease (s.working lease answers) := by
    refine ⟨⟨rfl, hfile, ?_⟩, ?_⟩
    · intro c hmem
      unfold working at hmem
      rw [hlog] at hmem
      cases hmem
    · unfold working
      rw [hlog]
      rfl
  have hends := Untouched.acquire hunread hlease
  cases hr : (Usb.acquire host).run (s.working lease answers) with
  | ok evidence w =>
    obtain ⟨prior, hw⟩ := hends.of_ok hr
    exact .of_begun hw rfl rfl rfl fun l hl => by cases hl; rfl
  | error e w =>
    rcases hends.of_error hr with hw | ⟨prior, hw⟩
    · cases e with
      | raised e => exact .of_untouched hw hlease rfl rfl rfl fun l hl => by cases hl; rfl
      | crashed => exact .of_untouched hw hlease rfl rfl rfl fun l hl => by cases hl
    · cases e with
      | raised e => exact .of_begun hw rfl rfl rfl fun l hl => by cases hl; rfl
      | crashed => exact .of_begun hw rfl rfl rfl fun l hl => by cases hl

/-- With nothing to release, `release` returns at once. -/
theorem release_nothing (host : Host) (w : Working) (hfile : w.file = none)
    (hactive : w.lease.active = false) :
    (release host).run w = .ok ⟨true, true, true, false⟩ w := by
  unfold release
  rw [EStateM.run_bind]
  show (if w.file = none ∧ w.lease.active = false then _ else _ : Call Released).run w = _
  rw [if_pos ⟨hfile, hactive⟩]
  rfl

theorem Sound.release {s : Session} {lease : Lease} {answers : Answers} (h : s.Sound host)
    (hprocess : s.process = some lease) :
    ∀ t, s.step host (.release answers) = some t → t.Sound host := by
  intro t ht
  simp only [step, hprocess] at ht
  cases ht
  by_cases hrecord : s.Record lease
  · have hbegun : s.begun = true := by
      by_contra hc
      obtain ⟨hfile, -, hfresh⟩ := h.fresh (by simpa using hc)
      rcases hrecord with hf | ha
      · exact hf hfile
      · rw [(hfresh lease hprocess).inactive] at ha
        cases ha
    rcases h.process lease hprocess with ⟨hfile, hactive⟩ | ⟨prior, hb⟩
    · rcases hrecord with hf | ha
      · exact absurd hfile hf
      · rw [hactive] at ha
        cases ha
    have hends := Begun.release (hb answers)
    cases hr : (Usb.release host).run (s.working lease answers) with
    | ok out w =>
      have hdone := hends.of_ok hr
      constructor
      · exact hdone.detached
      · intro r hf
        have hnone : w.file = some r := hf
        rw [hdone.file] at hnone
        cases hnone
      · intro l hl
        cases hl
        exact .inl ⟨hdone.file, hdone.inactive⟩
      · intro hc
        have hfalse : s.begun = false := hc
        rw [hbegun] at hfalse
        cases hfalse
      · intro _
        right
        show (s.returned || (true && decide (s.Record lease))) = true
        rw [decide_eq_true hrecord]
        exact Bool.or_true _
    | error e w =>
      have hw := hends.of_error hr
      cases e with
      | raised e => exact .of_begun hw hbegun rfl rfl fun l hl => by cases hl; rfl
      | crashed => exact .of_begun hw hbegun rfl rfl fun l hl => by cases hl
  · have hfile : s.file = none := by
      by_contra hf
      exact hrecord (.inl hf)
    have hactive : lease.active = false := by
      by_contra ha
      exact hrecord (.inr (by simpa using ha))
    have hr := release_nothing host (s.working lease answers) hfile hactive
    rw [hr, decide_eq_false hrecord, Bool.and_false, Bool.or_false]
    have hsame : s.ended (.ok (⟨true, true, true, false⟩ : Released) (s.working lease answers)) =
        s := by
      cases s
      cases hprocess
      rfl
    rw [hsame]
    exact h

/-- A sound recovery value is taken, and the lease it gives has begun as the session did. -/
theorem fromRecovery_ok {value : Recovery} {prior : Bool} (h : value.Sound host prior)
    (distro runtimeRoot : String) (identityResolver : Bool) :
    ∃ lease, fromRecovery host distro runtimeRoot identityResolver value = .ok lease ∧
      lease.adapter.attached = prior ∧ lease.adapter.usbId = value.usbId ∧
      lease.linuxIdentity = value.linuxIdentity ∧
      (lease.acquiredByRun = true → prior = false) := by
  have hidentity : (value.linuxIdentity.any fun id => !validLinuxIdentity id) = false := by
    cases hid : value.linuxIdentity with
    | none => rfl
    | some id =>
      show (!validLinuxIdentity id) = false
      rw [h.identity id hid]
      rfl
  unfold fromRecovery
  rw [dif_pos ⟨h.named, h.bus⟩, if_neg, if_neg]
  · refine ⟨_, rfl, h.prior, rfl, rfl, ?_⟩
    intro hacquired
    have hnot : (value.attachIntent && !value.priorAttached) = true := hacquired
    rw [Bool.and_eq_true, h.prior] at hnot
    simpa using hnot.2
  · rw [h.supported]
    exact Bool.noConfusion
  · rintro (hschema | hinvalid)
    · exact hschema h.schema
    · rw [hidentity] at hinvalid
      cases hinvalid

theorem Sound.recover {s : Session} {value : Recovery} {lease : Lease} {distro runtimeRoot : String}
    {identityResolver : Bool} (h : s.Sound host) (hfile : s.file = some value)
    (hl : fromRecovery host distro runtimeRoot identityResolver value = .ok lease) :
    Sound host { s with process := some lease } := by
  obtain ⟨a, ha, hsound⟩ := h.file value hfile
  obtain ⟨lease', hl', hattached, husb, hidentity, hacquired⟩ :=
    fromRecovery_ok hsound distro runtimeRoot identityResolver
  rw [hl] at hl'
  cases hl'
  refine { h with process := ?_, fresh := ?_ }
  · intro l hl
    cases hl
    right
    refine ⟨a.attached, ?_⟩
    intro answers
    exact {
      opened := ⟨a, ha, rfl⟩
      adapter := hattached
      supported := by
        show host.supported lease.adapter.usbId = true
        rw [husb]
        exact hsound.supported
      identity := by
        show ∀ id, lease.linuxIdentity = some id → _
        rw [hidentity]
        exact hsound.identity
      acquired := hacquired
      file := ⟨value, hfile, hsound⟩
      detached := by
        intro bus hmem
        obtain ⟨b, hb, hdetached⟩ := h.detached bus hmem
        rw [ha] at hb
        cases hb
        exact hdetached }
  · intro hbegun
    have hnone := (h.fresh hbegun).1
    rw [hfile] at hnone
    cases hnone

theorem Sound.step {s t : Session} {action : Action} (h : s.Sound host)
    (ht : s.step host action = some t) : t.Sound host := by
  cases action with
  | acquire answers =>
    cases hprocess : s.process with
    | none => simp [Session.step, hprocess] at ht
    | some lease =>
      simp only [Session.step, hprocess] at ht
      by_cases hbegun : s.begun = true
      · rw [if_pos hbegun] at ht
        cases ht
      · rw [if_neg hbegun] at ht
        cases ht
        exact h.acquire hprocess (by simpa using hbegun)
  | release answers =>
    cases hprocess : s.process with
    | none => simp [Session.step, hprocess] at ht
    | some lease => exact h.release hprocess t ht
  | exit =>
    cases ht
    refine { h with process := ?_, fresh := ?_ }
    · intro lease hl
      cases hl
    · intro hbegun
      obtain ⟨hfile, hlog, -⟩ := h.fresh hbegun
      exact ⟨hfile, hlog, fun l hl => by cases hl⟩
  | recover distro runtimeRoot identityResolver =>
    cases hfile : s.file with
    | none => simp [Session.step, hfile] at ht
    | some value =>
      simp only [Session.step, hfile] at ht
      cases hl : fromRecovery host distro runtimeRoot identityResolver value with
      | ok lease =>
        rw [hl] at ht
        cases ht
        have hs := h.recover hfile hl
        rw [hfile] at hs
        exact hs
      | error e =>
        rw [hl] at ht
        cases ht
        exact h

theorem sound_of_reachable {s : Session} (h : (lifecycle host).Reachable System.Free s) :
    s.Sound host :=
  h.invariant (fun _ => Sound.of_init) fun _ _ _ hs _ hn => hs.step hn

end Session

/-! ## Restoration -/

/-- Every release of the lease that returns has last read both sides as they were, and once
they are as they were a release returns and removes the file. -/
def Restores (host : Host) (prior : Bool) (lease : Lease) (file : Option Recovery) : Prop :=
  (∀ answers out t, (release host).run ⟨lease, file, [], answers⟩ = .ok out t →
    Shows prior t.log) ∧
  ∀ answers now, Settled host prior lease.adapter now answers → Enough 4 3 1 answers →
    ∃ out t, (release host).run ⟨lease, file, [], answers⟩ = .ok out t ∧ t.file = none

def restingLinux (attached : Bool) : Linux where
  status := if attached then .present else .absent
  matchCount := some (if attached then 1 else 0)
  interfacePresent := some attached
  phyPresent := some attached
  interfacesUp := some 0
  failureCode := none
  stderrSha256 := none

theorem restingLinux_shows (attached : Bool) : (restingLinux attached).shows attached := by
  cases attached with
  | false => exact ⟨rfl, rfl, rfl, rfl, rfl⟩
  | true => exact ⟨rfl, rfl, rfl⟩

/-- The adapter back in the state it was taken from. -/
def settledAnswers (now : UsbAdapter) : Answers where
  checkpoints := []
  states := List.replicate 4 (.ok ⟨0, .ok [now]⟩)
  probes := List.replicate 3 (.ok (restingLinux now.attached))
  identities := [.ok "/sys/usb"]
  commands := []
  writes := [.replaced]
  ticks := [true, true, true]
  unlinks := [none]

theorem settledAnswers_enough (now : UsbAdapter) : Enough 4 3 1 (settledAnswers now) where
  states := Nat.le_refl 4
  probes := Nat.le_refl 3
  identities := Nat.le_refl 1
  writes := Nat.le_refl 1
  unlinks := Nat.le_refl 1
  ticks := ⟨[], rfl⟩

theorem settledAnswers_settled (host : Host) (adapter now : UsbAdapter)
    (hinstance : now.instanceId = adapter.instanceId) (hprofile : now.usbId = adapter.usbId) :
    Settled host now.attached adapter now (settledAnswers now) where
  states := by
    intro x hx
    refine ⟨[now], List.eq_of_mem_replicate hx, ?_⟩
    simp [sameInstance, hinstance]
  profile := hprofile
  attached := rfl
  probes := by
    intro x hx
    exact ⟨_, List.eq_of_mem_replicate hx, restingLinux_shows _⟩
  identities := by
    intro x hx
    rw [List.mem_singleton.mp hx]
    exact ⟨_, rfl, by decide⟩
  writes := by
    intro x hx
    exact List.mem_singleton.mp hx
  unlinks := by
    intro x hx
    exact List.mem_singleton.mp hx

theorem restores_iff_ready {host : Host} {prior : Bool} {lease : Lease} {file : Option Recovery}
    (hrecord : file ≠ none ∨ lease.active = true)
    (hacquired : lease.acquiredByRun = true → prior = false) :
    Restores host prior lease file ↔ lease.Ready prior := by
  constructor
  · rintro ⟨-, hreturns⟩
    by_contra hnot
    let now : UsbAdapter := { lease.adapter with attached := prior }
    have hsettled : Settled host prior lease.adapter now (settledAnswers now) :=
      settledAnswers_settled host lease.adapter now rfl rfl
    obtain ⟨out, t, hr, -⟩ := hreturns _ now hsettled (settledAnswers_enough now)
    have hblocked := release_blocked (w := ⟨lease, file, [], settledAnswers now⟩) hrecord hnot
      hsettled (settledAnswers_enough now)
    exact hblocked.of_ok hr
  · intro hready
    constructor
    · intro answers out t hr
      have hshows := (release_shows (w := ⟨lease, file, [], answers⟩) hrecord).of_ok hr
      have hprior : (!lease.acquiredByRun) = prior := by
        cases hp : prior with
        | false => rw [hready.owned hp]; rfl
        | true =>
          cases hc : lease.acquiredByRun with
          | false => rfl
          | true =>
            have hfalse := hacquired hc
            rw [hp] at hfalse
            cases hfalse
      rw [← hprior]
      exact hshows
    · intro answers now hsettled henough
      exact (release_returns (w := ⟨lease, file, [], answers⟩) hrecord hacquired hready hsettled
        henough).returns

/-- In every reachable state: a detach was issued only for an adapter that was read detached
when `acquire` began; the recovery file is one `fromRecovery` takes; a lease with something to
release restores the adapter exactly if it is ready; and one with nothing to release answers at
once, which happens only if no attach was issued or a release has returned before. -/
theorem lease_restoration (host : Host) {s : Session}
    (h : (lifecycle host).Reachable System.Free s) :
    (∀ busId, Entry.command (detachCommand busId) ∈ s.log →
      ∃ a, opened s.log = some a ∧ a.attached = false) ∧
    (∀ value, s.file = some value → ∀ distro runtimeRoot identityResolver,
      ∃ lease, fromRecovery host distro runtimeRoot identityResolver value = .ok lease) ∧
    ∀ lease, s.process = some lease →
      (s.Record lease → ∃ a, opened s.log = some a ∧
        (Restores host a.attached lease s.file ↔ lease.Ready a.attached)) ∧
      (¬ s.Record lease →
        (∀ answers, (release host).run (s.working lease answers) =
          .ok ⟨true, true, true, false⟩ (s.working lease answers)) ∧
        (AttachIssued s.log → s.returned = true)) := by
  have hs := Session.sound_of_reachable h
  refine ⟨hs.detached, ?_, ?_⟩
  · intro value hfile distro runtimeRoot identityResolver
    obtain ⟨a, -, hsound⟩ := hs.file value hfile
    obtain ⟨lease, hl, -⟩ :=
      Session.fromRecovery_ok hsound distro runtimeRoot identityResolver
    exact ⟨lease, hl⟩
  intro lease hprocess
  constructor
  · intro hrecord
    rcases hs.process lease hprocess with ⟨hfile, hactive⟩ | ⟨prior, hbegun⟩
    · rcases hrecord with hf | ha
      · exact absurd hfile hf
      · rw [hactive] at ha
        cases ha
    · have hb := hbegun (settledAnswers lease.adapter)
      obtain ⟨a, ha, hattached⟩ := hb.opened
      refine ⟨a, ha, ?_⟩
      rw [hattached]
      exact restores_iff_ready hrecord hb.acquired
  · intro hnothing
    have hfile : s.file = none := by
      by_contra hf
      exact hnothing (.inl hf)
    have hactive : lease.active = false := by
      by_contra ha
      exact hnothing (.inr (by simpa using ha))
    refine ⟨fun answers => Session.release_nothing host _ hfile hactive, ?_⟩
    intro hattach
    rcases hs.returned hattach with hf | hreturned
    · exact absurd hfile hf
    · exact hreturned

/-! ## Two runs -/

def radioHost : Host where
  casefold text := String.ofList (text.toList.map Char.toLower)
  sha256 _ := "a0540bf72c21323696e4dd52570de55e29b201c929bdee287c8a516df04e3249"
  supported usbId := usbId = "0bda:818b"
  nt := true

def radio (attached : Bool) : UsbAdapter where
  usbId := "0bda:818b"
  instanceId := "USB\\VID_0BDA&PID_818B\\RADIO-A"
  busId := "4-18"
  shared := true
  attached := attached
  bus_matches := by decide
  instance_named := by decide

def selected : Session :=
  ⟨some (Lease.new (radio false) "SwitchTrade" "/opt/switchtrade" false), none, [], false, false⟩

theorem selected_init : selected.Init radioHost :=
  ⟨radio false, "SwitchTrade", "/opt/switchtrade", false, by decide, rfl⟩

/-- The adapter is attached, and Linux shows it in both rounds. -/
def attachAnswers : Answers where
  checkpoints := List.replicate 4 none
  states := [.ok ⟨0, .ok [radio false]⟩, .ok ⟨0, .ok [radio true]⟩, .ok ⟨0, .ok [radio true]⟩]
  probes := List.replicate 2 (.ok (restingLinux true))
  identities := []
  commands := [.ok ⟨0, ()⟩, .ok ⟨0, ()⟩]
  writes := [.replaced, .replaced]
  ticks := [true, true]
  unlinks := []

/-- The modules cannot be loaded. -/
def moduleAnswers : Answers := { attachAnswers with commands := [.ok ⟨1, ()⟩] }

def attachedLease : Lease :=
  { Lease.new (radio false) "SwitchTrade" "/opt/switchtrade" false with
    acquiredByRun := true, active := true }

/-- What is known of a state that a list of actions leads to. -/
theorem reachable_of_play (actions : List Action) {process : Option Lease}
    {reading : Option UsbAdapter}
    (h : ((System.play (Session.step radioHost) System.Free selected actions).map fun s =>
      (s.process, opened s.log)) = some (process, reading)) :
    ∃ s, (lifecycle radioHost).Reachable System.Free s ∧ s.process = process ∧
      opened s.log = reading := by
  obtain ⟨s, hs, hvalue⟩ := Option.map_eq_some_iff.mp h
  cases hvalue
  exact ⟨s, ⟨selected, selected_init, System.run_of_play hs⟩, rfl, rfl⟩

theorem lease_restoration_attached :
    ∃ s lease, (lifecycle radioHost).Reachable System.Free s ∧ s.process = some lease ∧
      lease.active = true ∧ Restores radioHost false lease s.file := by
  obtain ⟨s, hreach, hprocess, hopened⟩ : ∃ s, (lifecycle radioHost).Reachable System.Free s ∧
      s.process = some attachedLease ∧ opened s.log = some (radio false) :=
    reachable_of_play [.acquire attachAnswers] (by decide +kernel)
  obtain ⟨a, ha, hiff⟩ := ((lease_restoration radioHost hreach).2.2 _ hprocess).1 (.inr rfl)
  rw [hopened] at ha
  cases ha
  refine ⟨s, attachedLease, hreach, hprocess, rfl, hiff.mpr ?_⟩
  exact ⟨fun _ => rfl, fun hexact => by cases hexact⟩

/-- The modules could not be loaded: the adapter is as it was, and the release of the same
process raises. -/
theorem module_failure_blocks :
    ∃ s lease, (lifecycle radioHost).Reachable System.Free s ∧ s.process = some lease ∧
      opened s.log = some (radio false) ∧
      Settled radioHost false lease.adapter (radio false) (settledAnswers (radio false)) ∧
      Enough 4 3 1 (settledAnswers (radio false)) ∧
      ∃ t, (release radioHost).run (s.working lease (settledAnswers (radio false))) =
        .error (p0Error "P0_PRIOR_OWNERSHIP_NOT_RESTORED" "D10_usb_return"
          "the pre-existing adapter attachment changed") t ∧ t.file ≠ none := by
  have hplay : System.play (Session.step radioHost) System.Free selected
      [.acquire moduleAnswers] = some _ := rfl
  have hreach : (lifecycle radioHost).Reachable System.Free _ :=
    ⟨selected, selected_init, System.run_of_play hplay⟩
  refine ⟨_, _, hreach, rfl, rfl, ?_, settledAnswers_enough _, _, rfl, ?_⟩
  · exact settledAnswers_settled radioHost (radio false) (radio false) rfl rfl
  · exact Option.some_ne_none _

end SwitchTrade.Usb

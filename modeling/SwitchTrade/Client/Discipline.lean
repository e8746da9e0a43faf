import SwitchTrade.Client.TunnelClientV2
import Mathlib.Data.List.TakeWhile

/-!
# When a client sends what the application gave it

A frame of the application belongs to a proof generation: it is put into the outbox, and
sent, after both challenges of the current source epoch were answered. `Disciplined` says
so of the trace. The client thread relies on two things for it: an application call that
checked an earlier generation does not put its frame into the unproven session of a later
one, which begins for the outbox as soon as `_clear_queues` has emptied it, and the outbox is
empty when the peer's new epoch starts a new one here (`Timely`).
-/

namespace SwitchTrade.Client

open Tunnel Fallible Transition

/-! ## The trace of one source epoch -/

def Event.opens : Event → Bool
  | .opened _ => true
  | _ => false

/-- The event neither starts a source epoch nor a proof generation. -/
def Event.Quiet (x : Event) : Prop := x.opens = false ∧ x ≠ .proven

/-- The events of the current source epoch. -/
def now (trace : List Event) : List Event := trace.takeWhile (!·.opens)

/-- The trace has come to a source epoch, the current one. -/
def Within (trace : List Event) (epoch : Nat) : Prop :=
  (trace.dropWhile (!·.opens)).head? = some (.opened epoch)

/-- A challenge was sent. -/
def Challenged (events : List Event) (probe : Bytes) : Prop :=
  ∃ e serial, .sent e serial ∈ events ∧ e.kind = .probeChallenge ∧ e.payload = probe

/-- The answer to a challenge came back. -/
def Returned (events : List Event) : Prop :=
  ∃ after e before, events = after ++ .received e :: before ∧ e.kind = .probeResponse ∧
    Challenged before e.payload

/-- A challenge of the peer was answered. -/
def AnsweredPeer (events : List Event) : Prop :=
  ∃ after e serial f before, events = after ++ .sent e serial :: before ∧
    e.kind = .probeResponse ∧ .received f ∈ before ∧ f.kind = .probeChallenge ∧
    f.payload = e.payload

/-- A proof generation runs, and the frames of `outbox` were put in during it. -/
def Generation (events : List Event) (outbox : List Pending) : Prop :=
  ∃ recent earlier, events = recent ++ .proven :: earlier ∧ (∀ x ∈ recent, x.Quiet) ∧
    Returned earlier ∧ AnsweredPeer earlier ∧ ∀ p ∈ outbox, .enqueued p.serial ∈ recent

def AppFrame (e : Envelope) : Prop :=
  e.kind = .advertisement ∨ e.kind = .sideReady ∨ e.kind = .rfu

/-- In the source epoch of a frame, both challenges were answered before `before` ended, and
the put with this number came later in the same proof generation. -/
def Proved (before : List Event) (epoch serial : Nat) : Prop :=
  ∃ recent earlier older,
    before = recent ++ .proven :: (earlier ++ .opened epoch :: older) ∧
    (∀ x ∈ recent, x.Quiet) ∧ (∀ x ∈ earlier, x.opens = false) ∧
    Returned earlier ∧ AnsweredPeer earlier ∧ .enqueued serial ∈ recent

/-- Every frame of the application was sent in the proof generation it was put in during. -/
def Disciplined (trace : List Event) : Prop :=
  ∀ after e serial before, trace = after ++ .sent e serial :: before → AppFrame e →
    ∃ n, serial = some n ∧ Proved before e.sourceEpoch n

variable {trace events : List Event} {x : Event} {epoch : Nat}

@[simp] theorem now_opened : now (.opened epoch :: trace) = [] := rfl

theorem now_cons (h : x.opens = false) : now (x :: trace) = x :: now trace := by
  simp [now, h]

theorem within_opened : Within (.opened epoch :: trace) epoch := rfl

theorem Within.cons (hw : Within trace epoch) (h : x.opens = false) :
    Within (x :: trace) epoch := by
  simpa [Within, List.dropWhile_cons, h] using hw

theorem Within.split (hw : Within trace epoch) :
    ∃ older, trace = now trace ++ .opened epoch :: older := by
  obtain ⟨older, holder⟩ := List.head?_eq_some_iff.mp hw
  refine ⟨older, ?_⟩
  rw [← holder]
  exact List.takeWhile_append_dropWhile.symm

theorem now_quiet : ∀ x ∈ now trace, x.opens = false := by
  intro x hx
  have hkeeps := List.mem_takeWhile_imp hx
  simpa using hkeeps

theorem Challenged.cons {probe : Bytes} (h : Challenged events probe) (x : Event) :
    Challenged (x :: events) probe := by
  obtain ⟨e, serial, hmem, hkind, hpayload⟩ := h
  exact ⟨e, serial, List.mem_cons_of_mem _ hmem, hkind, hpayload⟩

theorem Returned.cons (h : Returned events) (x : Event) : Returned (x :: events) := by
  obtain ⟨after, e, before, rfl, hkind, hchallenged⟩ := h
  exact ⟨x :: after, e, before, rfl, hkind, hchallenged⟩

theorem AnsweredPeer.cons (h : AnsweredPeer events) (x : Event) : AnsweredPeer (x :: events) := by
  obtain ⟨after, e, serial, f, before, rfl, hkind, hreceived⟩ := h
  exact ⟨x :: after, e, serial, f, before, rfl, hkind, hreceived⟩

theorem Generation.cons {outbox : List Pending} (h : Generation events outbox) (hx : x.Quiet) :
    Generation (x :: events) outbox := by
  obtain ⟨recent, earlier, rfl, hquiet, hreturned, hanswered, hput⟩ := h
  refine ⟨x :: recent, earlier, rfl, ?_, hreturned, hanswered, ?_⟩
  · intro y hy
    rcases List.mem_cons.mp hy with rfl | hy
    · exact hx
    · exact hquiet y hy
  · intro p hp
    exact List.mem_cons_of_mem _ (hput p hp)

theorem Generation.mono {outbox outbox' : List Pending} (h : Generation events outbox)
    (hsub : ∀ p ∈ outbox', p ∈ outbox) : Generation events outbox' := by
  obtain ⟨recent, earlier, heq, hquiet, hreturned, hanswered, hput⟩ := h
  exact ⟨recent, earlier, heq, hquiet, hreturned, hanswered, fun p hp => hput p (hsub p hp)⟩

theorem Generation.enqueue {outbox : List Pending} (h : Generation events outbox) (p : Pending) :
    Generation (.enqueued p.serial :: events) (outbox ++ [p]) := by
  obtain ⟨recent, earlier, rfl, hquiet, hreturned, hanswered, hput⟩ := h
  refine ⟨.enqueued p.serial :: recent, earlier, rfl, ?_, hreturned, hanswered, ?_⟩
  · intro y hy
    rcases List.mem_cons.mp hy with rfl | hy
    · exact ⟨rfl, nofun⟩
    · exact hquiet y hy
  · intro q hq
    rcases List.mem_append.mp hq with hq | hq
    · exact List.mem_cons_of_mem _ (hput q hq)
    · obtain rfl := List.mem_singleton.mp hq
      exact List.mem_cons_self ..

/-- What a proof generation and the current source epoch say of a frame of the outbox. -/
theorem Generation.proved {outbox : List Pending} (h : Generation (now trace) outbox)
    (hw : Within trace epoch) {p : Pending} (hp : p ∈ outbox) : Proved trace epoch p.serial := by
  obtain ⟨recent, earlier, hnow, hquiet, hreturned, hanswered, hput⟩ := h
  obtain ⟨older, htrace⟩ := hw.split
  refine ⟨recent, earlier, older, ?_, hquiet, ?_, hreturned, hanswered, hput p hp⟩
  · rw [htrace, hnow]
    simp
  · intro x hx
    apply @now_quiet trace
    rw [hnow]
    simp [hx]

theorem Disciplined.cons (h : Disciplined trace)
    (hx : ∀ e serial, x = .sent e serial → AppFrame e →
      ∃ n, serial = some n ∧ Proved trace e.sourceEpoch n) : Disciplined (x :: trace) := by
  intro after e serial before heq happ
  cases after with
  | nil =>
    obtain ⟨rfl, rfl⟩ := List.cons.inj heq
    exact hx e serial rfl happ
  | cons y after =>
    obtain ⟨-, rfl⟩ := List.cons.inj heq
    exact h after e serial before rfl happ

/-! ## The session of a client -/

namespace TunnelClientV2

variable {cfg : Config} {c c' : TunnelClientV2}

/-- Both directions of the current source epoch were proven. -/
def BothAnswered (c : TunnelClientV2) : Prop :=
  c.challengeReturned = true ∧ c.answeredPeerChallenge = true

instance (c : TunnelClientV2) : Decidable c.BothAnswered := inferInstanceAs (Decidable (_ ∧ _))

/-- In `_clear_queues`. -/
def Clearing (c : TunnelClientV2) : Prop := c.phase = .clearingOutbox ∨ c.phase = .clearingInbox

def InSession (c : TunnelClientV2) : Prop := c.phase ≠ .offline ∧ ¬ c.Clearing

/-- The thread goes on with its session. -/
def Live (c : TunnelClientV2) : Prop := c.phase = .looping → c.stopped = false

/-- The variables of `_session` say what happened in the current source epoch. -/
structure Based (c : TunnelClientV2) : Prop where
  within : Within c.trace c.epoch
  challenge : ∀ probe, c.challenge = some probe → Challenged (now c.trace) probe
  returned : c.challengeReturned = true → Returned (now c.trace)
  answered : c.answeredPeerChallenge = true → AnsweredPeer (now c.trace)
  proven : c.dataPlaneProven = true → c.BothAnswered

/-- A session between two passages of its thread. -/
structure Session (c : TunnelClientV2) : Prop extends c.Based where
  generation : c.Live → c.BothAnswered → Generation (now c.trace) c.outbox
  silent : c.Live → ¬ c.BothAnswered → c.outbox = []
  stays : c.BothAnswered → c.dataPlaneProven = false → c.stopped = true

/-- A session in the middle of a passage. -/
structure Running (c : TunnelClientV2) : Prop extends c.Based where
  disciplined : Disciplined c.trace
  outbox : c.stopped = true ∨ c.dataPlaneProven = true ∧ Generation (now c.trace) c.outbox ∨
    c.dataPlaneProven = false ∧ c.outbox = []

theorem Session.running (h : c.Session) (hlive : c.Live) (hd : Disciplined c.trace) :
    c.Running := by
  refine { h with disciplined := hd, outbox := ?_ }
  by_cases hstopped : c.stopped = true
  · exact .inl hstopped
  · by_cases hboth : c.BothAnswered
    · cases hproven : c.dataPlaneProven
      · exact absurd (h.stays hboth hproven) hstopped
      · exact .inr (.inl ⟨rfl, h.generation hlive hboth⟩)
    · cases hproven : c.dataPlaneProven
      · exact .inr (.inr ⟨rfl, h.silent hlive hboth⟩)
      · exact absurd (h.proven hproven) hboth

theorem Running.going (h : c.Running) (hgoes : c.stopped = false) :
    c.dataPlaneProven = true ∧ Generation (now c.trace) c.outbox ∨
      c.dataPlaneProven = false ∧ c.outbox = [] := by
  rcases h.outbox with hstopped | hgoing
  · rw [hgoes] at hstopped
    cases hstopped
  · exact hgoing

/-- The end of a round: a proof generation starts if both directions are answered. -/
theorem Running.settled (h : c.Running) :
    Session { c.prove with phase := .looping } ∧ Disciplined c.prove.trace := by
  unfold prove
  split
  · rename_i hproves
    obtain ⟨hreturned, hanswered, hproven⟩ := hproves
    have hnow : now (.proven :: c.trace) = .proven :: now c.trace := now_cons rfl
    have hgenerated : Generation (now (.proven :: c.trace)) [] := by
      rw [hnow]
      exact ⟨[], now c.trace, rfl, nofun, h.returned hreturned, h.answered hanswered, nofun⟩
    refine ⟨?_, h.disciplined.cons nofun⟩
    refine
      { within := h.within.cons rfl
        challenge := fun probe hprobe => hnow ▸ (h.challenge probe hprobe).cons _
        returned := fun hr => hnow ▸ (h.returned hr).cons _
        answered := fun ha => hnow ▸ (h.answered ha).cons _
        proven := fun _ => ⟨hreturned, hanswered⟩
        generation := fun hlive _ => ?_
        silent := fun _ hnot => absurd ⟨hreturned, hanswered⟩ hnot
        stays := fun _ => nofun }
    rcases h.going (hlive rfl) with ⟨hset, -⟩ | ⟨-, hempty⟩
    · rw [hproven] at hset
      cases hset
    · show Generation _ c.outbox
      rw [hempty]
      exact hgenerated
  · rename_i hstays
    refine ⟨?_, h.disciplined⟩
    refine
      { within := h.within, challenge := h.challenge, returned := h.returned
        answered := h.answered, proven := h.proven
        generation := fun hlive hboth => ?_
        silent := fun hlive hnot => ?_
        stays := fun hboth hunproven => absurd ⟨hboth.1, hboth.2, hunproven⟩ hstays }
    · rcases h.going (hlive rfl) with ⟨-, hgeneration⟩ | ⟨hunproven, -⟩
      · exact hgeneration
      · exact absurd ⟨hboth.1, hboth.2, hunproven⟩ hstays
    · rcases h.going (hlive rfl) with ⟨hproven, -⟩ | ⟨-, hempty⟩
      · exact absurd (h.proven hproven) hnot
      · exact hempty

theorem Based.note (h : c.Based) {x : Event} (hx : x.opens = false) :
    Based { c with trace := x :: c.trace } := by
  have hnow : now (x :: c.trace) = x :: now c.trace := now_cons hx
  exact
    { within := h.within.cons hx
      challenge := fun probe hprobe => hnow ▸ (h.challenge probe hprobe).cons x
      returned := fun hr => hnow ▸ (h.returned hr).cons x
      answered := fun ha => hnow ▸ (h.answered ha).cons x
      proven := h.proven }

/-- An event that starts nothing. -/
theorem Running.note (h : c.Running) {x : Event} (hx : x.Quiet)
    (happ : ∀ e serial, x = .sent e serial → ¬ AppFrame e) :
    Running { c with trace := x :: c.trace } := by
  have hnow : now (x :: c.trace) = x :: now c.trace := now_cons hx.1
  refine
    { h.toBased.note hx.1 with
      disciplined := h.disciplined.cons fun e serial heq hframe => absurd hframe (happ e serial heq)
      outbox := ?_ }
  rcases h.outbox with hstopped | ⟨hproven, hgeneration⟩ | hempty
  · exact .inl hstopped
  · exact .inr (.inl ⟨hproven, hnow ▸ hgeneration.cons hx⟩)
  · exact .inr (.inr hempty)

/-- What the session says something of, but for the phase. -/
def told (c : TunnelClientV2) :=
  (c.epoch, c.trace, c.challenge, c.challengeReturned, c.answeredPeerChallenge, c.dataPlaneProven,
    c.stopped, c.outbox)

theorem Running.same (h : c.Running) (hsame : c'.told = c.told) : c'.Running := by
  simp only [told, Prod.mk.injEq] at hsame
  obtain ⟨hepoch, htrace, hchallenge, hreturned, hanswered, hproven, hstopped, houtbox⟩ := hsame
  obtain ⟨⟨hw, hc, hr, ha, hp⟩, hd, ho⟩ := h
  refine ⟨⟨?_, ?_, ?_, ?_, ?_⟩, ?_, ?_⟩
  · rwa [htrace, hepoch]
  · rwa [htrace, hchallenge]
  · rwa [htrace, hreturned]
  · rwa [htrace, hanswered]
  · rwa [hproven, BothAnswered, hreturned, hanswered]
  · rwa [htrace]
  · rwa [hstopped, hproven, htrace, houtbox]

/-! ## The passages of the thread -/

/-- A passage that returns leaves a client with `P`; one that raises leaves a sound trace. -/
structure Ends (P : TunnelClientV2 → Prop) (outcome : Outcome) : Prop where
  ok : ∀ c, outcome = .ok c → P c
  error : ∀ raised c, outcome = .error (raised, c) → Disciplined c.trace

variable {P Q : TunnelClientV2 → Prop} {outcome : Outcome}

theorem Ends.of_ok (h : P c) : Ends P (.ok c) := by
  refine ⟨fun c' heq => ?_, fun raised c' heq => ?_⟩
  · obtain rfl := Except.ok.inj heq
    exact h
  · exact absurd heq (by simp)

theorem Ends.of_error {raised : Raised} (h : Disciplined c.trace) :
    Ends P (.error (raised, c)) := by
  refine ⟨fun c' heq => ?_, fun raised' c' heq => ?_⟩
  · exact absurd heq (by simp)
  · obtain ⟨-, rfl⟩ := Prod.mk.inj (Except.error.inj heq)
    exact h

theorem Ends.bind {f : TunnelClientV2 → Outcome} (h : Ends P outcome)
    (hf : ∀ c, P c → Ends Q (f c)) : Ends Q (outcome >>= f) := by
  cases outcome with
  | error raised =>
    obtain ⟨raised, c⟩ := raised
    exact .of_error (h.error raised c rfl)
  | ok c => exact hf c (h.ok c rfl)

/-- What `_send` does: the frame is in the trace. -/
theorem send_ok {kind : Kind} {payload : Bytes} {flags : Nat} {serial : Option Nat}
    (h : c.send cfg kind payload flags serial = .ok c') :
    ∃ e : Envelope, e.kind = kind ∧ e.payload = payload ∧ e.sourceEpoch = c.epoch ∧
      c' = { c with sequence := c.sequence + 1, trace := .sent e serial :: c.trace } := by
  unfold send at h
  split at h
  · cases h
  · cases h
    exact ⟨_, rfl, rfl, rfl, rfl⟩

theorem send_error {kind : Kind} {payload : Bytes} {flags : Nat} {serial : Option Nat}
    {raised : Raised} (h : c.send cfg kind payload flags serial = .error (raised, c')) :
    c' = c := by
  unfold send at h
  split at h
  · cases h
    rfl
  · cases h

/-- A frame of the protocol is sent. -/
theorem Running.send (h : c.Running) {kind : Kind} (hkind : ∀ e : Envelope, e.kind = kind →
      ¬ AppFrame e) (payload : Bytes) :
    Ends (fun c' => c'.Running ∧ ∃ e : Envelope, e.kind = kind ∧ e.payload = payload ∧
      c' = { c with sequence := c.sequence + 1, trace := .sent e none :: c.trace })
      (c.send cfg kind payload 0 none) := by
  refine ⟨fun c' hok => ?_, fun raised c' herror => ?_⟩
  · obtain ⟨e, he, hpayload, -, rfl⟩ := send_ok hok
    refine ⟨?_, e, he, hpayload, rfl⟩
    refine (h.note (x := .sent e none) ⟨rfl, nofun⟩ fun f serial heq => ?_).same rfl
    obtain ⟨rfl, -⟩ := Event.sent.inj heq
    exact hkind _ he
  · rw [send_error herror]
    exact h.disciplined

theorem not_appFrame {e : Envelope} {kind : Kind}
    (hkind : kind = .peerReady ∨ kind = .probeChallenge ∨ kind = .probeResponse)
    (he : e.kind = kind) : ¬ AppFrame e := by
  unfold AppFrame
  rcases hkind with rfl | rfl | rfl <;> simp [he]

theorem Running.deliver (h : c.Running) (e : Envelope) : Ends Running (c.deliver cfg e) := by
  unfold TunnelClientV2.deliver
  split
  · exact .of_error h.disciplined
  · exact .of_ok (h.same rfl)

/-- A round that ends: `prove`, and back to the head of the loop. -/
def Settled (c : TunnelClientV2) : Prop :=
  Session { c with phase := .looping } ∧ Disciplined c.trace

theorem Running.prove (h : c.Running) : Ends Settled (.ok c.prove) := .of_ok h.settled

theorem Running.acceptAdvertisement (h : c.Running) (e : Envelope) :
    Ends Settled (c.acceptAdvertisement cfg e) := by
  unfold TunnelClientV2.acceptAdvertisement
  dsimp only
  split
  · exact .of_error h.disciplined
  · rename_i hproven
    split
    · exact .of_error h.disciplined
    · split
      · split
        · exact .of_error h.disciplined
        · have hsame : c.prove = c := if_neg fun hproves => hproven hproves.2.2
          have hsettled := h.settled
          rw [hsame] at hsettled
          exact .of_ok hsettled
      · have hnoted : Running { c with receivedAdvertisementHash := some (cfg.sha256 e.payload) } :=
          h.same rfl
        exact (hnoted.deliver e).bind fun c' hc' => hc'.prove

theorem Running.restart (h : c.Running) (hempty : c.stopped = false → c.outbox = [])
    (epoch : Nat) :
    Ends (fun c' => c'.Running ∧ ¬ c'.BothAnswered) (c.restart cfg epoch) := by
  have hopened : Running { c with
      peerReady := false
      dataPlaneProven := false
      challenge := none
      challengeReturned := false
      answeredPeerChallenge := false
      epoch
      sequence := 0
      trace := .opened epoch :: c.trace } := by
    refine
      { within := within_opened
        challenge := nofun
        returned := nofun
        answered := nofun
        proven := nofun
        disciplined := h.disciplined.cons nofun
        outbox := ?_ }
    by_cases hstopped : c.stopped = true
    · exact .inl hstopped
    · exact .inr (.inr ⟨rfl, hempty (by simpa using hstopped)⟩)
  have hsent := @Running.send cfg _ hopened _ (fun e => not_appFrame (.inl rfl)) []
  refine ⟨fun c' hok => ?_, hsent.error⟩
  obtain ⟨hrunning, e, -, -, rfl⟩ := hsent.ok c' hok
  exact ⟨hrunning, fun hboth => by cases hboth.1⟩

/-- A challenge goes out. -/
theorem Running.sendChallenge (h : c.Running) (probe : Bytes) :
    Ends Running
      ({ c with peerReady := true, challenge := some probe }.send cfg .probeChallenge probe 0
        none) := by
  refine ⟨fun c' hok => ?_, fun raised c' herror => ?_⟩
  · obtain ⟨e, he, hpayload, -, rfl⟩ := send_ok hok
    have hnone : Running { c with challenge := none } :=
      { h with challenge := nofun }
    have hnoted := hnone.note (x := .sent e none) ⟨rfl, nofun⟩ fun f serial heq => by
      obtain ⟨rfl, -⟩ := Event.sent.inj heq
      exact not_appFrame (.inr (.inl rfl)) he
    have hchallenged : Challenged (now (.sent e none :: c.trace)) probe := by
      rw [now_cons rfl]
      exact ⟨e, none, List.mem_cons_self .., he, hpayload⟩
    refine { hnoted with challenge := fun probe' hprobe => ?_ }
    obtain rfl := Option.some.inj hprobe
    exact hchallenged
  · rw [send_error herror]
    exact h.disciplined

/-- The peer's challenge is answered. -/
theorem Running.answer (h : c.Running) {e : Envelope} {rest : List Event}
    (hreceived : now c.trace = .received e :: rest) (hkind : e.kind = .probeChallenge) :
    Ends Settled (do
      let c ← c.send cfg .probeResponse e.payload 0 none
      return { c with answeredPeerChallenge := true }.prove) := by
  refine (h.send (fun f => not_appFrame (.inr (.inr rfl))) e.payload).bind ?_
  rintro c' ⟨hrunning, f, hf, hpayload, rfl⟩
  refine Running.prove { hrunning with answered := fun _ => ?_, proven := fun hproven => ?_ }
  · rw [now_cons rfl, hreceived]
    exact ⟨[], f, none, e, _, rfl, hf, List.mem_cons_self .., hkind, hpayload.symm⟩
  · exact ⟨(h.proven hproven).1, rfl⟩

/-- The answer to the challenge came back. -/
theorem Running.returned_answer (h : c.Running) {e : Envelope} {rest : List Event}
    (hreceived : now c.trace = .received e :: rest) (hkind : e.kind = .probeResponse)
    (hverified : c.challenge.any (verifyProbe · e.payload) = true) :
    Running { c with challengeReturned := true } := by
  obtain ⟨probe, hprobe, hverified⟩ := (Option.any_eq_true _ _).mp hverified
  simp only [verifyProbe, decide_eq_true_eq] at hverified
  obtain ⟨f, serial, hmem, hf, hpayload⟩ := h.challenge probe hprobe
  rw [hreceived] at hmem
  have hsent : .sent f serial ∈ rest := by simpa using hmem
  refine { h with returned := fun _ => ?_, proven := fun hproven => ⟨rfl, (h.proven hproven).2⟩ }
  rw [hreceived]
  exact ⟨[], e, rest, rfl, hkind, f, serial, hsent, hf, hpayload.trans hverified.2⟩

theorem Running.handle (h : c.Running) {prior : Option Nat} {e : Envelope} {rest : List Event}
    (hreceived : now c.trace = .received e :: rest)
    (hempty : e.kind = .peerReady → prior.isSome → c.stopped = false → c.outbox = [])
    (epoch : Nat) (probe : Bytes) : Ends Settled (c.handle cfg prior e epoch probe) := by
  unfold TunnelClientV2.handle
  split
  · rename_i hkind
    have hstarted : Ends Running (c.renew cfg prior e epoch) := by
      unfold renew
      split
      · rename_i hother
        exact ⟨fun c' hok => ((h.restart (hempty hkind hother.1) epoch).ok c' hok).1,
          (h.restart (hempty hkind hother.1) epoch).error⟩
      · exact .of_ok h
    refine hstarted.bind fun c₁ h₁ => (h₁.sendChallenge probe).bind fun c₂ h₂ => h₂.prove
  · rename_i hkind
    exact h.answer hreceived hkind
  · rename_i hkind
    split
    · rename_i hverified
      exact (h.returned_answer hreceived hkind hverified).prove
    · exact .of_error h.disciplined
  · exact h.acceptAdvertisement e
  · exact .of_error h.disciplined
  all_goals exact (h.deliver e).bind fun c' hc' => hc'.prove

/-! ## The condition and the run -/

/-- A call puts no frame in between the emptying of the outbox and the proof of the source epoch,
unless the client was told to stop; and the outbox is empty when another epoch of the peer
starts one here. -/
def Timely (c : TunnelClientV2) : Label → Prop
  | .enqueue _ =>
    (c.phase = .clearingInbox → c.stopped = true) ∧ (c.InSession → c.Live → c.BothAnswered)
  | .receive raw _ _ => ∀ e ∈ raw.toOption, e.kind = .peerReady → c.gate.epoch.isSome →
      (c.gate.accept e).toOption.isSome → c.stopped = false → c.outbox = []
  | _ => True

/-- Every frame of the application was sent in its generation, and the session is sound. -/
structure Sound (c : TunnelClientV2) : Prop where
  disciplined : Disciplined c.trace
  within : c.Clearing → Within c.trace c.epoch
  cleared : c.phase = .clearingInbox → c.stopped = false → c.outbox = []
  session : c.InSession → c.Session

theorem Sound.of_offline (hphase : c.phase = .offline) (hd : Disciplined c.trace) : c.Sound :=
  ⟨hd, fun h => by simp [Clearing, hphase] at h, fun h => by simp [hphase] at h,
    fun h => absurd hphase h.1⟩

theorem Sound.handleError (hd : Disciplined c.trace) (raised : Raised) :
    Sound (c.handleError raised) := by
  cases raised <;> exact .of_offline rfl hd

theorem Ends.settle (h : Ends Sound outcome) : Sound (settle outcome) := by
  cases outcome with
  | error raised =>
    obtain ⟨raised, c⟩ := raised
    exact .handleError (h.error raised c rfl) raised
  | ok c => exact h.ok c rfl

theorem Sound.same (h : c.Sound) (hsame : c'.told = c.told) (hphase : c'.phase = c.phase) :
    c'.Sound := by
  simp only [told, Prod.mk.injEq] at hsame
  obtain ⟨hepoch, htrace, hchallenge, hreturned, hanswered, hproven, hstopped, houtbox⟩ := hsame
  obtain ⟨hd, hw, hcleared, hs⟩ := h
  have hclearing : c'.Clearing ↔ c.Clearing := by rw [Clearing, Clearing, hphase]
  have hin : c'.InSession ↔ c.InSession := by rw [InSession, InSession, hphase, hclearing]
  have hlive : c'.Live ↔ c.Live := by rw [Live, Live, hphase, hstopped]
  have hboth : c'.BothAnswered ↔ c.BothAnswered := by
    rw [BothAnswered, BothAnswered, hreturned, hanswered]
  refine ⟨by rwa [htrace], by rwa [hclearing, htrace, hepoch],
    by rwa [hphase, hstopped, houtbox], fun hsession => ?_⟩
  obtain ⟨⟨hwithin, hc, hr, ha, hp⟩, hg, hsilent, hstays⟩ := hs (hin.mp hsession)
  refine ⟨⟨?_, ?_, ?_, ?_, ?_⟩, ?_, ?_, ?_⟩
  · rwa [htrace, hepoch]
  · rwa [htrace, hchallenge]
  · rwa [htrace, hreturned]
  · rwa [htrace, hanswered]
  · rwa [hproven, hboth]
  · rwa [hlive, hboth, htrace, houtbox]
  · rwa [hlive, hboth, houtbox]
  · rwa [hboth, hproven, hstopped]

/-! ## The steps -/

theorem Sound.poll (h : c.Sound) : c.poll.Sound := by
  unfold TunnelClientV2.poll
  split
  · exact h
  · rename_i e rest hinbox
    refine ⟨h.disciplined.cons nofun, fun hphase => (h.within hphase).cons rfl, h.cleared,
      fun hin => ?_⟩
    have hsession := h.session hin
    have hnow : now (.polled e :: c.trace) = .polled e :: now c.trace := now_cons rfl
    exact
      { hsession.note (x := .polled e) rfl with
        generation := fun hlive hboth =>
          hnow ▸ (hsession.generation hlive hboth).cons ⟨rfl, nofun⟩
        silent := hsession.silent
        stays := hsession.stays }

theorem Sound.connect (h : c.Sound) (epoch : Nat) : (c.connect epoch).Sound := by
  have hconnected : Disciplined (.connected :: c.trace) := h.disciplined.cons nofun
  refine ⟨hconnected.cons nofun, fun _ => within_opened, nofun, fun hin => ?_⟩
  exact absurd (.inl rfl) hin.2

/-- A frame that does not pass `_send` leaves the client as it was. -/
theorem bind_send_error {kind : Kind} {payload : Bytes} {flags : Nat} {serial : Option Nat}
    {f : TunnelClientV2 → TunnelClientV2} {raised : Raised}
    (h : (do
      let c ← c.send cfg kind payload flags serial
      return f c) = (.error (raised, c') : Outcome)) : c' = c := by
  cases hsent : c.send cfg kind payload flags serial with
  | ok c₁ =>
    rw [hsent] at h
    cases h
  | error raised₁ =>
    rw [hsent] at h
    obtain ⟨raised₁, c₁⟩ := raised₁
    cases h
    exact send_error hsent

/-- A phase outside `_clear_queues`. -/
theorem not_clearing (hout : c.phase ≠ .clearingOutbox) (hin : c.phase ≠ .clearingInbox) :
    ¬ c.Clearing := by
  rintro (h | h)
  · exact hout h
  · exact hin h

/-- The session starts with an empty outbox, or ends before its first round. -/
theorem Sound.enter (h : c.Sound) (hphase : c.phase = .clearingInbox) :
    Ends Sound (c.enter cfg) := by
  refine ⟨fun c' hok => ?_, fun raised c' herror => ?_⟩
  · obtain ⟨c₁, hsent, hok⟩ := bind_eq_ok.mp hok
    obtain rfl := Except.ok.inj hok
    obtain ⟨e, he, -, -, rfl⟩ := send_ok hsent
    have hd : Disciplined (.sent e none :: c.trace) := by
      refine h.disciplined.cons fun f serial heq happ => ?_
      obtain ⟨rfl, -⟩ := Event.sent.inj heq
      exact absurd happ (not_appFrame (.inl rfl) he)
    refine ⟨hd, fun hclearing => absurd hclearing (not_clearing nofun nofun), nofun, fun _ => ?_⟩
    exact
      { within := (h.within (.inr hphase)).cons rfl
        challenge := nofun, returned := nofun, answered := nofun, proven := nofun
        generation := fun _ hboth => nomatch hboth.1
        silent := fun hlive _ => h.cleared hphase (hlive rfl)
        stays := fun hboth => nomatch hboth.1 }
  · rw [bind_send_error herror]
    exact h.disciplined

theorem Sound.clearOutbox (h : c.Sound) (hphase : c.phase = .clearingOutbox) :
    c.clearOutbox.Sound := by
  unfold TunnelClientV2.clearOutbox
  split
  · refine ⟨h.disciplined, h.within, fun hin => ?_, fun hin => absurd (.inl hphase) hin.2⟩
    exact absurd (hphase.symm.trans hin) nofun
  · rename_i hempty
    exact ⟨h.disciplined, fun _ => h.within (.inl hphase), fun _ _ => hempty,
      fun hin => absurd (.inr rfl) hin.2⟩

theorem Sound.clearInbox (h : c.Sound) (hphase : c.phase = .clearingInbox) :
    Ends Sound (c.clearInbox cfg) := by
  unfold TunnelClientV2.clearInbox
  split
  · exact .of_ok ⟨h.disciplined, h.within, h.cleared, fun hin => absurd (.inr hphase) hin.2⟩
  · exact h.enter hphase

theorem Session.phase (h : c.Session) (hlive : c.Live) (phase : Phase) :
    Session { c with phase } :=
  { h with
    generation := fun _ => h.generation hlive
    silent := fun _ => h.silent hlive }

/-- The thread is in its session. -/
theorem inSession (hoffline : c.phase ≠ .offline) (hout : c.phase ≠ .clearingOutbox)
    (hin : c.phase ≠ .clearingInbox) : c.InSession :=
  ⟨hoffline, not_clearing hout hin⟩

/-- What a session leaves that goes on with it. -/
theorem Sound.of_session (hd : Disciplined c.trace) (hs : c.Session)
    (hout : c.phase ≠ .clearingOutbox) (hin : c.phase ≠ .clearingInbox) : c.Sound :=
  ⟨hd, fun h => absurd h (not_clearing hout hin), fun h => absurd h hin, fun _ => hs⟩

theorem Sound.loop (h : c.Sound) (hphase : c.phase = .looping) : c.loop.Sound := by
  unfold TunnelClientV2.loop
  split
  · exact .of_offline rfl h.disciplined
  · rename_i hgoes
    have hlive : c.Live := fun _ => by simpa using hgoes
    have hsession := h.session (inSession (by simp [hphase]) (by simp [hphase]) (by simp [hphase]))
    exact .of_session h.disciplined (hsession.phase hlive _) nofun nofun

/-- A frame leaves the outbox: it was put in during the current proof generation. -/
theorem Sound.drain {count : Nat} (h : c.Sound) (hphase : c.phase = .draining count) :
    Ends Sound (c.drain cfg count) := by
  have hsession := h.session (inSession (by simp [hphase]) (by simp [hphase]) (by simp [hphase]))
  have hlive : c.Live := fun hlooping => by simp [hphase] at hlooping
  unfold TunnelClientV2.drain
  split
  · exact .of_ok (.of_session h.disciplined (hsession.phase hlive _) nofun nofun)
  · rename_i pending rest houtbox
    have hboth : c.BothAnswered := by
      by_contra hnot
      rw [hsession.silent hlive hnot] at houtbox
      cases houtbox
    have hgeneration := hsession.generation hlive hboth
    refine ⟨fun c' hok => ?_, fun raised c' herror => ?_⟩
    · obtain ⟨c₁, hsent, hok⟩ := bind_eq_ok.mp hok
      obtain rfl := Except.ok.inj hok
      obtain ⟨e, he, -, hepoch, rfl⟩ := send_ok hsent
      have hproved : Proved c.trace c.epoch pending.serial :=
        hgeneration.proved hsession.within (by simp [houtbox])
      have hd : Disciplined (.sent e (some pending.serial) :: c.trace) := by
        refine h.disciplined.cons fun f serial heq _ => ?_
        obtain ⟨rfl, rfl⟩ := Event.sent.inj heq
        refine ⟨_, rfl, ?_⟩
        rw [hepoch]
        exact hproved
      have hnow : now (.sent e (some pending.serial) :: c.trace) =
          .sent e (some pending.serial) :: now c.trace := now_cons rfl
      have hrest : Generation (now c.trace) rest :=
        hgeneration.mono fun p hp => by simp [houtbox, hp]
      refine .of_session hd ?_ ?_ ?_
      · exact
          { hsession.note (x := .sent e (some pending.serial)) rfl with
            generation := fun _ _ => hnow ▸ hrest.cons ⟨rfl, nofun⟩
            silent := fun _ hnot => absurd hboth hnot
            stays := hsession.stays }
      all_goals
        intro hclearing
        dsimp only at hclearing
        split at hclearing <;> cases hclearing
    · rw [bind_send_error herror]
      exact h.disciplined

theorem Sound.receive (h : c.Sound) (hphase : c.phase = .receiving)
    {raw : Except TunnelV2Error Envelope} {epoch : Nat} {probe : Bytes}
    (hguard : c.Timely (.receive raw epoch probe)) :
    Ends Sound (c.receive cfg raw epoch probe) := by
  have hsession := h.session (inSession (by simp [hphase]) (by simp [hphase]) (by simp [hphase]))
  have hlive : c.Live := fun hlooping => by simp [hphase] at hlooping
  unfold TunnelClientV2.receive
  split
  · exact .of_error h.disciplined
  · rename_i e
    split
    · exact .of_error h.disciplined
    · rename_i gate hgate
      have hnow : now (.received e :: c.trace) = .received e :: now c.trace := now_cons rfl
      have hnoted : Running { c with trace := .received e :: c.trace } :=
        (hsession.running hlive h.disciplined).note ⟨rfl, nofun⟩ fun _ _ heq => nomatch heq
      have hrunning : Running { c with gate, trace := .received e :: c.trace } :=
        hnoted.same rfl
      have hhandled := @Running.handle cfg _ hrunning c.gate.epoch e _ hnow
        (fun hkind hprior => hguard e (by simp [Except.toOption]) hkind hprior
          (by simp [hgate, Except.toOption])) epoch probe
      exact hhandled.bind fun c' hc' => .of_ok (.of_session hc'.2 hc'.1 nofun nofun)

theorem Sound.stop (h : c.Sound) : c.stop.Sound := by
  refine ⟨h.disciplined, h.within, fun _ => nofun, fun hin => ?_⟩
  have hsession := h.session hin
  have hlive : c.stop.Live → c.Live := by
    intro hlive hlooping
    cases hlive hlooping
  exact
    { hsession with
      proven := nofun
      generation := fun hgoes => hsession.generation (hlive hgoes)
      silent := fun hgoes => hsession.silent (hlive hgoes)
      stays := fun _ _ => rfl }

theorem Sound.enqueue (h : c.Sound) {i : Nat} (hguard : c.Timely (.enqueue i))
    (hput : c.enqueue cfg i = some c') : c'.Sound := by
  simp only [TunnelClientV2.enqueue, Option.bind_eq_bind, Option.bind_eq_some_iff] at hput
  obtain ⟨call, -, hput⟩ := hput
  split at hput
  · cases hput
  · cases hput
    refine ⟨h.disciplined.cons nofun, fun hphase => (h.within hphase).cons rfl,
      fun hphase hgoes => ?_, fun hin => ?_⟩
    · rw [hguard.1 hphase] at hgoes
      cases hgoes
    have hsession := h.session hin
    have hnow : now (.enqueued c.puts :: c.trace) = .enqueued c.puts :: now c.trace := now_cons rfl
    exact
      { hsession.note (x := .enqueued c.puts) rfl with
        generation := fun hlive hboth => hnow ▸ (hsession.generation hlive hboth).enqueue
          { kind := call.kind, payload := call.payload, flags := call.flags, serial := c.puts }
        silent := fun hlive hnot => absurd (hguard.2 hin hlive) hnot
        stays := hsession.stays }

theorem Sound.step {l : Label} (h : c.Sound) (hguard : c.Timely l)
    (hstep : c.step cfg l = some c') : c'.Sound := by
  unfold TunnelClientV2.step at hstep
  cases l with
  | connect epoch =>
    dsimp only at hstep
    split at hstep
    · cases hstep
      exact h.connect epoch
    · cases hstep
  | clear =>
    dsimp only at hstep
    split at hstep
    · rename_i hphase
      cases hstep
      exact h.clearOutbox hphase
    · rename_i hphase
      cases hstep
      exact (h.clearInbox hphase).settle
    · cases hstep
  | loop =>
    dsimp only at hstep
    split at hstep
    · rename_i hphase
      cases hstep
      exact h.loop hphase
    · cases hstep
  | drain =>
    dsimp only at hstep
    split at hstep
    · rename_i count hphase
      cases hstep
      exact (h.drain hphase).settle
    · cases hstep
  | timeout =>
    dsimp only at hstep
    split at hstep
    · rename_i hphase
      cases hstep
      have hsession := h.session
        (inSession (by simp [hphase]) (by simp [hphase]) (by simp [hphase]))
      have hlive : c.Live := fun hlooping => by simp [hphase] at hlooping
      exact .of_session h.disciplined (hsession.phase hlive _) nofun nofun
    · cases hstep
  | receive raw epoch probe =>
    dsimp only at hstep
    split at hstep
    · rename_i hphase
      cases hstep
      exact (h.receive hphase hguard).settle
    · cases hstep
  | lose message isPermanent =>
    dsimp only at hstep
    split at hstep
    · cases hstep
    · cases hstep
      unfold TunnelClientV2.lose
      dsimp only
      split <;> exact .of_offline rfl h.disciplined
  | call kind payload flags =>
    cases hstep
    unfold TunnelClientV2.call
    split
    · exact h
    · exact h.same rfl rfl
  | enqueue i => exact h.enqueue hguard hstep
  | finish i =>
    simp only [TunnelClientV2.finish, Option.bind_eq_bind, Option.bind_eq_some_iff] at hstep
    obtain ⟨call, -, hstep⟩ := hstep
    split at hstep
    · cases hstep
    · split at hstep
      all_goals
        cases hstep
        exact h.same rfl rfl
  | giveUp i =>
    simp only [TunnelClientV2.giveUp, Option.bind_eq_bind, Option.bind_eq_some_iff] at hstep
    obtain ⟨call, -, hstep⟩ := hstep
    split at hstep
    · cases hstep
    · cases hstep
      exact h.same rfl rfl
  | poll =>
    cases hstep
    exact h.poll
  | stop =>
    cases hstep
    exact h.stop
  | start =>
    dsimp only at hstep
    split at hstep
    · rename_i hphase
      cases hstep
      exact .of_offline hphase h.disciplined
    · cases hstep

end TunnelClientV2

/-- In every run that keeps to `Timely`, a frame of the application is sent in a source epoch
in which both challenges were answered, and in the proof generation it was put in during. -/
theorem sent_disciplined {cfg : Config} {c : TunnelClientV2}
    (h : (system cfg).Reachable TunnelClientV2.Timely c) : Disciplined c.trace := by
  have hsound : c.Sound := by
    refine System.Reachable.invariant (P := TunnelClientV2.Sound) ?_ ?_ h
    · rintro c rfl
      exact .of_offline rfl fun after e serial before heq => by simp [TunnelClientV2.fresh] at heq
    · intro c l c' hc hguard hstep
      exact hc.step hguard hstep
  exact hsound.disciplined

theorem reachable_of_play {cfg : Config} {G : TunnelClientV2 → Label → Prop}
    [∀ c l, Decidable (G c l)] {labels : List Label} {c : TunnelClientV2}
    (h : System.play (TunnelClientV2.step cfg) G (.fresh cfg) labels = some c) :
    (system cfg).Reachable G c :=
  ⟨.fresh cfg, rfl, System.run_of_play h⟩

namespace TunnelClientV2

instance (c : TunnelClientV2) : Decidable c.Clearing := inferInstanceAs (Decidable (_ ∨ _))

instance (c : TunnelClientV2) : Decidable c.InSession := inferInstanceAs (Decidable (_ ∧ _))

instance (c : TunnelClientV2) : Decidable c.Live := inferInstanceAs (Decidable (_ → _))

instance (c : TunnelClientV2) : (l : Label) → Decidable (c.Timely l)
  | .enqueue _ => inferInstanceAs (Decidable (_ ∧ _))
  | .receive raw _ _ => inferInstanceAs (Decidable (∀ e ∈ raw.toOption, _))
  | .connect _ | .clear | .loop | .drain | .timeout | .lose .. | .call .. | .finish _ | .giveUp _
  | .poll | .stop | .start => inferInstanceAs (Decidable True)

end TunnelClientV2

/-! Seat A proves its first connection and the application sends a frame. -/

/-- The digest of the advertisement `pia`. -/
def advertisedSha256 : String :=
  "cce6630a4894a148982e2822d7b7197dd5c8df7f29b9181e43b03716c85fd8e9"

def clientConfig (seat : SourceSeat) : Config where
  attemptId := "attempt"
  sourceSeat := seat
  capacity := 32
  expectedAdvertisementHash := none
  sha256 payload :=
    if payload = ascii "pia" then advertisedSha256
    else "e3b0c44298fc1c149afbf4c8996fb92427ae41e4649b934ca495991b7852b855"

def probe : Bytes := List.replicate 32 7

/-- The thread comes round to its socket and takes a frame of the peer. -/
def clientReceives (peer : SourceSeat) (sequence : Nat) (kind : Kind) (payload : Bytes) :
    List Label :=
  [.loop, .drain, .receive (.ok
      { attemptId := "attempt", sourceSeat := peer, sourceEpoch := 9, sequence, kind, payload })
    11 probe]

def clientProves (peer : SourceSeat) (epoch : Nat) : List Label :=
  [.connect epoch, .clear, .clear] ++ clientReceives peer 0 .peerReady [] ++
    clientReceives peer 1 .probeChallenge probe ++ clientReceives peer 2 .probeResponse probe

def sendsRfu : List Label :=
  clientProves .memberB 7 ++ [.call .rfu [1] 1, .enqueue 0, .finish 0, .loop, .drain]

/-- The call waits for room in the outbox while the client reconnects. -/
def sendsRfuLate : List Label :=
  clientProves .memberB 7 ++
    [.call .rfu [1] 1, .lose "" false, .connect 8, .clear, .clear, .enqueue 0, .loop, .drain]

def Event.isAppFrame : Event → Bool
  | .sent e _ => e.kind = .advertisement ∨ e.kind = .sideReady ∨ e.kind = .rfu
  | _ => false

theorem sent_disciplined_rfu :
    ∃ c, System.play (TunnelClientV2.step (clientConfig .memberA)) TunnelClientV2.Timely
        (.fresh (clientConfig .memberA)) sendsRfu = some c ∧
      c.trace.head?.any Event.isAppFrame ∧ Disciplined c.trace := by
  obtain ⟨c, hc, hsent⟩ := (Option.any_eq_true _ _).mp
    (show (System.play (TunnelClientV2.step (clientConfig .memberA)) TunnelClientV2.Timely
      (.fresh (clientConfig .memberA)) sendsRfu).any
        (fun c => c.trace.head?.any Event.isAppFrame) by decide +kernel)
  exact ⟨c, hc, hsent, sent_disciplined (reachable_of_play hc)⟩

theorem Proved.proven_now {before : List Event} {epoch serial : Nat}
    (h : Proved before epoch serial) : .proven ∈ now before := by
  obtain ⟨recent, earlier, older, rfl, hquiet, -⟩ := h
  have hkept : now (recent ++ .proven :: (earlier ++ .opened epoch :: older)) =
      recent ++ now (.proven :: (earlier ++ .opened epoch :: older)) :=
    List.takeWhile_append_of_pos fun x hx => by simp [(hquiet x hx).1]
  rw [hkept, now_cons rfl]
  simp

/-- A call that waits for room in the outbox over a reconnect puts its frame into the next
session, which sends it before its first challenge. -/
theorem late_put_sent_unproven :
    ¬ ∀ (cfg : Config) (c : TunnelClientV2), (system cfg).Reachable System.Free c →
      Disciplined c.trace := by
  intro h
  obtain ⟨c, hc, hsent⟩ := (Option.any_eq_true _ _).mp
    (show (System.play (TunnelClientV2.step (clientConfig .memberA)) System.Free
      (.fresh (clientConfig .memberA)) sendsRfuLate).any (fun c =>
        c.trace.head?.any Event.isAppFrame && !(now c.trace).contains .proven)
      by decide +kernel)
  simp only [Bool.and_eq_true, Bool.not_eq_true', List.contains_eq_mem, decide_eq_false_iff_not]
    at hsent
  obtain ⟨hframe, hunproven⟩ := hsent
  obtain ⟨x, hhead, hx⟩ := (Option.any_eq_true _ _).mp hframe
  obtain ⟨before, htrace⟩ := List.head?_eq_some_iff.mp hhead
  cases x with
  | sent e serial =>
    have happ : AppFrame e := by simpa [Event.isAppFrame, AppFrame] using hx
    obtain ⟨n, -, hproved⟩ := h _ c (reachable_of_play hc) [] e serial before htrace happ
    apply hunproven
    rw [htrace, now_cons rfl]
    exact List.mem_cons_of_mem _ hproved.proven_now
  | connected | opened | received | proven | enqueued | polled => cases hx

end SwitchTrade.Client

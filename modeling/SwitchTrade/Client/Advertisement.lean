import SwitchTrade.Client.Discipline

/-!
# The advertisement a client remembers

`received_advertisement_hash` is set once and survives every reconnect, while the inbox that
holds the envelope is emptied on each connection, and a later replay of the envelope is
swallowed. So the envelope is delivered as long as no connection is opened while it waits in
the inbox, and the inbox has room for it when it comes (`Keeps`).
-/

namespace SwitchTrade.Client

open Tunnel Fallible Transition

/-- What `poll` has returned, newest first. -/
def polledFrames (trace : List Event) : List Envelope :=
  trace.filterMap fun
    | .polled e => some e
    | _ => none

/-- The advertisements with a hash. -/
def advertisements (cfg : Config) (digest : String) (frames : List Envelope) : List Envelope :=
  frames.filter fun e => e.kind = .advertisement ∧ cfg.sha256 e.payload = digest

/-- The advertisement that is remembered as received is in the inbox, or `poll` returned it,
and it is so exactly once. -/
def Delivered (cfg : Config) (c : TunnelClientV2) : Prop :=
  ∀ digest, c.receivedAdvertisementHash = some digest →
    (advertisements cfg digest c.inbox).length +
      (advertisements cfg digest (polledFrames c.trace)).length = 1

namespace TunnelClientV2

variable {cfg : Config} {c c' c'' : TunnelClientV2}

/-- The envelope is the advertisement the client is about to remember. -/
def accepts (cfg : Config) (c : TunnelClientV2) (e : Envelope) : Bool :=
  (c.gate.accept e).toOption.isSome && e.kind = .advertisement && c.dataPlaneProven &&
    !cfg.expectedAdvertisementHash.any (¬ verifyAdvertisement cfg e.payload ·) &&
    c.receivedAdvertisementHash.isNone

/-- No queue that holds an advertisement is emptied, and there is room for the one that is
accepted. -/
def Keeps (cfg : Config) (c : TunnelClientV2) : Label → Prop
  | .clear => c.phase = .clearingInbox → ∀ e ∈ c.inbox.head?, e.kind ≠ .advertisement
  | .receive raw _ _ => c.phase = .receiving → ∀ e ∈ raw.toOption, c.accepts cfg e = true →
      c.inbox.length < cfg.capacity
  | _ => True

/-- Every advertisement the client has placed, in the inbox or returned by `poll`. -/
def announced (c : TunnelClientV2) : List Envelope :=
  (c.inbox ++ polledFrames c.trace).filter (·.kind = .advertisement)

/-- The one the client remembers is the only one it has placed. -/
def Remembers (cfg : Config) (c : TunnelClientV2) : Prop :=
  match c.receivedAdvertisementHash with
  | none => c.announced = []
  | some digest => ∃ e, c.announced = [e] ∧ cfg.sha256 e.payload = digest

/-- Nothing was placed, polled or remembered. -/
structure Unheard (c c' : TunnelClientV2) : Prop where
  hash : c'.receivedAdvertisementHash = c.receivedAdvertisementHash
  announced : c'.announced = c.announced

theorem Unheard.refl (c : TunnelClientV2) : Unheard c c := ⟨rfl, rfl⟩

theorem Unheard.trans (h : Unheard c c') (h' : Unheard c' c'') : Unheard c c'' :=
  ⟨h'.hash.trans h.hash, h'.announced.trans h.announced⟩

theorem Remembers.unheard (hr : c.Remembers cfg) (h : Unheard c c') : c'.Remembers cfg := by
  unfold Remembers at hr ⊢
  rw [h.hash, h.announced]
  exact hr

/-- What a passage leaves, whether it returns or raises. -/
def left : Outcome → TunnelClientV2
  | .ok c => c
  | .error (_, c) => c

theorem Unheard.bind {outcome : Outcome} {f : TunnelClientV2 → Outcome}
    (h : Unheard c (left outcome))
    (hf : ∀ c', outcome = .ok c' → Unheard c' (left (f c'))) :
    Unheard c (left (outcome >>= f)) := by
  cases outcome with
  | error raised => exact h
  | ok c' => exact h.trans (hf c' rfl)

theorem Unheard.settle {outcome : Outcome} (h : Unheard c (left outcome)) :
    Unheard c (TunnelClientV2.settle outcome) := by
  cases outcome with
  | ok c' => exact h
  | error raised =>
    obtain ⟨raised, c'⟩ := raised
    cases raised <;> exact ⟨h.hash, h.announced⟩

theorem unheard_send (cfg : Config) (c : TunnelClientV2) (kind : Kind) (payload : Bytes)
    (flags : Nat) (serial : Option Nat) :
    Unheard c (left (c.send cfg kind payload flags serial)) := by
  unfold TunnelClientV2.send
  split <;> exact ⟨rfl, rfl⟩

theorem unheard_prove (c : TunnelClientV2) : Unheard c c.prove := by
  unfold prove
  split <;> exact ⟨rfl, rfl⟩

theorem Unheard.prove (h : Unheard c c') : Unheard c c'.prove := h.trans (unheard_prove c')

theorem unheard_enter (cfg : Config) (c : TunnelClientV2) : Unheard c (left (c.enter cfg)) := by
  have hsent := unheard_send cfg { c.clearReadiness with
      connectionGeneration := c.connectionGeneration + 1
      authenticated := true
      lastError := ""
      lastErrorCode := "" } .peerReady [] 0 none
  exact Unheard.bind ⟨hsent.hash, hsent.announced⟩ fun c' _ => ⟨rfl, rfl⟩

theorem unheard_drain (cfg : Config) (c : TunnelClientV2) (count : Nat) :
    Unheard c (left (c.drain cfg count)) := by
  unfold drain
  split
  · exact ⟨rfl, rfl⟩
  · rename_i pending rest houtbox
    have hsent := unheard_send cfg { c with outbox := rest } pending.kind.kind pending.payload
      pending.flags (some pending.serial)
    exact Unheard.bind ⟨hsent.hash, hsent.announced⟩ fun c' _ => ⟨rfl, rfl⟩

theorem unheard_renew (cfg : Config) (c : TunnelClientV2) (prior : Option Nat) (e : Envelope)
    (epoch : Nat) : Unheard c (left (c.renew cfg prior e epoch)) := by
  unfold renew
  split
  · have hsent := unheard_send cfg { c with
        peerReady := false
        dataPlaneProven := false
        challenge := none
        challengeReturned := false
        answeredPeerChallenge := false
        epoch
        sequence := 0
        trace := .opened epoch :: c.trace } .peerReady [] 0 none
    exact ⟨hsent.hash, hsent.announced⟩
  · exact .refl c

/-- A frame for the bridge is placed. -/
theorem unheard_deliver (cfg : Config) (c : TunnelClientV2) {e : Envelope}
    (hkind : e.kind ≠ .advertisement) : Unheard c (left (c.deliver cfg e)) := by
  unfold deliver
  split
  · exact .refl c
  · refine ⟨rfl, ?_⟩
    simp [left, announced, hkind]

/-- Everything but an `ADVERTISEMENT`. -/
theorem unheard_handle (cfg : Config) (c : TunnelClientV2) (prior : Option Nat) {e : Envelope}
    (epoch : Nat) (probe : Bytes) (hkind : e.kind ≠ .advertisement) :
    Unheard c (left (c.handle cfg prior e epoch probe)) := by
  unfold TunnelClientV2.handle
  split
  · refine (unheard_renew cfg c prior e epoch).bind fun c₁ _ => ?_
    have hsent := unheard_send cfg { c₁ with peerReady := true, challenge := some probe }
      .probeChallenge probe 0 none
    exact Unheard.bind ⟨hsent.hash, hsent.announced⟩ fun c₂ _ => unheard_prove c₂
  · refine (unheard_send cfg c .probeResponse e.payload 0 none).bind fun c₁ _ => ?_
    have hanswered : Unheard c₁ { c₁ with answeredPeerChallenge := true } := ⟨rfl, rfl⟩
    exact hanswered.prove
  · split
    · have hreturned : Unheard c { c with challengeReturned := true } := ⟨rfl, rfl⟩
      exact hreturned.prove
    · exact .refl c
  · contradiction
  · exact .refl c
  all_goals exact (unheard_deliver cfg c hkind).bind fun c₁ _ => unheard_prove c₁

/-- An `ADVERTISEMENT` is remembered and placed, or neither. -/
theorem Remembers.acceptAdvertisement (h : c.Remembers cfg) {e : Envelope}
    (hkind : e.kind = .advertisement)
    (hroom : c.dataPlaneProven = true →
      cfg.expectedAdvertisementHash.any (¬ verifyAdvertisement cfg e.payload ·) = false →
      c.receivedAdvertisementHash = none → c.inbox.length < cfg.capacity) :
    Remembers cfg (left (c.acceptAdvertisement cfg e)) := by
  unfold TunnelClientV2.acceptAdvertisement
  dsimp only
  split
  · exact h
  · rename_i hproven
    split
    · exact h
    · rename_i hverified
      split
      · split
        · exact h
        · exact h
      · rename_i hnone
        have hfree : c.inbox.length < cfg.capacity := by
          exact hroom (by simpa using hproven) (by simpa using hverified) hnone
        have hdelivered :
            TunnelClientV2.deliver cfg
              { c with receivedAdvertisementHash := some (cfg.sha256 e.payload) } e =
            .ok { c with
              receivedAdvertisementHash := some (cfg.sha256 e.payload)
              inbox := c.inbox ++ [e] } := by
          unfold TunnelClientV2.deliver
          rw [if_neg (Nat.not_le_of_lt hfree)]
        rw [hdelivered]
        have hempty : c.announced = [] := by
          unfold Remembers at h
          rw [hnone] at h
          exact h
        have hplaced : Remembers cfg { c with
            receivedAdvertisementHash := some (cfg.sha256 e.payload)
            inbox := c.inbox ++ [e] } := by
          refine ⟨e, ?_, rfl⟩
          simp only [announced, List.filter_append, List.append_eq_nil_iff] at hempty ⊢
          simp [hempty, hkind]
        exact hplaced.unheard (unheard_prove _)

theorem Remembers.settle {outcome : Outcome} (h : Remembers cfg (left outcome)) :
    Remembers cfg (TunnelClientV2.settle outcome) := by
  cases outcome with
  | ok c => exact h
  | error raised =>
    obtain ⟨raised, c⟩ := raised
    cases raised <;> exact h

theorem Remembers.receive (h : c.Remembers cfg) {raw : Except TunnelV2Error Envelope} {epoch : Nat}
    {probe : Bytes} (hphase : c.phase = .receiving)
    (hguard : c.Keeps cfg (.receive raw epoch probe)) :
    Remembers cfg (TunnelClientV2.settle (c.receive cfg raw epoch probe)) := by
  unfold TunnelClientV2.receive
  split
  · exact Remembers.settle h
  · rename_i e
    split
    · exact Remembers.settle h
    · rename_i gate hgate
      apply Remembers.settle
      have hnoted : Unheard c { c with gate, trace := .received e :: c.trace } := ⟨rfl, rfl⟩
      have hlooped : ∀ outcome : Outcome, Remembers cfg (left outcome) →
          Remembers cfg (left (outcome >>= fun c => .ok { c with phase := .looping })) := by
        intro outcome houtcome
        cases outcome <;> exact houtcome
      apply hlooped
      by_cases hkind : e.kind = .advertisement
      · have hhandled : TunnelClientV2.handle cfg
            { c with gate, trace := .received e :: c.trace } c.gate.epoch e epoch probe =
              TunnelClientV2.acceptAdvertisement cfg
                { c with gate, trace := .received e :: c.trace } e := by
          unfold TunnelClientV2.handle
          simp only [hkind]
        rw [hhandled]
        refine (h.unheard hnoted).acceptAdvertisement hkind fun hproven hverified hnone => ?_
        apply hguard hphase e (by simp [Except.toOption])
        simp only [accepts, Bool.and_eq_true, decide_eq_true_eq, Option.isNone_iff_eq_none,
          Bool.not_eq_true']
        exact ⟨⟨⟨⟨by simp [hgate, Except.toOption], hkind⟩, hproven⟩, hverified⟩, hnone⟩
      · exact h.unheard (hnoted.trans (unheard_handle cfg _ c.gate.epoch epoch probe hkind))

theorem Remembers.clearInbox (h : c.Remembers cfg) (hphase : c.phase = .clearingInbox)
    (hguard : c.Keeps cfg .clear) : Remembers cfg (TunnelClientV2.settle (c.clearInbox cfg)) := by
  unfold TunnelClientV2.clearInbox
  split
  · rename_i e rest hinbox
    have hkind : e.kind ≠ .advertisement := hguard hphase e (by simp [hinbox])
    exact h.unheard ⟨rfl, by simp [announced, hinbox, hkind, TunnelClientV2.settle]⟩
  · exact h.unheard (unheard_enter cfg c).settle

/-- `poll` takes an envelope from the inbox. -/
theorem announced_poll (c : TunnelClientV2) : c.poll.announced.Perm c.announced := by
  unfold poll
  split
  · exact .refl _
  · rename_i e rest hinbox
    simp only [announced, hinbox]
    exact List.perm_middle.filter _

theorem Remembers.poll (h : c.Remembers cfg) : c.poll.Remembers cfg := by
  have hhash : c.poll.receivedAdvertisementHash = c.receivedAdvertisementHash := by
    unfold TunnelClientV2.poll
    split <;> rfl
  have hsame := announced_poll c
  unfold Remembers at h ⊢
  rw [hhash]
  split at h
  · rw [h] at hsame
    exact List.perm_nil.mp hsame
  · obtain ⟨e, hone, hdigest⟩ := h
    rw [hone] at hsame
    exact ⟨e, List.perm_singleton.mp hsame, hdigest⟩

theorem Remembers.step {l : Label} (h : c.Remembers cfg) (hguard : c.Keeps cfg l)
    (hstep : c.step cfg l = some c') : c'.Remembers cfg := by
  unfold TunnelClientV2.step at hstep
  cases l with
  | clear =>
    dsimp only at hstep
    split at hstep
    · cases hstep
      unfold TunnelClientV2.clearOutbox
      split <;> exact h.unheard ⟨rfl, rfl⟩
    · rename_i hphase
      cases hstep
      exact h.clearInbox hphase hguard
    · cases hstep
  | receive raw epoch probe =>
    dsimp only at hstep
    split at hstep
    · rename_i hphase
      cases hstep
      exact h.receive hphase hguard
    · cases hstep
  | poll =>
    cases hstep
    exact h.poll
  | drain =>
    dsimp only at hstep
    split at hstep
    · rename_i count hphase
      cases hstep
      exact h.unheard (unheard_drain cfg c count).settle
    · cases hstep
  | enqueue i =>
    simp only [TunnelClientV2.enqueue, Option.bind_eq_bind, Option.bind_eq_some_iff] at hstep
    obtain ⟨call, -, hstep⟩ := hstep
    split at hstep
    · cases hstep
    · cases hstep
      exact h.unheard ⟨rfl, rfl⟩
  | finish i =>
    simp only [TunnelClientV2.finish, Option.bind_eq_bind, Option.bind_eq_some_iff] at hstep
    obtain ⟨call, -, hstep⟩ := hstep
    split at hstep
    · cases hstep
    · split at hstep
      all_goals
        cases hstep
        exact h.unheard ⟨rfl, rfl⟩
  | giveUp i =>
    simp only [TunnelClientV2.giveUp, Option.bind_eq_bind, Option.bind_eq_some_iff] at hstep
    obtain ⟨call, -, hstep⟩ := hstep
    split at hstep
    · cases hstep
    · cases hstep
      exact h.unheard ⟨rfl, rfl⟩
  | call kind payload flags =>
    cases hstep
    unfold TunnelClientV2.call
    split <;> exact h.unheard ⟨rfl, rfl⟩
  | loop =>
    dsimp only at hstep
    split at hstep
    · cases hstep
      unfold TunnelClientV2.loop
      split <;> exact h.unheard ⟨rfl, rfl⟩
    · cases hstep
  | lose message isPermanent =>
    dsimp only at hstep
    split at hstep
    · cases hstep
    · cases hstep
      unfold TunnelClientV2.lose
      dsimp only
      split <;> exact h.unheard ⟨rfl, rfl⟩
  | stop =>
    cases hstep
    exact h.unheard ⟨rfl, rfl⟩
  | connect | timeout | start =>
    dsimp only at hstep
    split at hstep
    · cases hstep
      exact h.unheard ⟨rfl, rfl⟩
    · cases hstep

/-- One remembered advertisement, and it is in the inbox or was polled. -/
theorem Remembers.delivered (h : c.Remembers cfg) : Delivered cfg c := by
  intro digest hdigest
  unfold Remembers at h
  rw [hdigest] at h
  obtain ⟨e, hone, hhash⟩ := h
  have hcount : ∀ frames : List Envelope, advertisements cfg digest frames =
      (frames.filter (·.kind = .advertisement)).filter fun e => cfg.sha256 e.payload = digest := by
    intro frames
    rw [List.filter_filter]
    refine List.filter_congr fun f _ => ?_
    rw [Bool.decide_and, Bool.and_comm]
  rw [hcount, hcount, ← List.length_append, ← List.filter_append, ← List.filter_append]
  show (c.announced.filter _).length = 1
  rw [hone]
  simp [hhash]

end TunnelClientV2

/-- In every run that keeps to `Keeps`, the advertisement a client remembers is in its inbox or
was returned by `poll` exactly once. -/
theorem advertisement_delivered {cfg : Config} {c : TunnelClientV2}
    (h : (system cfg).Reachable (TunnelClientV2.Keeps cfg) c) : Delivered cfg c := by
  have hremembers : c.Remembers cfg := by
    refine System.Reachable.invariant (P := TunnelClientV2.Remembers cfg) ?_ ?_ h
    · rintro c rfl
      rfl
    · intro c l c' hc hguard hstep
      exact hc.step hguard hstep
  exact hremembers.delivered

instance (cfg : Config) (c : TunnelClientV2) : (l : Label) → Decidable (c.Keeps cfg l)
  | .clear | .receive .. => inferInstanceAs (Decidable (_ → _))
  | .connect _ | .loop | .drain | .timeout | .lose .. | .call .. | .enqueue _ | .finish _
  | .giveUp _ | .poll | .stop | .start => inferInstanceAs (Decidable True)

/-! Seat B's client receives the advertisement. -/

def receivesAdvertisement : List Label :=
  clientProves .memberA 7 ++ clientReceives .memberA 3 .advertisement (ascii "pia")

theorem advertisement_delivered_polled :
    ∃ c, System.play (TunnelClientV2.step (clientConfig .memberB))
        (TunnelClientV2.Keeps (clientConfig .memberB)) (.fresh (clientConfig .memberB))
        (receivesAdvertisement ++ [.poll]) = some c ∧
      c.receivedAdvertisementHash = some advertisedSha256 ∧
      Delivered (clientConfig .memberB) c := by
  obtain ⟨c, hc, hreceived⟩ := (Option.any_eq_true _ _).mp
    (show (System.play (TunnelClientV2.step (clientConfig .memberB))
      (TunnelClientV2.Keeps (clientConfig .memberB)) (.fresh (clientConfig .memberB))
      (receivesAdvertisement ++ [.poll])).any
        (fun c => c.receivedAdvertisementHash = some advertisedSha256) by decide +kernel)
  exact ⟨c, hc, of_decide_eq_true hreceived, advertisement_delivered (reachable_of_play hc)⟩

/-- A reconnect empties the inbox before anyone polled it. -/
theorem reconnect_drops_advertisement :
    ¬ ∀ (cfg : Config) (c : TunnelClientV2), (system cfg).Reachable System.Free c →
      Delivered cfg c := by
  intro h
  obtain ⟨c, hc, hlost⟩ := (Option.any_eq_true _ _).mp
    (show (System.play (TunnelClientV2.step (clientConfig .memberB)) System.Free
      (.fresh (clientConfig .memberB))
      (receivesAdvertisement ++ [.lose "" false, .connect 8, .clear, .clear, .clear])).any
        (fun c => c.receivedAdvertisementHash = some advertisedSha256 ∧ c.inbox = [] ∧
          polledFrames c.trace = []) by decide +kernel)
  obtain ⟨hreceived, hinbox, hpolled⟩ := of_decide_eq_true hlost
  have hone := h _ c (reachable_of_play hc) advertisedSha256 hreceived
  rw [hinbox, hpolled] at hone
  cases hone

end SwitchTrade.Client

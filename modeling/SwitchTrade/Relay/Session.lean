import SwitchTrade.Tunnel.SequenceGate

/-!
# One `V2Session` of the relay

The relay's side of one attempt: who holds each seat, the sequence gates, the retained
frames and the two epochs of the `RFU` barrier. `handle` is what the lock-protected section
of `ws_attempt_v2` does with one received frame, before it forwards it. A raise leaves the
session as far as the section had changed it, so an error carries that session.

`hashlib.sha256` and `SideReady.decode`, which rests on `json.loads`, are parameters.
-/

namespace SwitchTrade.Relay

open Tunnel Fallible

abbrev ConnId := Nat

def v2RetainedFrames : Nat := 32
def v2RetainedBytes : Nat := 128 * 1024

/-- The record a `SIDE_READY` payload carries. -/
structure SideReady where
  contractVersion : String
  attemptId : String
  activationGeneration : Int
  sourceSeat : String
  switchRole : String
  localGate : String
  runId : String
  stageGeneration : Int
  launchIdentitySha256 : String
  advertisementSha256 : String
  proofGeneration : Int
  deriving DecidableEq, Repr

/-- What a `SIDE_READY` is compared with: the launch of its connection, and the role and
activation generation of the admission as they are when the frame is handled. -/
structure Admitted where
  switchRole : Option String
  runId : String
  stageGeneration : Int
  launchIdentitySha256 : String
  activationGeneration : Option Int
  deriving DecidableEq, Repr

/-- What handling a frame raises: a contract failure, or an exception of another class. -/
inductive FrameError where
  | contract (error : TunnelV2Error)
  | uncaught
  deriving DecidableEq, Repr

/-- `fatal_code` after the raise. -/
def FrameError.fatalCode : FrameError → Option String
  | .contract error => some error.code
  | .uncaught => none

structure Library where
  sha256 : Bytes → String
  decodeSideReady : Bytes → Except FrameError SideReady

structure V2Session where
  peers : PerSeat (Option ConnId)
  generations : PerSeat Nat
  gates : PerSeat SequenceGate
  retained : PerSeat (List Envelope)
  retainedBytes : PerSeat Nat
  sideReadyEpochs : PerSeat (Option Nat)
  advertisementHash : Option String
  deriving DecidableEq, Repr

namespace V2Session

def new (attemptId : String) : V2Session where
  peers := .both none
  generations := .both 0
  gates := { memberA := .fresh attemptId .memberA, memberB := .fresh attemptId .memberB }
  retained := .both []
  retainedBytes := .both 0
  sideReadyEpochs := .both none
  advertisementHash := none

/-- `gate.accept`; a new epoch drops what the seat said in the one before. -/
def acceptFrame (s : V2Session) (seat : SourceSeat) (e : Envelope) :
    Except (FrameError × V2Session) V2Session :=
  match (s.gates.get seat).accept e with
  | .error error => .error (.contract error, s)
  | .ok gate =>
    if (s.gates.get seat).epoch = gate.epoch then .ok { s with gates := s.gates.set seat gate }
    else .ok
      { s with
        gates := s.gates.set seat gate
        retained := s.retained.set seat []
        retainedBytes := s.retainedBytes.set seat 0
        sideReadyEpochs := s.sideReadyEpochs.set seat none }

def checkAdvertisement (lib : Library) (s : V2Session) (e : Envelope) :
    Except (FrameError × V2Session) V2Session :=
  if s.advertisementHash = none ∨ s.advertisementHash = some (lib.sha256 e.payload) then
    .ok { s with advertisementHash := some (lib.sha256 e.payload) }
  else
    .error (.contract ⟨"C_ADVERTISEMENT_CHANGED", "advertisement changed inside one attempt"⟩, s)

/-- The record names the launch the connection was admitted for. -/
def identified (attemptId : String) (seat : SourceSeat) (admitted : Admitted) (r : SideReady) :
    Bool :=
  r.attemptId = attemptId && r.sourceSeat = seat.label && some r.switchRole = admitted.switchRole &&
    r.runId = admitted.runId && r.stageGeneration = admitted.stageGeneration &&
    r.launchIdentitySha256 = admitted.launchIdentitySha256 &&
    some r.activationGeneration = admitted.activationGeneration

def checkSideReady (lib : Library) (attemptId : String) (s : V2Session) (seat : SourceSeat)
    (admitted : Admitted) (e : Envelope) : Except (FrameError × V2Session) V2Session :=
  match lib.decodeSideReady e.payload with
  | .error error => .error (error, s)
  | .ok ready =>
    if ¬ identified attemptId seat admitted ready then
      .error (.contract
        ⟨"C_SIDE_READY_IDENTITY", "SIDE_READY does not match its admitted launch"⟩, s)
    else if s.advertisementHash ≠ some ready.advertisementSha256 then
      .error (.contract
        ⟨"C_SIDE_READY_ADVERTISEMENT", "SIDE_READY does not match the admitted advertisement"⟩, s)
    else if s.sideReadyEpochs.get seat = some e.sourceEpoch then
      .error (.contract
        ⟨"C_SIDE_READY_DUPLICATE", "SIDE_READY is duplicate in this source epoch"⟩, s)
    else .ok { s with sideReadyEpochs := s.sideReadyEpochs.set seat (some e.sourceEpoch) }

/-- The barrier: both seats' `SIDE_READY` epochs equal the epochs of their gates. -/
def bridgeReady (s : V2Session) : Prop :=
  s.sideReadyEpochs.get .memberA = (s.gates.get .memberA).epoch ∧
    s.sideReadyEpochs.get .memberB = (s.gates.get .memberB).epoch

instance (s : V2Session) : Decidable s.bridgeReady := inferInstanceAs (Decidable (_ ∧ _))

def checkFrame (lib : Library) (attemptId : String) (s : V2Session) (seat : SourceSeat)
    (admitted : Admitted) (e : Envelope) : Except (FrameError × V2Session) V2Session :=
  match e.kind with
  | .advertisement => s.checkAdvertisement lib e
  | .sideReady => s.checkSideReady lib attemptId seat admitted e
  | .rfu =>
    if s.bridgeReady then .ok s
    else .error (.contract
      ⟨"C_BRIDGE_NOT_READY", "RFU arrived before both current SIDE_READY frames"⟩, s)
  | _ => .ok s

/-- The two kinds the relay keeps for a peer that connects later. -/
def keeps : Kind → Bool
  | .peerReady | .advertisement => true
  | _ => false

def retainFrame (s : V2Session) (seat : SourceSeat) (e : Envelope) :
    Except (FrameError × V2Session) V2Session :=
  if keeps e.kind then
    if v2RetainedFrames ≤ (s.retained.get seat).length ∨
        v2RetainedBytes < s.retainedBytes.get seat + e.size then
      .error (.contract ⟨"C_RETENTION_OVERFLOW", "v2 retained frame bound exceeded"⟩, s)
    else .ok
      { s with
        retained := s.retained.set seat (s.retained.get seat ++ [e])
        retainedBytes := s.retainedBytes.set seat (s.retainedBytes.get seat + e.size) }
  else .ok s

/-- The section up to the forwarding of the frame. -/
def handle (lib : Library) (attemptId : String) (s : V2Session) (seat : SourceSeat)
    (admitted : Admitted) (e : Envelope) : Except (FrameError × V2Session) V2Session := do
  let s ← s.acceptFrame seat e
  let s ← s.checkFrame lib attemptId seat admitted e
  s.retainFrame seat e

/-- The session after a connection took its seat. -/
def take (s : V2Session) (seat : SourceSeat) (c : ConnId) : V2Session :=
  { s with
    peers := s.peers.set seat (some c)
    generations := s.generations.set seat (s.generations.get seat + 1) }

/-- The session after a seat was given back. -/
def free (s : V2Session) (seat : SourceSeat) : V2Session :=
  { s with peers := s.peers.set seat none }

/-- The session after the relay wrote the `PEER_CLOSE` of a seat. -/
def closed (s : V2Session) (seat : SourceSeat) : V2Session :=
  let gate := s.gates.get seat
  { s with gates := s.gates.set seat { gate with nextSequence := gate.nextSequence + 1 } }

/-- The `finally` section of a handler that ends without a fatal code in the registered
session: nothing said by either seat outlives the connection. -/
def forget (s : V2Session) : V2Session :=
  { s with retained := .both [], retainedBytes := .both 0, sideReadyEpochs := .both none }

/-- The `PEER_CLOSE` the relay sends in the name of a seat whose connection ended. -/
def closeEnvelope (attemptId : String) (seat : SourceSeat) (gate : SequenceGate) (epoch : Nat) :
    Envelope :=
  { attemptId, sourceSeat := seat, sourceEpoch := epoch, sequence := gate.nextSequence
    kind := .peerClose, payload := ascii "peer transport reset" }

/-! ## What each of these leaves alone -/

section Fields

variable (s : V2Session) (seat : SourceSeat) (c : ConnId)

@[simp] theorem take_peers : (s.take seat c).peers = s.peers.set seat (some c) := rfl

@[simp] theorem take_gates : (s.take seat c).gates = s.gates := rfl

@[simp] theorem take_retained : (s.take seat c).retained = s.retained := rfl

@[simp] theorem take_sideReadyEpochs : (s.take seat c).sideReadyEpochs = s.sideReadyEpochs := rfl

@[simp] theorem free_peers : (s.free seat).peers = s.peers.set seat none := rfl

@[simp] theorem free_gates : (s.free seat).gates = s.gates := rfl

@[simp] theorem free_retained : (s.free seat).retained = s.retained := rfl

@[simp] theorem free_sideReadyEpochs : (s.free seat).sideReadyEpochs = s.sideReadyEpochs := rfl

@[simp] theorem closed_peers : (s.closed seat).peers = s.peers := rfl

@[simp] theorem closed_retained : (s.closed seat).retained = s.retained := rfl

@[simp] theorem closed_sideReadyEpochs : (s.closed seat).sideReadyEpochs = s.sideReadyEpochs := rfl

@[simp] theorem forget_peers : (s.forget).peers = s.peers := rfl

@[simp] theorem forget_gates : (s.forget).gates = s.gates := rfl

@[simp] theorem forget_retained : (s.forget).retained = .both [] := rfl

@[simp] theorem forget_sideReadyEpochs : (s.forget).sideReadyEpochs = .both none := rfl

@[simp] theorem closed_epoch (seat' : SourceSeat) :
    ((s.closed seat).gates.get seat').epoch = (s.gates.get seat').epoch := by
  cases seat <;> cases seat' <;> rfl

end Fields

/-! ## What one frame does -/

section Frame

variable {lib : Library} {attemptId : String} {s s' : V2Session} {seat : SourceSeat}
  {admitted : Admitted} {e : Envelope}

/-- An accepted frame continues the epoch of its seat, or opens one and drops what the seat
said before. -/
theorem acceptFrame_cases (h : s.acceptFrame seat e = .ok s') :
    ∃ gate, (s.gates.get seat).accept e = .ok gate ∧
      (((s.gates.get seat).epoch = some e.sourceEpoch ∧
          s' = { s with gates := s.gates.set seat gate }) ∨
        ((s.gates.get seat).epoch ≠ some e.sourceEpoch ∧
          s' = { s with
            gates := s.gates.set seat gate
            retained := s.retained.set seat []
            retainedBytes := s.retainedBytes.set seat 0
            sideReadyEpochs := s.sideReadyEpochs.set seat none })) := by
  unfold acceptFrame at h
  split at h
  · cases h
  · rename_i gate haccept
    rw [SequenceGate.accept_epoch haccept] at h
    refine ⟨gate, haccept, ?_⟩
    split at h
    · rename_i hsame
      cases h
      exact .inl ⟨hsame, rfl⟩
    · rename_i hnew
      cases h
      exact .inr ⟨hnew, rfl⟩

/-- The epochs after an accepted frame; a `SIDE_READY` that stands afterwards stood before,
and in this epoch if it is of the same seat. -/
theorem acceptFrame_epochs (h : s.acceptFrame seat e = .ok s') :
    (s'.gates.get seat).epoch = some e.sourceEpoch ∧
      (∀ source, s'.sideReadyEpochs.get source = none ∨
        s'.sideReadyEpochs.get source = s.sideReadyEpochs.get source) ∧
      (s'.sideReadyEpochs.get seat = none ∨ (s.gates.get seat).epoch = some e.sourceEpoch) := by
  obtain ⟨gate, haccept, ⟨hsame, rfl⟩ | ⟨-, rfl⟩⟩ := acceptFrame_cases h
  · exact ⟨by simpa using SequenceGate.accept_epoch haccept, fun _ => .inr rfl, .inr hsame⟩
  · refine ⟨by simpa using SequenceGate.accept_epoch haccept, fun source => ?_, .inl (by simp)⟩
    rcases SourceSeat.eq_or_peer seat source with rfl | rfl
    · exact .inl (by simp)
    · exact .inr (by simp)

/-- What a step of the frame section leaves to the rest: the seats, and all the other seat
has said. -/
structure SameBeside (seat : SourceSeat) (s s' : V2Session) : Prop where
  peers : s'.peers = s.peers
  gate : s'.gates.get seat.peer = s.gates.get seat.peer
  retained : s'.retained.get seat.peer = s.retained.get seat.peer

theorem SameBeside.refl : SameBeside seat s s := ⟨rfl, rfl, rfl⟩

theorem SameBeside.trans {s'' : V2Session} (h : SameBeside seat s s')
    (h' : SameBeside seat s' s'') : SameBeside seat s s'' :=
  ⟨h'.peers.trans h.peers, h'.gate.trans h.gate, h'.retained.trans h.retained⟩

theorem acceptFrame_beside (h : s.acceptFrame seat e = .ok s') : SameBeside seat s s' := by
  obtain ⟨gate, -, ⟨-, rfl⟩ | ⟨-, rfl⟩⟩ := acceptFrame_cases h <;> exact ⟨rfl, by simp, by simp⟩

/-- The check of a frame changes only the advertisement and the `SIDE_READY` epochs. -/
theorem checkFrame_spec (h : s.checkFrame lib attemptId seat admitted e = .ok s') :
    s'.peers = s.peers ∧ s'.gates = s.gates ∧ s'.retained = s.retained ∧
      (s'.sideReadyEpochs = s.sideReadyEpochs ∨ (e.kind = .sideReady ∧
        s'.sideReadyEpochs = s.sideReadyEpochs.set seat (some e.sourceEpoch))) ∧
      (e.kind = .rfu → s.bridgeReady) := by
  unfold checkFrame at h
  split at h
  · rename_i hkind
    unfold checkAdvertisement at h
    split at h <;> cases h
    exact ⟨rfl, rfl, rfl, .inl rfl, by simp [hkind]⟩
  · rename_i hkind
    unfold checkSideReady at h
    split at h
    · cases h
    · split at h
      · cases h
      · split at h
        · cases h
        · split at h <;> cases h
          exact ⟨rfl, rfl, rfl, .inr ⟨hkind, rfl⟩, by simp [hkind]⟩
  · rename_i hkind
    split at h
    · rename_i hready
      cases h
      exact ⟨rfl, rfl, rfl, .inl rfl, fun _ => hready⟩
    · cases h
  · rename_i hrfu
    cases h
    exact ⟨rfl, rfl, rfl, .inl rfl, fun hkind => absurd hkind hrfu⟩

theorem checkFrame_beside (h : s.checkFrame lib attemptId seat admitted e = .ok s') :
    SameBeside seat s s' := by
  obtain ⟨hpeers, hgates, hretained, -⟩ := checkFrame_spec h
  exact ⟨hpeers, by rw [hgates], by rw [hretained]⟩

theorem retainFrame_spec (h : s.retainFrame seat e = .ok s') :
    SameBeside seat s s' ∧ s'.gates = s.gates ∧ s'.sideReadyEpochs = s.sideReadyEpochs ∧
      s'.retained.get seat = s.retained.get seat ++ if keeps e.kind then [e] else [] := by
  unfold retainFrame at h
  split at h
  · rename_i hkeeps
    split at h <;> cases h
    exact ⟨⟨rfl, rfl, by simp⟩, rfl, rfl, by simp [hkeeps]⟩
  · rename_i hkeeps
    cases h
    exact ⟨.refl, rfl, rfl, by simp [hkeeps]⟩

theorem handle_ok (h : s.handle lib attemptId seat admitted e = .ok s') :
    ∃ s₁ s₂, s.acceptFrame seat e = .ok s₁ ∧ s₁.checkFrame lib attemptId seat admitted e = .ok s₂ ∧
      s₂.retainFrame seat e = .ok s' := by
  unfold handle at h
  obtain ⟨s₁, h₁, h⟩ := bind_eq_ok.mp h
  obtain ⟨s₂, h₂, h₃⟩ := bind_eq_ok.mp h
  exact ⟨s₁, s₂, h₁, h₂, h₃⟩

/-- Where a raise leaves the session: as it was, after the gate, or after the gate and the
check of a frame that the relay would have kept. -/
theorem handle_error {error : FrameError}
    (h : s.handle lib attemptId seat admitted e = .error (error, s')) :
    s' = s ∨ ∃ s₁, s.acceptFrame seat e = .ok s₁ ∧ (s' = s₁ ∨ (keeps e.kind = true ∧
      s₁.checkFrame lib attemptId seat admitted e = .ok s')) := by
  unfold handle at h
  cases haccept : s.acceptFrame seat e with
  | error failure =>
    simp only [haccept, bind, Except.bind, Except.error.injEq] at h
    refine .inl ?_
    unfold acceptFrame at haccept
    split at haccept
    · cases haccept
      cases h
      rfl
    · split at haccept <;> cases haccept
  | ok s₁ =>
    refine .inr ⟨s₁, rfl, ?_⟩
    simp only [haccept, bind, Except.bind] at h
    cases hcheck : s₁.checkFrame lib attemptId seat admitted e with
    | error failure =>
      simp only [hcheck, Except.error.injEq] at h
      refine .inl ?_
      subst h
      unfold checkFrame checkAdvertisement checkSideReady at hcheck
      repeat' split at hcheck
      all_goals
        cases hcheck
        try rfl
    | ok s₂ =>
      simp only [hcheck] at h
      unfold retainFrame at h
      split at h
      · rename_i hkeeps
        split at h <;> cases h
        exact .inr ⟨hkeeps, rfl⟩
      · cases h

theorem handle_beside (h : s.handle lib attemptId seat admitted e = .ok s') :
    SameBeside seat s s' := by
  obtain ⟨s₁, s₂, h₁, h₂, h₃⟩ := handle_ok h
  exact ((acceptFrame_beside h₁).trans (checkFrame_beside h₂)).trans (retainFrame_spec h₃).1

theorem handle_error_beside {error : FrameError}
    (h : s.handle lib attemptId seat admitted e = .error (error, s')) : SameBeside seat s s' := by
  rcases handle_error h with rfl | ⟨s₁, h₁, rfl | ⟨-, h₂⟩⟩
  · exact .refl
  · exact acceptFrame_beside h₁
  · exact (acceptFrame_beside h₁).trans (checkFrame_beside h₂)

/-- Only the decoder of `SIDE_READY` raises an exception of another class. -/
theorem handle_uncaught (h : s.handle lib attemptId seat admitted e = .error (.uncaught, s')) :
    e.kind = .sideReady ∧ lib.decodeSideReady e.payload = .error .uncaught := by
  unfold handle at h
  cases haccept : s.acceptFrame seat e with
  | error failure =>
    simp only [haccept, bind, Except.bind, Except.error.injEq] at h
    subst h
    unfold acceptFrame at haccept
    split at haccept
    · cases haccept
    · split at haccept <;> cases haccept
  | ok s₁ =>
    simp only [haccept, bind, Except.bind] at h
    cases hcheck : s₁.checkFrame lib attemptId seat admitted e with
    | error failure =>
      simp only [hcheck, Except.error.injEq] at h
      subst h
      unfold checkFrame at hcheck
      split at hcheck
      · unfold checkAdvertisement at hcheck
        split at hcheck <;> cases hcheck
      · rename_i hkind
        unfold checkSideReady at hcheck
        split at hcheck
        · rename_i hdecode
          cases hcheck
          exact ⟨hkind, hdecode⟩
        · repeat' split at hcheck
          all_goals cases hcheck
      · split at hcheck <;> cases hcheck
      · cases hcheck
    | ok s₂ =>
      simp only [hcheck] at h
      unfold retainFrame at h
      split at h
      · split at h <;> cases h
      · cases h

/-- The seat's retained frames, if the frame is of the epoch they are from. -/
def carried (s : V2Session) (seat : SourceSeat) (e : Envelope) : List Envelope :=
  if (s.gates.get seat).epoch = some e.sourceEpoch then s.retained.get seat else []

theorem acceptFrame_retained (h : s.acceptFrame seat e = .ok s') :
    s'.retained.get seat = s.carried seat e := by
  obtain ⟨gate, -, ⟨hsame, rfl⟩ | ⟨hnew, rfl⟩⟩ := acceptFrame_cases h
  · simp [carried, hsame]
  · simp [carried, hnew]

/-- The seat after a frame that passed: its gate stands behind the frame, and the frame is
retained if it is of a retained kind. -/
theorem handle_seat (h : s.handle lib attemptId seat admitted e = .ok s') :
    (s'.gates.get seat).epoch = some e.sourceEpoch ∧
      (s'.gates.get seat).nextSequence = e.sequence + 1 ∧
      s'.retained.get seat = s.carried seat e ++ if keeps e.kind then [e] else [] := by
  obtain ⟨s₁, s₂, h₁, h₂, h₃⟩ := handle_ok h
  obtain ⟨-, hgates₂, hretained₂, -⟩ := checkFrame_spec h₂
  obtain ⟨-, hgates₃, -, hretained₃⟩ := retainFrame_spec h₃
  obtain ⟨gate, haccept, hcases⟩ := acceptFrame_cases h₁
  have hgate : s'.gates.get seat = gate := by
    rw [hgates₃, hgates₂]
    obtain ⟨-, rfl⟩ | ⟨-, rfl⟩ := hcases <;> simp
  refine ⟨?_, ?_, ?_⟩
  · rw [hgate, SequenceGate.accept_epoch haccept]
  · rw [hgate, SequenceGate.accept_next haccept]
  · rw [hretained₃, hretained₂, acceptFrame_retained h₁]

theorem handle_error_retained {error : FrameError}
    (h : s.handle lib attemptId seat admitted e = .error (error, s')) :
    s'.retained.get seat = s.retained.get seat ∨ s'.retained.get seat = s.carried seat e := by
  rcases handle_error h with rfl | ⟨s₁, h₁, rfl | ⟨-, h₂⟩⟩
  · exact .inl rfl
  · exact .inr (acceptFrame_retained h₁)
  · obtain ⟨-, -, hretained₂, -⟩ := checkFrame_spec h₂
    rw [hretained₂]
    exact .inr (acceptFrame_retained h₁)

end Frame

end V2Session

end SwitchTrade.Relay

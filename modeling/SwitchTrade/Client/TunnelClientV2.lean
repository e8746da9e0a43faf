import SwitchTrade.Tunnel.SequenceGate
import SwitchTrade.Transition.Run

/-!
# The client of one endpoint

`TunnelClientV2` has a thread of its own, `_main` and `_session`, and is called by the
application. A step is what one of the two does between two points where the other can see
a difference: the thread empties the outbox and then the inbox entry by entry, without a
look back, and drains the outbox frame by frame; an application call checks the readiness
first and puts its frame later, when there is room.

`serial` numbers the puts and `trace` notes what happened, newest first; neither is in the
code.
-/

namespace SwitchTrade.Client

open Tunnel Fallible

/-- What a client is constructed with, and `hashlib.sha256`. -/
structure Config where
  attemptId : String
  sourceSeat : SourceSeat
  capacity : Nat
  expectedAdvertisementHash : Option String
  sha256 : Bytes → String

/-- The frames the application sends. -/
inductive AppKind where
  | advertisement | sideReady | rfu
  deriving DecidableEq, Repr

def AppKind.kind : AppKind → Kind
  | .advertisement => .advertisement
  | .sideReady => .sideReady
  | .rfu => .rfu

/-- `_Pending`. -/
structure Pending where
  kind : AppKind
  payload : Bytes
  flags : Nat
  serial : Nat
  deriving DecidableEq, Repr

/-- A call of `advertise`, `send_side_ready` or `send_rfu` that passed its checks, and whether
its frame is in the outbox. -/
structure AppCall where
  kind : AppKind
  payload : Bytes
  flags : Nat
  placed : Bool
  deriving DecidableEq, Repr

/-- What such a call raises. -/
inductive CallError where
  | connection (message : String)
  | tunnel (error : TunnelV2Error)
  | value (message : String)
  deriving DecidableEq, Repr

/-- Where the client thread stands. -/
inductive Phase where
  /-- Between two connections. -/
  | offline
  /-- Connected; in `_clear_queues`, at the outbox. -/
  | clearingOutbox
  /-- Past the outbox, at the inbox. -/
  | clearingInbox
  /-- At the head of the loop of `_session`. -/
  | looping
  /-- In the loop over the outbox, after so many frames. -/
  | draining (count : Nat)
  | receiving
  deriving DecidableEq, Repr

inductive Event where
  | connected
  | opened (epoch : Nat)
  | sent (e : Envelope) (serial : Option Nat)
  | received (e : Envelope)
  | proven
  | enqueued (serial : Nat)
  | polled (e : Envelope)
  deriving DecidableEq, Repr

/-- The fields from `gate` on are the variables of `_session`. -/
structure TunnelClientV2 where
  epoch : Nat
  sequence : Nat
  outbox : List Pending
  inbox : List Envelope
  stopped : Bool
  authenticated : Bool
  peerReady : Bool
  dataPlaneProven : Bool
  connectionGeneration : Nat
  proofGeneration : Nat
  lastErrorCode : String
  lastError : String
  receivedAdvertisementHash : Option String
  advertisementSentGeneration : Nat
  sideReadySentGeneration : Nat
  gate : SequenceGate
  challenge : Option Bytes
  challengeReturned : Bool
  answeredPeerChallenge : Bool
  phase : Phase
  calls : List AppCall
  puts : Nat
  trace : List Event
  deriving DecidableEq, Repr

/-- An exception in the client thread: a contract failure, or one of another class. -/
inductive Raised where
  | contract (error : TunnelV2Error)
  | other (message : String)
  deriving DecidableEq, Repr

namespace TunnelClientV2

/-- A client whose thread was just started. -/
def fresh (cfg : Config) : TunnelClientV2 where
  epoch := 0
  sequence := 0
  outbox := []
  inbox := []
  stopped := false
  authenticated := false
  peerReady := false
  dataPlaneProven := false
  connectionGeneration := 0
  proofGeneration := 0
  lastErrorCode := ""
  lastError := ""
  receivedAdvertisementHash := none
  advertisementSentGeneration := 0
  sideReadySentGeneration := 0
  gate := .fresh cfg.attemptId cfg.sourceSeat.peer
  challenge := none
  challengeReturned := false
  answeredPeerChallenge := false
  phase := .offline
  calls := []
  puts := 0
  trace := []

/-- What a passage of the client thread leaves: a client, or an exception and a client. -/
abbrev Outcome := Except (Raised × TunnelClientV2) TunnelClientV2

def clearReadiness (c : TunnelClientV2) : TunnelClientV2 :=
  { c with authenticated := false, peerReady := false, dataPlaneProven := false }

/-- `_send`. -/
def send (cfg : Config) (c : TunnelClientV2) (kind : Kind) (payload : Bytes) (flags : Nat)
    (serial : Option Nat) : Outcome :=
  match validatePayload kind payload flags with
  | .error error => .error (.contract error, c)
  | .ok _ =>
    let e : Envelope :=
      { attemptId := cfg.attemptId, sourceSeat := cfg.sourceSeat, sourceEpoch := c.epoch
        sequence := c.sequence, kind, payload, flags }
    .ok { c with sequence := c.sequence + 1, trace := .sent e serial :: c.trace }

/-! ## `_main` -/

/-- The connection stands: a new source epoch. -/
def connect (c : TunnelClientV2) (epoch : Nat) : TunnelClientV2 :=
  { c with
    epoch, sequence := 0, phase := .clearingOutbox
    trace := .opened epoch :: .connected :: c.trace }

/-- What `_main` does between `_clear_queues` and `_session`. -/
def enter (cfg : Config) (c : TunnelClientV2) : Outcome := do
  let c ←
    { c.clearReadiness with
      connectionGeneration := c.connectionGeneration + 1
      authenticated := true
      lastError := ""
      lastErrorCode := "" }.send cfg .peerReady [] 0 none
  return { c with
      gate := .fresh cfg.attemptId cfg.sourceSeat.peer
      challenge := none
      challengeReturned := false
      answeredPeerChallenge := false
      phase := .looping }

/-- One `get_nowait` of `_clear_queues` at the outbox; on `queue.Empty` it turns to the inbox. -/
def clearOutbox (c : TunnelClientV2) : TunnelClientV2 :=
  match c.outbox with
  | _ :: rest => { c with outbox := rest }
  | [] => { c with phase := .clearingInbox }

/-- One at the inbox; on `queue.Empty` the thread goes into the session, whatever was put into
the outbox meanwhile. -/
def clearInbox (cfg : Config) (c : TunnelClientV2) : Outcome :=
  match c.inbox with
  | _ :: rest => .ok { c with inbox := rest }
  | [] => c.enter cfg

/-- The end of a connection: the `finally` of `_main`. -/
def leave (c : TunnelClientV2) : TunnelClientV2 := { c.clearReadiness with phase := .offline }

/-- The `except` clauses of `_main`. -/
def handleError (c : TunnelClientV2) : Raised → TunnelClientV2
  | .contract error =>
    { c.leave with lastErrorCode := error.code, lastError := error.message, stopped := true }
  | .other message => { c.leave with lastError := message }

def settle : Outcome → TunnelClientV2
  | .ok c => c
  | .error (error, c) => c.handleError error

/-- The connection is refused or lost, for good or not. -/
def lose (c : TunnelClientV2) (message : String) (isPermanent : Bool) : TunnelClientV2 :=
  let c := c.handleError (.other message)
  if isPermanent then { c with lastErrorCode := "C_AUTHENTICATION_FAILED", stopped := true } else c

/-! ## `_session` -/

def loop (c : TunnelClientV2) : TunnelClientV2 :=
  if c.stopped then c.leave else { c with phase := .draining 0 }

/-- One round of the loop over the outbox. -/
def drain (cfg : Config) (c : TunnelClientV2) (count : Nat) : Outcome :=
  match c.outbox with
  | [] => .ok { c with phase := .receiving }
  | pending :: rest => do
    let c ← { c with outbox := rest }.send cfg pending.kind.kind pending.payload pending.flags
      (some pending.serial)
    return { c with phase := if count + 1 < 8 then .draining (count + 1) else .receiving }

/-- The peer started another epoch on this connection. -/
def restart (cfg : Config) (c : TunnelClientV2) (epoch : Nat) : Outcome :=
  { c with
    peerReady := false
    dataPlaneProven := false
    challenge := none
    challengeReturned := false
    answeredPeerChallenge := false
    epoch
    sequence := 0
    trace := .opened epoch :: c.trace }.send cfg .peerReady [] 0 none

/-- A `PEER_READY` after which the epoch of this side is no longer the answer to the peer's. -/
def renew (cfg : Config) (c : TunnelClientV2) (prior : Option Nat) (e : Envelope) (epoch : Nat) :
    Outcome :=
  if prior.isSome ∧ prior ≠ some e.sourceEpoch then c.restart cfg epoch else .ok c

/-- The end of a round: both directions answered. -/
def prove (c : TunnelClientV2) : TunnelClientV2 :=
  if c.challengeReturned ∧ c.answeredPeerChallenge ∧ c.dataPlaneProven = false then
    { c with
      proofGeneration := c.proofGeneration + 1, dataPlaneProven := true
      trace := .proven :: c.trace }
  else c

def verifyProbe (challenge response : Bytes) : Bool :=
  challenge.length = probeBytesLength ∧ challenge = response

def verifyAdvertisement (cfg : Config) (payload : Bytes) (expectedHash : String) : Bool :=
  expectedHash.length = 64 ∧ cfg.sha256 payload = expectedHash.toLower

/-- `_inbox.put_nowait`. -/
def deliver (cfg : Config) (c : TunnelClientV2) (e : Envelope) : Outcome :=
  if cfg.capacity ≤ c.inbox.length then .error (.other "", c)
  else .ok { c with inbox := c.inbox ++ [e] }

def acceptAdvertisement (cfg : Config) (c : TunnelClientV2) (e : Envelope) : Outcome :=
  let digest := cfg.sha256 e.payload
  if c.dataPlaneProven = false then
    .error (.contract ⟨"C_ADVERTISEMENT_EARLY", "advertisement arrived before C0 probe"⟩, c)
  else if cfg.expectedAdvertisementHash.any (¬ verifyAdvertisement cfg e.payload ·) then
    .error (.contract ⟨"C_ADVERTISEMENT_HASH_MISMATCH",
      "advertisement hash does not match A evidence"⟩, c)
  else match c.receivedAdvertisementHash with
    | some received =>
      if received ≠ digest then
        .error (.contract ⟨"C_ADVERTISEMENT_CHANGED",
          "advertisement changed inside one attempt"⟩, c)
      else .ok c
    | none => do
      let c ← { c with receivedAdvertisementHash := some digest }.deliver cfg e
      return c.prove

/-- What `_session` does with an envelope the gate accepted; `prior` is the peer epoch from
before, `epoch` and `probe` are the random numbers it draws. -/
def handle (cfg : Config) (c : TunnelClientV2) (prior : Option Nat) (e : Envelope) (epoch : Nat)
    (probe : Bytes) : Outcome :=
  match e.kind with
  | .peerReady => do
    let c ← c.renew cfg prior e epoch
    let c ← { c with peerReady := true, challenge := some probe }.send cfg .probeChallenge probe 0
      none
    return c.prove
  | .probeChallenge => do
    let c ← c.send cfg .probeResponse e.payload 0 none
    return { c with answeredPeerChallenge := true }.prove
  | .probeResponse =>
    if c.challenge.any (verifyProbe · e.payload) then
      .ok { c with challengeReturned := true }.prove
    else
      .error (.contract ⟨"C_PROBE_MISMATCH", "probe response does not match challenge"⟩, c)
  | .advertisement => c.acceptAdvertisement cfg e
  | .peerClose => .error (.other "peer transport reset; proving a fresh connection", c)
  | .sideReady | .rfu => do
    let c ← c.deliver cfg e
    return c.prove

/-- A received message; an error is what `Envelope.decode` raised on it. -/
def receive (cfg : Config) (c : TunnelClientV2) (raw : Except TunnelV2Error Envelope) (epoch : Nat)
    (probe : Bytes) : Outcome :=
  match raw with
  | .error error => .error (.contract error, c)
  | .ok e =>
    match c.gate.accept e with
    | .error error => .error (.contract error, c)
    | .ok gate => do
      let c ← { c with gate, trace := .received e :: c.trace }.handle cfg c.gate.epoch e epoch probe
      return { c with phase := .looping }

/-! ## The application -/

/-- The checks of `advertise`, `send_side_ready` and `send_rfu`, and the first of `_put`. -/
def checkCall (c : TunnelClientV2) (kind : AppKind) (payload : Bytes) (flags : Nat) :
    Except CallError Unit := do
  raiseIf (c.dataPlaneProven = false) (.connection "C0 data plane is not proven")
  match kind with
  | .advertisement =>
    raiseIf (c.advertisementSentGeneration = c.proofGeneration) (.tunnel
      ⟨"C_ADVERTISEMENT_DUPLICATE", "advertisement was already sent in this proof generation"⟩)
  | .sideReady =>
    raiseIf (c.sideReadySentGeneration = c.proofGeneration) (.tunnel
      ⟨"C_SIDE_READY_DUPLICATE", "SIDE_READY was already sent in this proof generation"⟩)
  | .rfu =>
    raiseIf (payload = [] ∨ maxRfuPayloadBytes < payload.length ∨ 0xFF < flags)
      (.value "RFU payload or Reliable flags are invalid")
  raiseIf (maxPayloadBytes < payload.length) (.value "payload exceeds the v2 bound")

/-- A call begins; one that fails its checks changes nothing. -/
def call (c : TunnelClientV2) (kind : AppKind) (payload : Bytes) (flags : Nat) : TunnelClientV2 :=
  match c.checkCall kind payload flags with
  | .error _ => c
  | .ok _ => { c with calls := c.calls ++ [⟨kind, payload, flags, false⟩] }

/-- Its frame gets into the outbox. -/
def enqueue (cfg : Config) (c : TunnelClientV2) (i : Nat) : Option TunnelClientV2 := do
  let call ← c.calls[i]?
  if call.placed ∨ cfg.capacity ≤ c.outbox.length then none
  else
    let pending : Pending :=
      { kind := call.kind, payload := call.payload, flags := call.flags, serial := c.puts }
    return { c with
        outbox := c.outbox ++ [pending]
        calls := c.calls.set i { call with placed := true }
        puts := c.puts + 1
        trace := .enqueued c.puts :: c.trace }

/-- It notes the proof generation, once its frame is in, and returns. -/
def finish (c : TunnelClientV2) (i : Nat) : Option TunnelClientV2 := do
  let call ← c.calls[i]?
  if call.placed = false then none
  else
    let c := { c with calls := c.calls.eraseIdx i }
    match call.kind with
    | .advertisement => return { c with advertisementSentGeneration := c.proofGeneration }
    | .sideReady => return { c with sideReadySentGeneration := c.proofGeneration }
    | .rfu => return c

/-- It found no room in time. -/
def giveUp (c : TunnelClientV2) (i : Nat) : Option TunnelClientV2 := do
  let call ← c.calls[i]?
  if call.placed then none else return { c with calls := c.calls.eraseIdx i }

/-- One `get_nowait` of `poll`. -/
def poll (c : TunnelClientV2) : TunnelClientV2 :=
  match c.inbox with
  | [] => c
  | e :: rest => { c with inbox := rest, trace := .polled e :: c.trace }

def stop (c : TunnelClientV2) : TunnelClientV2 := { c.clearReadiness with stopped := true }

end TunnelClientV2

/-! ## Runs -/

inductive Label where
  | connect (epoch : Nat)
  | clear
  | loop
  | drain
  | timeout
  | receive (raw : Except TunnelV2Error Envelope) (epoch : Nat) (probe : Bytes)
  | lose (message : String) (isPermanent : Bool)
  | call (kind : AppKind) (payload : Bytes) (flags : Nat)
  | enqueue (i : Nat)
  | finish (i : Nat)
  | giveUp (i : Nat)
  | poll
  | stop
  | start
  deriving DecidableEq, Repr

def TunnelClientV2.step (cfg : Config) (c : TunnelClientV2) : Label → Option TunnelClientV2
  | .connect epoch =>
    if c.phase = .offline ∧ c.stopped = false then some (c.connect epoch) else none
  | .clear =>
    match c.phase with
    | .clearingOutbox => some c.clearOutbox
    | .clearingInbox => some (settle (c.clearInbox cfg))
    | _ => none
  | .loop => if c.phase = .looping then some c.loop else none
  | .drain =>
    match c.phase with
    | .draining count => some (settle (c.drain cfg count))
    | _ => none
  | .timeout => if c.phase = .receiving then some { c with phase := .looping } else none
  | .receive raw epoch probe =>
    if c.phase = .receiving then some (settle (c.receive cfg raw epoch probe)) else none
  | .lose message isPermanent =>
    if c.phase = .offline ∧ c.stopped then none else some (c.lose message isPermanent)
  | .call kind payload flags => some (c.call kind payload flags)
  | .enqueue i => c.enqueue cfg i
  | .finish i => c.finish i
  | .giveUp i => c.giveUp i
  | .poll => some c.poll
  | .stop => some c.stop
  | .start => if c.phase = .offline then some { c with stopped := false } else none

/-- One client, its relay and peer, and its application, in any order. -/
def system (cfg : Config) : Transition.System TunnelClientV2 Label :=
  .ofStep (· = .fresh cfg) (TunnelClientV2.step cfg)

end SwitchTrade.Client

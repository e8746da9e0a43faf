import SwitchTrade.Reliable.Link
import SwitchTrade.Transition.Run

/-!
# The remote stream on its way to the local Switch

`bridge/frlgsim/tunnel.py`, the send path of a `TunnelSim`: each tick moves what the tunnel
received into a backlog and from there, as far as the window of the link and the batch of the
tick admit it, onto the link. The tunnel runs beside the simulation. A tick reads `connected`
and `connection_generation`, polls, and only then drives the link, and the tunnel may move
between two of these.

The number an envelope of the model carries, the connection it came in on, is not in the code;
neither are the lists of what was polled, taken into the backlog, refused, dropped and queued.
-/

namespace SwitchTrade.Reliable

open Transition

universe u

variable {Time : Type u}

/-! ## The tunnel -/

/-- What `_drain_tunnel` tells of the kind of an envelope. -/
inductive TunnelKind where
  | rfu | peerClose | other
  deriving DecidableEq, Repr

structure TunnelEnvelope where
  kind : TunnelKind
  flags : Nat
  payload : List UInt8
  deriving DecidableEq, Repr

/-- An envelope under the number of the connection it came in on. -/
abbrev Received := Nat × TunnelEnvelope

/-- What became of the connection that has the number `generation`. -/
inductive ConnectionPhase where
  | opening | open | over
  deriving DecidableEq, Repr

/-- A tunnel; `inbox` is what `poll` takes from. -/
structure Tunnel where
  phase : ConnectionPhase
  generation : Nat
  inbox : List Received
  deriving DecidableEq, Repr

/-- What happens to a tunnel: the next connection begins, it is up, an envelope arrives on it,
it is over, and the inbox is emptied while no connection is up. -/
inductive TunnelEvent where
  | renew | up | arrive (envelope : TunnelEnvelope) | down | discard
  deriving DecidableEq, Repr

namespace Tunnel

/-- `connected.is_set()`. -/
def connected (t : Tunnel) : Bool := t.phase = .open

/-- What the inbox holds came in on the connection there is, once it was up. -/
structure Own (t : Tunnel) : Prop where
  tags : ∀ e ∈ t.inbox, e.1 = t.generation
  opening : t.phase = .opening → t.inbox = []

/-- A connection that is over is not up again: the next one has another number. -/
def event (t : Tunnel) : TunnelEvent → Option Tunnel
  | .renew => some ⟨.opening, t.generation + 1, []⟩
  | .up => if t.phase = .opening then some { t with phase := .open } else none
  | .arrive envelope =>
    if t.phase = .open then some { t with inbox := t.inbox ++ [(t.generation, envelope)] } else none
  | .down => some { t with phase := .over }
  | .discard => if t.phase = .open then none else some { t with inbox := [] }

end Tunnel

/-! ## The simulation -/

/-- `MAX_PENDING_REMOTE`. -/
def maxPendingRemote : Nat := 256

/-- `MAX_PAYLOAD_BYTES` of `rfu_tunnel`. -/
def maxTunnelPayload : Nat := 0xFFFF - 8

/-- `RELIABLE_BATCH_MAX`. -/
def reliableBatchMax : Nat := 9

/-- `ACK_PERIOD`. -/
def ackPeriod : Int := 2

/-- `PARENT_RTX_LIMIT` and `RTX_GAP_LIMIT`. -/
def retransmitLimit (parent : Bool) : Int := if parent then 6 else 1

/-- A frame of a batch; an acknowledgement has no sequence id. -/
abbrev BatchFrame := Option (BitVec 16) × UInt8 × List UInt8

/-- What the send path of a `TunnelSim` reads and writes. -/
structure TunnelSender (Time : Type u) where
  parent : Bool
  pendingRemote : List Received
  tunnelGeneration : Nat
  hostDisconnected : Bool
  rel : ReliableLink Time (List UInt8)
  tick : Int
  ackOwed : Bool
  lastAckTick : Int

namespace TunnelEnvelope

/-- `envelope.flags & 0xFF`. -/
def wireFlags (e : TunnelEnvelope) : UInt8 := UInt8.ofNat e.flags

/-- The flags have the bit of AppData. -/
def appData (e : TunnelEnvelope) : Bool := e.flags % 2 = 1

end TunnelEnvelope

/-- What the loop of `_drain_tunnel` makes of the envelopes of a poll: the backlog after it, the
envelopes it took, and from the first one on that made it raise, those it did not come to. -/
structure Drained where
  backlog : List Received
  hostDisconnected : Bool
  taken : List Received
  refused : List Received

/-- The loop of `_drain_tunnel`. -/
def drainLoop (backlog : List Received) (hostDisconnected : Bool) : List Received → Drained
  | [] => ⟨backlog, hostDisconnected, [], []⟩
  | e :: rest =>
    match e.2.kind with
    | .peerClose => drainLoop backlog true rest
    | .other => drainLoop backlog hostDisconnected rest
    | .rfu =>
      if maxTunnelPayload < e.2.payload.length ∨ maxPendingRemote ≤ backlog.length then
        ⟨backlog, hostDisconnected, [], e :: rest⟩
      else
        let drained := drainLoop (backlog ++ [e]) hostDisconnected rest
        { drained with taken := e :: drained.taken }

/-- What the `while` of `_drive_tunnel_reliable` leaves: the link, the batch, the backlog, and
the envelopes it called `rel.queue` for. -/
structure Moved (Time : Type u) where
  rel : ReliableLink Time (List UInt8)
  batch : List BatchFrame
  backlog : List Received
  queued : List Received

/-- The `while` of `_drive_tunnel_reliable`. -/
def moveLoop (now : Time) (rel : ReliableLink Time (List UInt8)) (batch : List BatchFrame) :
    List Received → Moved Time
  | [] => ⟨rel, batch, [], []⟩
  | e :: rest =>
    if reliableBatchMax ≤ batch.length ∨ rel.maxInflight ≤ rel.inflight then
      ⟨rel, batch, e :: rest, []⟩
    else if e.2.appData then
      let frame := rel.queue e.2.payload e.2.wireFlags now
      let next := moveLoop now frame.1
        (batch ++ [(some frame.2, e.2.wireFlags, e.2.payload)]) rest
      { next with queued := e :: next.queued }
    else moveLoop now rel batch rest

/-! ## Runs -/

/-- How far a tick has come: it found the tunnel connected, it polls, it drives the link. -/
inductive TickProgress where
  | idle
  | looked
  | polling (frames : List Received)
  | drained
  deriving DecidableEq, Repr

/-- The tunnel and the simulation, and what went through: the envelopes that `poll` returned,
those the backlog took and refused, those it dropped, and those queued on the link. -/
structure Outbound (Time : Type u) where
  tunnel : Tunnel
  sender : TunnelSender Time
  progress : TickProgress
  polled : List Received
  taken : List Received
  refused : List Received
  dropped : List Received
  queued : List Received
  sent : List (List BatchFrame)

inductive OutboundLabel (Time : Type u) where
  | tunnel (event : TunnelEvent)
  /-- A tick begins and reads `connected`. -/
  | look
  /-- It reads `connection_generation`. -/
  | compare
  /-- `poll` takes an envelope. -/
  | take
  /-- `poll` or what it calls raises. -/
  | pollRaises
  /-- `poll` returns. -/
  | receive
  | drive (now : Time)
  /-- A bulk acknowledgement of the Switch arrives. -/
  | ack (ackId : Option (BitVec 16)) (mask : List UInt8) (now : Option Time)
  /-- A data frame of the Switch arrives. -/
  | data (seq : BitVec 16)
  | rttSample (sample : Time)

namespace Outbound

/-- `TunnelSim.__init__`, with a tunnel that may be up already. -/
def fresh (parent : Bool) (knobs : Knobs Time) (tunnel : Tunnel) : Outbound Time where
  tunnel := tunnel
  sender :=
    { parent := parent
      pendingRemote := []
      tunnelGeneration := tunnel.generation
      hostDisconnected := false
      rel := .new 0xFFF0 knobs
      tick := 0
      ackOwed := false
      lastAckTick := -100 }
  progress := .idle
  polled := []
  taken := []
  refused := []
  dropped := []
  queued := []
  sent := []

/-- `self._pending_remote.clear()`. -/
def clear (w : Outbound Time) : Outbound Time :=
  { w with
    dropped := w.dropped ++ w.sender.pendingRemote
    sender := { w.sender with pendingRemote := [] } }

/-- The loop over what `poll` returned. -/
def receive (w : Outbound Time) (frames : List Received) : Outbound Time :=
  let drained := drainLoop w.sender.pendingRemote w.sender.hostDisconnected frames
  { w with
    sender := { w.sender with
      pendingRemote := drained.backlog, hostDisconnected := drained.hostDisconnected }
    polled := w.polled ++ frames
    taken := w.taken ++ drained.taken
    refused := w.refused ++ drained.refused
    progress := if drained.refused = [] then .drained else .idle }

/-- `_drive_tunnel_reliable`, once the tunnel is drained. -/
def drive [Clock Time] (w : Outbound Time) (now : Time) : Outbound Time :=
  let sender := w.sender
  let due := sender.rel.dueRetransmits now (some (retransmitLimit sender.parent))
  let batch : List BatchFrame :=
    (due.2.take reliableBatchMax).map fun frame => (some frame.1, frame.2)
  let moved := moveLoop now due.1 batch sender.pendingRemote
  let owed := (sender.parent || decide (ackPeriod ≤ sender.tick - sender.lastAckTick)) &&
    (sender.ackOwed || !moved.rel.recvOoo.isEmpty)
  { w with
    sender := { sender with
      rel := moved.rel
      pendingRemote := moved.backlog
      ackOwed := if owed then false else sender.ackOwed
      lastAckTick := if owed then sender.tick else sender.lastAckTick }
    queued := w.queued ++ moved.queued
    sent := w.sent ++
      [if owed then moved.batch ++ [(none, 0, moved.rel.ackPayload)] else moved.batch]
    progress := .idle }

/-- The receive path and the acknowledgements, which run between two ticks. -/
def link (w : Outbound Time) (rel : ReliableLink Time (List UInt8)) (ackOwed : Bool) :
    Option (Outbound Time) :=
  if w.progress = .idle then
    some { w with sender := { w.sender with rel := rel, ackOwed := ackOwed } }
  else none

def step [Clock Time] (w : Outbound Time) : OutboundLabel Time → Option (Outbound Time)
  | .tunnel event => (w.tunnel.event event).map fun tunnel => { w with tunnel := tunnel }
  | .look =>
    if w.progress = .idle then
      let w := { w with sender := { w.sender with tick := w.sender.tick + 1 } }
      if w.tunnel.connected then some { w with progress := .looked }
      else some { w.clear with progress := .drained }
    else none
  | .compare =>
    if w.progress = .looked then
      if w.tunnel.generation ≠ w.sender.tunnelGeneration then
        some { w.clear with
          sender := { w.clear.sender with tunnelGeneration := w.tunnel.generation }
          progress := .polling [] }
      else some { w with progress := .polling [] }
    else none
  | .take =>
    match w.progress, w.tunnel.inbox with
    | .polling frames, e :: rest =>
      some { w with
        tunnel := { w.tunnel with inbox := rest }
        progress := .polling (frames ++ [e]) }
    | _, _ => none
  | .pollRaises =>
    match w.progress with
    | .polling [] => some { w with progress := .idle }
    | _ => none
  | .receive =>
    match w.progress with
    | .polling frames => some (w.receive frames)
    | _ => none
  | .drive now => if w.progress = .drained then some (w.drive now) else none
  | .ack ackId mask now => w.link (w.sender.rel.onAck ackId mask now) w.sender.ackOwed
  | .data seq => w.link (w.sender.rel.noteReceived seq) true
  | .rttSample sample =>
    w.link { w.sender.rel with rtt := ReliableLink.addRttSample w.sender.rel.rtt sample }
      w.sender.ackOwed

end Outbound

/-- The runs of a simulation and its tunnel. -/
def outbound [Clock Time] (parent : Bool) (knobs : Knobs Time) :
    System (Outbound Time) (OutboundLabel Time) :=
  .ofStep (fun w => ∃ tunnel : Tunnel, tunnel.Own ∧ w = .fresh parent knobs tunnel) Outbound.step

end SwitchTrade.Reliable

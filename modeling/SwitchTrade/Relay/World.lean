import SwitchTrade.Relay.Session
import SwitchTrade.Transition.Run

/-!
# The handlers of one attempt

`ws_attempt_v2` runs once for each WebSocket. This file is all of its runs for the two
seats of one attempt: the sessions made so far (a session leaves the registry before its
last section ran, so a later one may stand beside it), the handlers, and each socket.

A step is one lock-protected section, or what a handler does between two of them. Between
taking a frame from its socket and handling it a handler waits for the lock; that is the
state `holding`, and other sections may run meanwhile.

`asyncio.wait_for` around a send leaves three outcomes: the frame is in the stream; it is in
the stream but the send timed out; or the socket is gone and delivers nothing from then on.
-/

namespace SwitchTrade.Relay

open Tunnel

abbrev SessionId := Nat

/-! ## Sockets and handlers -/

/-- Where a handler stands. -/
inductive Handler where
  /-- Admitted, with its session; waits for the lock to take its seat. -/
  | arriving
  /-- Its retained replay failed; waits for the lock to give the seat back. -/
  | replayFailed
  /-- Waits for a frame or for its reset event. -/
  | receiving
  /-- Took a frame; waits for the lock to handle it. -/
  | holding (e : Envelope)
  /-- Left its loop; waits for the lock to clean up. -/
  | leaving (fatalCode : Option String)
  | ended
  deriving DecidableEq, Repr

/-- The frame a handler holds. -/
def Handler.frame? : Handler → Option Envelope
  | .holding e => some e
  | _ => none

/-- How a send ends. `raised` is an exception `wait_for`'s callers do not catch. -/
inductive Sent where
  | delivered | timedOut | failed | raised
  deriving DecidableEq, Repr

/-- How a retained replay ends, and after how many frames. -/
inductive Replay where
  | complete
  | fails (count : Nat) (broken : Bool)
  | dies (count : Nat)
  deriving DecidableEq, Repr

/-- The replay ends the handler at once. -/
def Replay.diesEarly : Replay → Bool
  | .dies _ => true
  | _ => false

/-- One handler with its socket: `received` are the frames it took, `passed` those that
passed their section, `delivered` the frames sent to it that reached the stream. `replayed`
says that its retained replay went through. -/
structure Conn where
  seat : SourceSeat
  session : SessionId
  handler : Handler
  reset : Bool
  broken : Bool
  replayed : Bool
  received : List Envelope
  passed : List Envelope
  delivered : List Envelope
  deriving DecidableEq, Repr

/-- A handler that was just admitted. -/
def Conn.fresh (seat : SourceSeat) (session : SessionId) : Conn :=
  { seat, session, handler := .arriving, reset := false, broken := false, replayed := false
    received := [], passed := [], delivered := [] }

/-- A send to the socket, and whether the sender sees it succeed. -/
def Conn.send (conn : Conn) (e : Envelope) (sent : Sent) : Conn × Bool :=
  if conn.broken then (conn, false)
  else match sent with
    | .delivered => ({ conn with delivered := conn.delivered ++ [e] }, true)
    | .timedOut => ({ conn with delivered := conn.delivered ++ [e] }, false)
    | .failed | .raised => ({ conn with broken := true }, false)

/-- What an observer of the relay notes: a frame that passed its section, a frame handed to
the other seat's socket, a seat whose connection was lost. -/
inductive Event where
  | accepted (session : SessionId) (seat : SourceSeat) (e : Envelope)
  | forwarded (session : SessionId) (seat : SourceSeat) (e : Envelope)
  | lost (session : SessionId) (seat : SourceSeat)
  deriving DecidableEq, Repr

/-- `registered` is `v2_sessions.get(key)`; `disconnecting` are the sessions for which
`_disconnect_v2_session` waits for the lock; `trace` has the newest event first. -/
structure World where
  sessions : List V2Session
  registered : Option SessionId
  disconnecting : List SessionId
  conns : List Conn
  trace : List Event
  deriving DecidableEq, Repr

namespace World

def empty : World :=
  { sessions := [], registered := none, disconnecting := [], conns := [], trace := [] }

def setSession (w : World) (i : SessionId) (s : V2Session) : World :=
  { w with sessions := w.sessions.set i s }

def modifyConn (w : World) (c : ConnId) (f : Conn → Conn) : World :=
  { w with conns := w.conns.modify c f }

def note (w : World) (event : Event) : World := { w with trace := event :: w.trace }

/-- Continue the handler of a connection elsewhere. -/
def goto (w : World) (c : ConnId) (handler : Handler) : World :=
  w.modifyConn c fun conn => { conn with handler }

/-- A frame of the connection passed its section. -/
def pass (w : World) (c : ConnId) (e : Envelope) (handler : Handler) : World :=
  w.modifyConn c fun conn => { conn with handler, passed := conn.passed ++ [e] }

/-- Session `i` leaves the registry, or whichever has its key does, for a disconnect that
waits for the lock. -/
def detach (w : World) (i : SessionId) : World :=
  { w with registered := none, disconnecting := i :: w.disconnecting }

/-! ## What each update leaves alone -/

section Fields

variable (w : World) (i : SessionId) (s : V2Session) (c : ConnId) (f : Conn → Conn) (event : Event)
  (e : Envelope) (handler : Handler)

@[simp] theorem setSession_sessions : (w.setSession i s).sessions = w.sessions.set i s := rfl

@[simp] theorem setSession_registered : (w.setSession i s).registered = w.registered := rfl

@[simp] theorem setSession_disconnecting : (w.setSession i s).disconnecting = w.disconnecting := rfl

@[simp] theorem setSession_conns : (w.setSession i s).conns = w.conns := rfl

@[simp] theorem setSession_trace : (w.setSession i s).trace = w.trace := rfl

@[simp] theorem modifyConn_sessions : (w.modifyConn c f).sessions = w.sessions := rfl

@[simp] theorem modifyConn_registered : (w.modifyConn c f).registered = w.registered := rfl

@[simp] theorem modifyConn_disconnecting : (w.modifyConn c f).disconnecting = w.disconnecting := rfl

@[simp] theorem modifyConn_conns : (w.modifyConn c f).conns = w.conns.modify c f := rfl

@[simp] theorem modifyConn_trace : (w.modifyConn c f).trace = w.trace := rfl

@[simp] theorem note_sessions : (w.note event).sessions = w.sessions := rfl

@[simp] theorem note_registered : (w.note event).registered = w.registered := rfl

@[simp] theorem note_disconnecting : (w.note event).disconnecting = w.disconnecting := rfl

@[simp] theorem note_conns : (w.note event).conns = w.conns := rfl

@[simp] theorem note_trace : (w.note event).trace = event :: w.trace := rfl

@[simp] theorem goto_sessions : (w.goto c handler).sessions = w.sessions := rfl

@[simp] theorem goto_registered : (w.goto c handler).registered = w.registered := rfl

@[simp] theorem goto_disconnecting : (w.goto c handler).disconnecting = w.disconnecting := rfl

@[simp] theorem goto_conns :
    (w.goto c handler).conns = w.conns.modify c fun conn => { conn with handler } := rfl

@[simp] theorem goto_trace : (w.goto c handler).trace = w.trace := rfl

@[simp] theorem pass_sessions : (w.pass c e handler).sessions = w.sessions := rfl

@[simp] theorem pass_registered : (w.pass c e handler).registered = w.registered := rfl

@[simp] theorem pass_disconnecting : (w.pass c e handler).disconnecting = w.disconnecting := rfl

@[simp] theorem pass_conns : (w.pass c e handler).conns =
    w.conns.modify c fun conn => { conn with handler, passed := conn.passed ++ [e] } := rfl

@[simp] theorem pass_trace : (w.pass c e handler).trace = w.trace := rfl

@[simp] theorem detach_sessions : (w.detach i).sessions = w.sessions := rfl

@[simp] theorem detach_registered : (w.detach i).registered = none := rfl

@[simp] theorem detach_disconnecting : (w.detach i).disconnecting = i :: w.disconnecting := rfl

@[simp] theorem detach_conns : (w.detach i).conns = w.conns := rfl

@[simp] theorem detach_trace : (w.detach i).trace = w.trace := rfl

end Fields

/-! ## The sections -/

/-- The admission passed: the handler gets the registered session, or makes one. -/
def arrive (attemptId : String) (w : World) (seat : SourceSeat) : World :=
  match w.registered with
  | some i => { w with conns := w.conns ++ [.fresh seat i] }
  | none =>
    { w with
      sessions := w.sessions ++ [.new attemptId]
      registered := some w.sessions.length
      conns := w.conns ++ [.fresh seat w.sessions.length] }

/-- The connect section: take the seat and replay what the peer's seat has retained. -/
def connect (w : World) (c : ConnId) (replay : Replay) : Option World := do
  let conn ← w.conns[c]?
  let s ← w.sessions[conn.session]?
  if conn.handler ≠ .arriving then none
  else if (s.peers.get conn.seat).isSome then return w.goto c .ended
  else
    let w := w.setSession conn.session (s.take conn.seat c)
    let retained := s.retained.get conn.seat.peer
    match replay with
    | .complete =>
      return w.modifyConn c fun x =>
        { x with handler := .receiving, replayed := true, delivered := retained }
    | .fails count broken =>
      return w.modifyConn c fun x =>
        { x with handler := .replayFailed, broken, delivered := retained.take count }
    | .dies count =>
      return (w.modifyConn c fun x =>
        { x with handler := .ended, broken := true, delivered := retained.take count }).note
          (.lost conn.session conn.seat)

/-- The section after a failed replay: give the seat back. -/
def vacate (w : World) (c : ConnId) : Option World := do
  let conn ← w.conns[c]?
  let s ← w.sessions[conn.session]?
  if conn.handler ≠ .replayFailed then none
  else if s.peers.get conn.seat = some c then
    return ((w.setSession conn.session (s.free conn.seat)).goto c .ended).note
      (.lost conn.session conn.seat)
  else return w.goto c .ended

/-- A frame arrives at a handler that was not reset. An error is what `Envelope.decode`
raised on it. -/
def receive (attemptId : String) (w : World) (c : ConnId) (frame : Except TunnelV2Error Envelope) :
    Option World := do
  let conn ← w.conns[c]?
  if conn.handler ≠ .receiving ∨ conn.reset then none
  else match frame with
    | .error error => return w.goto c (.leaving (some error.code))
    | .ok e =>
      if e.attemptId ≠ attemptId ∨ e.sourceSeat ≠ conn.seat then
        return w.goto c (.leaving (some "C_IDENTITY_MISMATCH"))
      else return w.modifyConn c fun conn =>
        { conn with handler := .holding e, received := conn.received ++ [e] }

/-- The handler sees its reset event. -/
def observeReset (w : World) (c : ConnId) : Option World := do
  let conn ← w.conns[c]?
  if conn.handler ≠ .receiving ∨ ¬ conn.reset then none
  else return w.goto c (.leaving none)

/-- The socket ended while the handler waited for a frame. -/
def drop (w : World) (c : ConnId) : Option World := do
  let conn ← w.conns[c]?
  if conn.handler ≠ .receiving then none else return w.goto c (.leaving none)

/-- The frame section: check the frame, then hand it to the peer. A send that fails ends
the sender's loop. -/
def handle (lib : Library) (attemptId : String) (w : World) (c : ConnId) (admitted : Admitted)
    (sent : Sent) : Option World := do
  let conn ← w.conns[c]?
  let s ← w.sessions[conn.session]?
  match conn.handler with
  | .holding e =>
    match s.handle lib attemptId conn.seat admitted e with
    | .error (error, s) =>
      return (w.setSession conn.session s).goto c (.leaving error.fatalCode)
    | .ok s =>
      let w := (w.setSession conn.session s).note (.accepted conn.session conn.seat e)
      match s.peers.get conn.seat.peer with
      | none => return w.pass c e .receiving
      | some p =>
        let peer ← w.conns[p]?
        let (peer, succeeded) := peer.send e sent
        return ((w.modifyConn p fun _ => peer).note (.forwarded conn.session conn.seat e)).pass c e
          (if succeeded then .receiving else .leaving none)
  | _ => none

/-- The part of the cleanup section that tells the peer: `PEER_CLOSE` if the seat had an
epoch, the reset event, and its eviction. An uncaught exception of the send skips the rest. -/
def resetPeer (attemptId : String) (w : World) (i : SessionId) (s : V2Session) (seat : SourceSeat)
    (sent : Sent) : Option World :=
  match s.peers.get seat.peer with
  | none => return w.setSession i s
  | some p => do
    let peer ← w.conns[p]?
    match (s.gates.get seat).epoch with
    | none =>
      return ((w.setSession i (s.free seat.peer)).modifyConn p fun peer =>
        { peer with reset := true }).note (.lost i seat.peer)
    | some epoch =>
      let told :=
        (peer.send (V2Session.closeEnvelope attemptId seat (s.gates.get seat) epoch) sent).1
      if sent = .raised ∧ ¬ peer.broken then
        return (w.setSession i (s.closed seat)).modifyConn p fun _ => told
      else
        return ((w.setSession i ((s.closed seat).free seat.peer)).modifyConn p fun _ =>
          { told with reset := true }).note (.lost i seat.peer)

/-- The cleanup section. A handler with a fatal code then takes the session, or whichever
now has its key, out of the registry and waits to disconnect it. -/
def leave (attemptId : String) (w : World) (c : ConnId) (sent : Sent) : Option World := do
  let conn ← w.conns[c]?
  let s ← w.sessions[conn.session]?
  match conn.handler with
  | .leaving fatalCode =>
    let w := w.goto c .ended
    if s.peers.get conn.seat = some c then
      let w := w.note (.lost conn.session conn.seat)
      let s := s.free conn.seat
      if fatalCode.isSome then
        return (w.setSession conn.session s).detach conn.session
      else if w.registered = some conn.session then
        w.resetPeer attemptId conn.session s.forget conn.seat sent
      else return w.setSession conn.session s
    else if fatalCode.isSome then return w.detach conn.session
    else return w
  | _ => none

/-- `_disconnect_v2_session` up to the lock, called for session `i`: its key leaves the
registry. -/
def unregister (w : World) (i : SessionId) : Option World :=
  if i < w.sessions.length then some (w.detach i) else none

/-- Reset and evict the connection of one seat. -/
def evict (w : World) (i : SessionId) (seat : SourceSeat) : World :=
  match w.sessions[i]? with
  | none => w
  | some s =>
    match s.peers.get seat with
    | none => w
    | some p =>
      ((w.setSession i (s.free seat)).modifyConn p fun peer =>
        { peer with reset := true }).note (.lost i seat)

/-- The section of `_disconnect_v2_session`. It does not clear the `SIDE_READY` epochs. -/
def disconnect (w : World) (i : SessionId) : Option World :=
  if i ∈ w.disconnecting then
    let w := ({ w with disconnecting := w.disconnecting.erase i }.evict i .memberA).evict i .memberB
    match w.sessions[i]? with
    | none => some w
    | some s => some (w.setSession i { s with retained := .both [], retainedBytes := .both 0 })
  else none

end World

/-! ## Runs -/

inductive Label where
  | arrive (seat : SourceSeat)
  | connect (c : ConnId) (replay : Replay)
  | vacate (c : ConnId)
  | receive (c : ConnId) (frame : Except TunnelV2Error Envelope)
  | observeReset (c : ConnId)
  | drop (c : ConnId)
  | handle (c : ConnId) (admitted : Admitted) (sent : Sent)
  | leave (c : ConnId) (sent : Sent)
  | unregister (i : SessionId)
  | disconnect (i : SessionId)

def World.step (lib : Library) (attemptId : String) (w : World) : Label → Option World
  | .arrive seat => some (w.arrive attemptId seat)
  | .connect c replay => w.connect c replay
  | .vacate c => w.vacate c
  | .receive c frame => w.receive attemptId c frame
  | .observeReset c => w.observeReset c
  | .drop c => w.drop c
  | .handle c admitted sent => w.handle lib attemptId c admitted sent
  | .leave c sent => w.leave attemptId c sent
  | .unregister i => w.unregister i
  | .disconnect i => w.disconnect i

/-- The relay of one attempt, from before its first connection. -/
def system (lib : Library) (attemptId : String) : Transition.System World Label :=
  .ofStep (· = .empty) (World.step lib attemptId)

end SwitchTrade.Relay

import SwitchTrade.Relay.Section

/-!
# The reconnect window

`_expire_v2_peer`: the cleanup of a connection leaves a task behind for each seat it gave
back. The task sleeps through the reconnect window and then fails the attempt if the seat is
still empty and of the same generation. `Timed` is the relay of `World.lean` with a clock,
the tasks that sleep, the seats that were taken so far, and the attempts that expiry failed.
-/

namespace SwitchTrade.Relay

open Tunnel

/-! ## The tasks -/

/-- A sleeping `_expire_v2_peer(session, seat, generation)`, with the time it was made at and
the number of connections that had taken a seat by then. -/
structure ExpiryTask where
  session : SessionId
  seat : SourceSeat
  generation : Nat
  since : Nat
  joins : Nat
  deriving DecidableEq, Repr

/-- A call of `fail_transport_attempt` by a task: the time, and the number of connections that
had taken a seat by then. -/
structure Failure where
  task : ExpiryTask
  time : Nat
  joins : Nat
  deriving DecidableEq, Repr

namespace World

/-- The send of the `PEER_CLOSE` raises what the cleanup section does not catch. -/
def closeEscapes (w : World) (s : V2Session) (seat : SourceSeat) (sent : Sent) : Bool :=
  match s.peers.get seat.peer with
  | none => false
  | some p =>
    match w.conns[p]? with
    | none => false
    | some peer => sent = .raised && (s.gates.get seat).epoch.isSome && !peer.broken

/-- `expire_targets` of a handler that leaves, where it gets as far as making the tasks. -/
def expireTargets (w : World) (c : ConnId) (sent : Sent) :
    List (SessionId × SourceSeat × Nat) :=
  match w.conns[c]? with
  | none => []
  | some conn =>
    match w.sessions[conn.session]? with
    | none => []
    | some s =>
      let target (seat : SourceSeat) := (conn.session, seat, s.generations.get seat)
      if conn.handler = .leaving none ∧ s.peers.get conn.seat = some c ∧
          w.registered = some conn.session ∧ w.closeEscapes s conn.seat sent = false then
        if (s.peers.get conn.seat.peer).isSome then [target conn.seat, target conn.seat.peer]
        else [target conn.seat]
      else []

/-- The tasks a step makes. -/
def scheduled (w : World) : Label → List (SessionId × SourceSeat × Nat)
  | .leave c sent => w.expireTargets c sent
  | _ => []

/-- The seat a step takes. -/
def joins (w : World) : Label → List (SessionId × SourceSeat)
  | .connect c _ =>
    match w.conns[c]? with
    | none => []
    | some conn =>
      match w.sessions[conn.session]? with
      | none => []
      | some s =>
        if conn.handler = .arriving ∧ s.peers.get conn.seat = none then [(conn.session, conn.seat)]
        else []
  | _ => []

end World

/-! ## Runs in time -/

structure Timed where
  world : World
  now : Nat
  tasks : List ExpiryTask
  joined : List (SessionId × SourceSeat)
  failures : List Failure
  deriving DecidableEq, Repr

inductive TimedLabel where
  | relay (l : Label)
  | wait (seconds : Nat)
  | expire (k : Nat)

namespace Timed

def empty : Timed := { world := .empty, now := 0, tasks := [], joined := [], failures := [] }

/-- A step of the relay, with the tasks it makes. -/
def relay (lib : Library) (attemptId : String) (t : Timed) (l : Label) : Option Timed :=
  (t.world.step lib attemptId l).map fun w =>
    { t with
      world := w
      tasks := t.tasks ++ (t.world.scheduled l).map fun target =>
        ⟨target.1, target.2.1, target.2.2, t.now, t.joined.length⟩
      joined := t.joined ++ t.world.joins l }

/-- The seat is empty since the task was made, and the session is the one of its key. -/
def expired (w : World) (task : ExpiryTask) : Bool :=
  match w.sessions[task.session]? with
  | none => false
  | some s =>
    s.peers.get task.seat = none && s.generations.get task.seat = task.generation &&
      w.registered = some task.session

/-- The task wakes up. -/
def expire (window : Nat) (t : Timed) (k : Nat) : Option Timed := do
  let task ← t.tasks[k]?
  let t' := { t with tasks := t.tasks.eraseIdx k }
  if t.now < task.since + window then none
  else if expired t.world task then
    return { t' with
      world := t.world.detach task.session
      failures := ⟨task, t.now, t.joined.length⟩ :: t.failures }
  else return t'

def step (lib : Library) (attemptId : String) (window : Nat) (t : Timed) :
    TimedLabel → Option Timed
  | .relay l => t.relay lib attemptId l
  | .wait seconds => some { t with now := t.now + seconds }
  | .expire k => t.expire window k

end Timed

/-- The relay of one attempt in time, with `V2_RECONNECT_SECONDS`. -/
def timedSystem (lib : Library) (attemptId : String) (window : Nat) :
    Transition.System Timed TimedLabel :=
  .ofStep (· = .empty) (Timed.step lib attemptId window)

/-! ## What is to hold -/

/-- A handler that was given its seat and has not ended. -/
def Handler.running : Handler → Bool
  | .arriving | .ended => false
  | _ => true

/-- A seat is occupied only by a connection of the seat whose handler is running. -/
def SlotsRunning (sessions : List V2Session) (conns : List Conn) : Prop :=
  ∀ (i : SessionId) (s : V2Session), sessions[i]? = some s → ∀ seat c, s.peers.get seat = some c →
    ∃ conn, conns[c]? = some conn ∧ conn.seat = seat ∧ conn.session = i ∧
      conn.handler.running = true

/-- A seat that was taken before and is empty has a task of its generation, while its session
is the one of its key. -/
def Timed.Awaited (t : Timed) : Prop :=
  ∀ i s, t.world.registered = some i → t.world.sessions[i]? = some s →
    ∀ seat, 0 < s.generations.get seat → s.peers.get seat = none →
      ∃ task ∈ t.tasks, task.session = i ∧ task.seat = seat ∧
        task.generation = s.generations.get seat

/-- An attempt that expiry failed was failed a window after the seat was given back, and no
connection had taken the seat in between. -/
def Timed.FailedLate (window : Nat) (t : Timed) : Prop :=
  ∀ failure ∈ t.failures, failure.task.since + window ≤ failure.time ∧
    (failure.task.session, failure.task.seat) ∉
      (t.joined.take failure.joins).drop failure.task.joins

/-! ## The conditions -/

/-- No retained replay ends with an exception that `ws_attempt_v2` does not catch. -/
def ReplaysCaught (w : World) : Label → Prop
  | .connect c replay => w.joins (.connect c replay) = [] ∨ replay.diesEarly = false
  | _ => True

/-- No connection of the registered session whose retained replay failed gives its seat back,
and no `PEER_CLOSE` of a cleanup raises what it does not catch. -/
def Rescheduled (w : World) : Label → Prop
  | .vacate c => ∀ conn ∈ w.conns[c]?, ∀ s ∈ w.sessions[conn.session]?,
      s.peers.get conn.seat = some c → w.registered ≠ some conn.session
  | .leave c sent => ∀ conn ∈ w.conns[c]?, ∀ s ∈ w.sessions[conn.session]?,
      s.peers.get conn.seat = some c → w.registered = some conn.session →
        w.closeEscapes s conn.seat sent = false
  | _ => True

/-- A condition on the steps of the relay. -/
def OnRelay (G : World → Label → Prop) (t : Timed) : TimedLabel → Prop
  | .relay l => G t.world l
  | _ => True

end SwitchTrade.Relay

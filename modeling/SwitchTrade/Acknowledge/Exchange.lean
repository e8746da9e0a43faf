import SwitchTrade.Acknowledge.MeasuredControl
import SwitchTrade.Authority.Remembered

/-!
# The D5 acknowledgement and the relay

`MeasuredD5Control.acknowledge` as a process that may die between any two of its steps,
beside the relay it asks. A step is one call, one write of the state file, one request, or
one call of anybody else on the relay. A request may fail to reach the relay, and an answer
may fail to come back; either is the same error to the process.

The relay's model numbers its identifiers. `number` says which identifier a text stands for.
-/

namespace SwitchTrade.Acknowledge

open Fallible Transition
open Authority (Store Op Time Token DQuiescentPayload Response Exn)
open Release (D5Payload)

/-! ## States -/

/-- Where the process is in `acknowledge`, with the member token it was made with: after the
measurement, before one of the requests of the loop, or before the write that follows a
version conflict. The count is the loop's `attempt`. -/
inductive Stage where
  | idle
  | persisting (bearer : Token) (state : D5State)
  | submitting (bearer : Token) (state : D5State) (attempt : Nat)
  | refreshing (bearer : Token) (state : D5State) (attempt : Nat)
  | saving (bearer : Token) (state : D5State) (attempt : Nat)
  deriving DecidableEq, Repr

/-- One request of the loop. -/
structure Request where
  roomId : String
  attemptId : String
  payload : D5Payload
  commandId : String
  deriving DecidableEq, Repr

/-- What a run does, in order: a measurement that begins, one that no state was left of, the
first write of the state, a request, and a call that returned with its control state. -/
inductive Event where
  | probed
  | lost
  | persisted (state : D5State)
  | requested (request : Request)
  | reported (control : D5State)
  deriving DecidableEq, Repr

structure World where
  relay : Store
  file : Option D5State
  stage : Stage
  trace : List Event

inductive Label where
  | call (c : Call)
  | persist
  | submit (now : Time) (arrives returns : Bool)
  | refresh (now : Time) (returns : Bool)
  | save
  /-- The process dies, or what it does raises. -/
  | stop
  /-- Anybody's call on the relay. -/
  | other (op : Op)

/-! ## Steps -/

def D5State.request (s : D5State) : Request := ⟨s.roomId, s.attemptId, s.payload, s.commandId⟩

/-- `{**state, "expected_room_version": current["room_version"]}`. -/
def D5State.expecting (s : D5State) (version : Nat) : D5State :=
  { s with expectedRoomVersion := version }

/-- The payload as the relay reads it. -/
def wire (number : String → Nat) (p : D5Payload) : DQuiescentPayload where
  contractVersion := "d-side-quiescent.v1"
  attemptId := some (number p.attemptId)
  activationGeneration := some p.activationGeneration
  sourceSeat := some p.sourceSeat
  runId := some p.runId
  stageGeneration := some p.stageGeneration
  launchIdentitySha256 := some p.launchIdentitySha256
  evidence := some p.evidence

/-- `relay.acknowledge_distributed_d`, at the relay. -/
def send (number : String → Nat) (relay : Store) (now : Time) (bearer : Token) (s : D5State) :
    Except Exn Response × Store :=
  relay.acknowledgeDQuiescent now (number s.roomId) bearer s.commandId (number s.attemptId)
    (wire number s.payload) s.expectedRoomVersion

/-- What the process makes of the answer to a request. -/
def answered (bearer : Token) (s : D5State) (attempt : Nat) :
    Except Exn Response → Stage × List Event
  | .ok _ => (.idle, [.reported s])
  | .error e =>
    -- `error.code != "room_version_conflict" or attempt == 7`
    if e = .authority 409 "room version conflict" ∧ attempt ≠ 7 then
      (.refreshing bearer s attempt, [])
    else (.idle, [])

variable (py : Release.Library) (number : String → Nat)

/-- `_load_or_prepare`, from an idle process on. -/
def World.begin (w : World) (c : Call) : World :=
  match w.file with
  | some file =>
    match loaded py c file with
    | .ok state => { w with stage := .submitting c.memberToken state 0 }
    | .error _ => w
  | none =>
    match admitted py c with
    | .error _ => w
    | .ok a =>
      match measured c a with
      | .ok (some state) =>
        { w with stage := .persisting c.memberToken state, trace := w.trace ++ [.probed] }
      | _ => { w with trace := w.trace ++ [.probed, .lost] }

def World.submit (w : World) (now : Time) (bearer : Token) (s : D5State) (attempt : Nat)
    (arrives returns : Bool) : World :=
  let trace := w.trace ++ [.requested s.request]
  if arrives then
    let (answer, relay) := send number w.relay now bearer s
    if returns then
      let (stage, events) := answered bearer s attempt answer
      { w with relay, stage, trace := trace ++ events }
    else { w with relay, stage := .idle, trace }
  else { w with stage := .idle, trace }

/-- `relay.room` after a version conflict. -/
def World.refresh (w : World) (now : Time) (bearer : Token) (s : D5State) (attempt : Nat)
    (returns : Bool) : World :=
  let (answer, relay) := w.relay.snapshot now (number s.roomId) bearer
  match answer, returns with
  | .ok view, true =>
    { w with relay, stage := .saving bearer (s.expecting view.roomVersion) attempt }
  | _, _ => { w with relay, stage := .idle }

def World.stop (w : World) : World :=
  match w.stage with
  | .persisting _ _ => { w with stage := .idle, trace := w.trace ++ [.lost] }
  | _ => { w with stage := .idle }

/-- One step of the process or of the relay. -/
def World.step (w : World) : Label → Option World
  | .call c => if w.stage = .idle then some (w.begin py c) else none
  | .persist =>
    match w.stage with
    | .persisting bearer state =>
      some { w with
        file := some state, stage := .submitting bearer state 0,
        trace := w.trace ++ [.persisted state] }
    | _ => none
  | .submit now arrives returns =>
    match w.stage with
    | .submitting bearer state attempt =>
      some (w.submit number now bearer state attempt arrives returns)
    | _ => none
  | .refresh now returns =>
    match w.stage with
    | .refreshing bearer state attempt => some (w.refresh number now bearer state attempt returns)
    | _ => none
  | .save =>
    match w.stage with
    | .saving bearer state attempt =>
      some { w with file := some state, stage := .submitting bearer state (attempt + 1) }
    | _ => none
  | .stop => some w.stop
  | .other op => some { w with relay := w.relay.step op }

def World.initial : World := ⟨.initial, none, .idle, []⟩

/-- The exchange from an empty relay and no state file on. -/
def exchange : System World Label := System.ofStep (· = World.initial) (World.step py number)

/-- The state of the run: the one on disk, or the one about to be written there. -/
def World.own (w : World) : Option D5State :=
  match w.file, w.stage with
  | some file, _ => some file
  | none, .persisting _ state => some state
  | none, _ => none

/-- The command id of a call that acknowledges. -/
def acknowledgement : Op → Option String
  | .acknowledgeDQuiescent _ _ _ commandId _ _ _ => some commandId
  | _ => none

/-- `RelayClient.command_id` draws an identifier that no acknowledgement of the relay has, and
nobody else's acknowledgement comes with it. -/
def Unshared (w : World) : Label → Prop
  | .call c => ∀ row ∈ w.relay.db.commands, row.commandId = c.commandId →
      row.scope.isQuiescent = false
  | .other op => ∀ s ∈ w.own, acknowledgement op ≠ some s.commandId
  | _ => True

instance (w : World) : ∀ l : Label, Decidable (Unshared w l)
  | .call c => inferInstanceAs (Decidable (∀ row ∈ w.relay.db.commands,
      row.commandId = c.commandId → row.scope.isQuiescent = false))
  | .other op => inferInstanceAs (Decidable (∀ s ∈ w.own, acknowledgement op ≠ some s.commandId))
  | .persist | .submit .. | .refresh .. | .save | .stop => .isTrue trivial

/-- The request an event is about: one that is sent, or the one a report is of. -/
def Event.request? : Event → Option Request
  | .requested request => some request
  | .reported control => some control.request
  | _ => none

/-- The requests of a run, with those its reports are of. -/
def World.requests (w : World) : List Request := w.trace.filterMap Event.request?

/-- The relay holds exactly this payload as the report of its seat. -/
def World.Holds (w : World) (roomId attemptId : String) (p : D5Payload) : Prop :=
  w.relay.Records (number roomId) (number attemptId) (wire number p)

end SwitchTrade.Acknowledge

import SwitchTrade.Authority.Commands
import SwitchTrade.Transition.Uuid

/-!
# The endpoint's D stage

`switchtrade/connection/d_stage.py`: the ordered shutdown D2-D4 of one endpoint, and the
report it leaves. What the hooks do is an input: each of them returns or raises, and a call
that raises is the text of its exception. The clock is monotonic, so that what has passed
since the stage started is a natural number of milliseconds.
-/

namespace SwitchTrade.Closing

open Fallible
open Authority (Seat dCode dGate sha256Pattern)

/-- A JSON value as Python reads it. -/
inductive Json where
  | null
  | bool (b : Bool)
  | int (n : Int)
  | text (s : String)
  | list (items : List Json)
  | dict (items : List (String × Json))

namespace Json

/-- `value.get(key)`. -/
def get (items : List (String × Json)) (key : String) : Json :=
  ((items.find? fun item => item.1 = key).map Prod.snd).getD .null

/-- `set(value) == fields`. -/
def hasKeys (items : List (String × Json)) (fields : List String) : Bool :=
  (items.all fun item => item.1 ∈ fields) && fields.all fun key => key ∈ items.map Prod.fst

/-- `isinstance(value, str) and p(value)`. -/
def isText (p : String → Bool) : Json → Bool
  | .text s => p s
  | _ => false

/-- An integer that is no Boolean, in a range. -/
def isInt (p : Int → Bool) : Json → Bool
  | .int n => p n
  | _ => false

def isBool : Json → Bool
  | .bool _ => true
  | _ => false

/-- `value == b`, of a Boolean. -/
def isBoolean (b : Bool) : Json → Bool
  | .bool c => c == b
  | _ => false

def isNull : Json → Bool
  | .null => true
  | _ => false

def ofOption : Option String → Json
  | some s => .text s
  | none => .null

end Json

/-- `GATES`. -/
def gates : List String := ["D2_GAME_CLOSE_TAIL", "D3_BRIDGE_DRAIN", "D4_LDN_TEARDOWN"]

/-- `_INTENT_FIELDS`. -/
def intentFields : List String :=
  ["contract_version", "attempt_id", "activation_generation", "outcome",
    "primary_failure_code", "last_passed_gate"]

/-- The three outcomes, by their texts. -/
def isOutcome (s : String) : Bool := s ∈ ["completed", "canceled", "failed"]

def seatText : Seat → String
  | .memberA => "member_a"
  | .memberB => "member_b"

/-- The arguments the stage is made with, beside the intent and the hooks, as its checks
leave them: with any others the constructor raises before it reads the intent. The two
bounds are in milliseconds. -/
structure Launch where
  runId : BitVec 128
  sourceSeat : Seat
  stageGeneration : Int
  launchIdentitySha256 : String
  closeTail : Nat
  generation_pos : 1 ≤ stageGeneration
  identity : sha256Pattern launchIdentitySha256 = true
  bounded : 0 < closeTail

/-! ## The hooks -/

/-- One turn of the close-tail loop: the simulation before the turn, the clock, what `tick`
and `sleep` raise, and the simulation after the tick. -/
structure Turn where
  disconnected : Bool
  elapsed : Nat
  tick : Option String
  disconnectedAfter : Bool
  sleep : Option String

structure Simulation where
  turns : List Turn
  disconnected : Bool
  close : Option String

structure Drain where
  pendingLocalFrames : Int
  flushedLocalFrames : Int
  discardedLocalFrames : Int
  discardedRemoteFrames : Int
  deriving DecidableEq, Repr

/-- What `finish_drain` returned: whether it says `True` for the admission, what `int` makes
of its four counts, and the text of its error code if that is a true value. -/
structure DrainResult where
  admissionStopped : Bool
  counts : Except String Drain
  errorCode : Option String

/-- The bridge, with the identity the stage compares; the hash is none where the client
lacks the fields of a launch identity. -/
structure Bridge where
  runId : String
  attemptId : String
  sourceSeat : String
  activationGeneration : Int
  stageGeneration : Int
  launchHash : Option String
  finishDrain : Except String DrainResult
  stopTransport : Option String

/-- The resources the stage closes, each with what its calls raise; and the clock when the
gates are passed and the report is made. -/
structure Hooks where
  simulation : Option Simulation
  bridge : Option Bridge
  observer : Option (Option String)
  transport : Option (Option String)
  elapsed : String → Nat
  elapsedAtEnd : Nat

/-! ## The constructor -/

structure EndpointDStage where
  launch : Launch
  attemptId : String
  activationGeneration : Int
  outcome : String
  primaryFailureCode : Option String
  hooks : Hooks

def bridgeBelongs (launch : Launch) (attemptId : String) (activationGeneration : Int)
    (bridge : Bridge) : Bool :=
  bridge.runId = Uuid.text launch.runId && bridge.attemptId = attemptId &&
    bridge.sourceSeat = seatText launch.sourceSeat &&
    bridge.activationGeneration = activationGeneration &&
    bridge.stageGeneration = launch.stageGeneration &&
    bridge.launchHash = some launch.launchIdentitySha256

/-- The fields of the intent whose types and ranges are checked first. -/
def readIntent (closingIntent : Json) : Option (String × Int × String × Json × Json) :=
  match closingIntent with
  | .dict items =>
    match Json.get items "attempt_id", Json.get items "activation_generation",
        Json.get items "outcome" with
    | .text attemptId, .int activation, .text outcome =>
      if Json.hasKeys items intentFields ∧
          (Json.get items "contract_version").isText (· = "d-closing-intent.v1") ∧
          isOutcome outcome ∧ attemptId ≠ "" ∧ attemptId.length ≤ 128 ∧ 1 ≤ activation then
        some (attemptId, activation, outcome, Json.get items "primary_failure_code",
          Json.get items "last_passed_gate")
      else none
    | _, _, _ => none
  | _ => none

/-- The primary failure code that goes with the outcome. -/
def readPrimary (outcome : String) (primary lastGate : Json) : Option (Option String) :=
  match lastGate with
  | .text gate =>
    if dGate gate ∧ (outcome = "completed" → gate = "C_TRADE_COMPLETE") then
      match primary with
      | .text code => if outcome = "failed" ∧ dCode code then some (some code) else none
      | .null => if outcome = "failed" then none else some none
      | _ => none
    else none
  | _ => none

/-- `EndpointDStage.__init__`. -/
def EndpointDStage.new (launch : Launch) (closingIntent : Json) (hooks : Hooks) :
    Except String EndpointDStage := do
  let (attemptId, activation, outcome, primary, lastGate) ←
    orRaise (readIntent closingIntent) "D closing intent is invalid"
  let primaryFailureCode ← orRaise (readPrimary outcome primary lastGate)
    "D closing outcome is invalid"
  raiseIf (∃ bridge ∈ hooks.bridge, bridge.launchHash = none)
    "D bridge launch identity is unavailable"
  raiseIf (∃ bridge ∈ hooks.bridge, ¬ bridgeBelongs launch attemptId activation bridge)
    "D bridge identity does not match the closing intent"
  return { launch, attemptId, activationGeneration := activation, outcome, primaryFailureCode,
           hooks }

/-! ## The run -/

structure Failure where
  code : String
  gate : String
  message : String
  deriving DecidableEq, Repr

/-- `_failure`. -/
def failure (code gate message : String) : Failure :=
  ⟨code, gate, String.ofList (message.toList.take 500)⟩

/-- The close-tail loop: what it raised, if anything, once it is over. There is no answer
while the loop goes on after the last turn. -/
def tail (closeTail : Nat) : List Turn → Option (Option String)
  | [] => none
  | turn :: turns =>
    if turn.disconnected then some none
    else if closeTail ≤ turn.elapsed then some none
    else
      match turn.tick with
      | some error => some (some error)
      | none =>
        if turn.disconnectedAfter then some none
        else
          match turn.sleep with
          | some error => some (some error)
          | none => tail closeTail turns

/-- D2: whether the close tail was observed, and what failed. -/
def closeTail (bound : Nat) : Option Simulation → Option (Bool × List Failure)
  | none => some (true, [])
  | some simulation =>
    (tail bound simulation.turns).map fun raised =>
      match raised with
      | some error => (false, [failure "D_CLOSE_TAIL_FAILED" "D2_GAME_CLOSE_TAIL" error])
      | none =>
        if simulation.disconnected then (true, [])
        else (false, [failure "D_CLOSE_TAIL_TIMEOUT" "D2_GAME_CLOSE_TAIL"
          "native Switch close-link tail exceeded its deadline"])

def noDrain : Drain := ⟨0, 0, 0, 0⟩

/-- The first part of D3: whether the admission stopped, the counts, and what failed. -/
def drainBridge : Option Bridge → Bool × Drain × List Failure
  | none => (true, noDrain, [])
  | some bridge =>
    match bridge.finishDrain with
    | .error error => (false, noDrain, [failure "D_BRIDGE_DRAIN_FAILED" "D3_BRIDGE_DRAIN" error])
    | .ok result =>
      match result.counts with
      | .error error =>
        (result.admissionStopped, noDrain,
          [failure "D_BRIDGE_DRAIN_FAILED" "D3_BRIDGE_DRAIN" error])
      | .ok drain =>
        (result.admissionStopped, drain,
          (if result.admissionStopped then []
            else [failure "D_BRIDGE_ADMISSION_ACTIVE" "D3_BRIDGE_DRAIN"
              "C2 bridge still accepts RFU after drain"]) ++
          result.errorCode.toList.map fun code =>
            failure code "D3_BRIDGE_DRAIN" "C2 bridge could not drain cleanly")

/-- A resource that is closed by one call: whether it is closed, and what failed. -/
def closed (code gate : String) : Option (Option String) → Bool × List Failure
  | none => (true, [])
  | some none => (true, [])
  | some (some error) => (false, [failure code gate error])

/-- `evidence`. -/
structure Evidence where
  closeTailRequired : Bool
  closeTailObserved : Bool
  bridgeAdmissionStopped : Bool
  bridgeTransportExited : Bool
  observerStopped : Bool
  simulationClosed : Bool
  ldnReleased : Bool
  radioThreadExited : Bool

def Evidence.json (e : Evidence) : Json :=
  .dict [("close_tail_required", .bool e.closeTailRequired),
    ("close_tail_observed", .bool e.closeTailObserved),
    ("bridge_admission_stopped", .bool e.bridgeAdmissionStopped),
    ("bridge_transport_exited", .bool e.bridgeTransportExited),
    ("observer_stopped", .bool e.observerStopped),
    ("simulation_closed", .bool e.simulationClosed),
    ("ldn_released", .bool e.ldnReleased),
    ("radio_thread_exited", .bool e.radioThreadExited)]

def Drain.json (d : Drain) : Json :=
  .dict [("pending_local_frames", .int d.pendingLocalFrames),
    ("flushed_local_frames", .int d.flushedLocalFrames),
    ("discarded_local_frames", .int d.discardedLocalFrames),
    ("discarded_remote_frames", .int d.discardedRemoteFrames)]

def Failure.json (f : Failure) : Json :=
  .dict [("code", .text f.code), ("gate", .text f.gate), ("message", .text f.message)]

/-- The last gate of `GATES` that no failure names. -/
def lastPassedGate (failures : List Failure) : Option String :=
  gates.reverse.find? fun gate => !(failures.any fun failure => failure.gate = gate)

/-- What the steps of the shutdown came to. -/
structure Shutdown where
  evidence : Evidence
  drain : Drain
  failures : List Failure
  passed : List String

section

variable (hooks : Hooks)

def stopObserver : Bool × List Failure :=
  closed "D_OBSERVER_STOP_FAILED" "D3_BRIDGE_DRAIN" hooks.observer

def closeSimulation : Bool × List Failure :=
  closed "D_SIMULATION_CLOSE_FAILED" "D3_BRIDGE_DRAIN" (hooks.simulation.map Simulation.close)

def stopBridgeTransport : Bool × List Failure :=
  closed "D_BRIDGE_TRANSPORT_STOP_FAILED" "D3_BRIDGE_DRAIN" (hooks.bridge.map Bridge.stopTransport)

/-- D4. -/
def teardown : Bool × List Failure :=
  closed "D_LDN_TEARDOWN_FAILED" "D4_LDN_TEARDOWN" hooks.transport

/-- What D3 records; `d3_ok` turns false with every failure of it. -/
def d3Failures : List Failure :=
  (drainBridge hooks.bridge).2.2 ++ (stopObserver hooks).2 ++ (closeSimulation hooks).2 ++
    (stopBridgeTransport hooks).2

/-- The steps after the close tail, in their order. -/
def finish (tail : Bool × List Failure) : Shutdown where
  evidence :=
    { closeTailRequired := hooks.simulation.isSome
      closeTailObserved := tail.1
      bridgeAdmissionStopped := (drainBridge hooks.bridge).1
      bridgeTransportExited := (stopBridgeTransport hooks).1
      observerStopped := (stopObserver hooks).1
      simulationClosed := (closeSimulation hooks).1
      ldnReleased := (teardown hooks).1
      radioThreadExited := (teardown hooks).1 }
  drain := (drainBridge hooks.bridge).2.1
  failures := tail.2 ++ d3Failures hooks ++ (teardown hooks).2
  passed :=
    (if tail.1 then ["D2_GAME_CLOSE_TAIL"] else []) ++
    (if (d3Failures hooks).isEmpty && (drainBridge hooks.bridge).1 &&
        (stopBridgeTransport hooks).1 then ["D3_BRIDGE_DRAIN"] else []) ++
    (if (teardown hooks).1 then ["D4_LDN_TEARDOWN"] else [])

/-- D2 to D4. -/
def shutdown (bound : Nat) : Option Shutdown :=
  (closeTail bound hooks.simulation).map (finish hooks)

end

/-- The report of a stage, as a dictionary. -/
def EndpointDStage.report (stage : EndpointDStage) (s : Shutdown) : List (String × Json) :=
  [("contract_version", .text "d-endpoint-stage.v1"),
    ("run_id", .text (Uuid.text stage.launch.runId)),
    ("attempt_id", .text stage.attemptId),
    ("activation_generation", .int stage.activationGeneration),
    ("source_seat", .text (seatText stage.launch.sourceSeat)),
    ("stage_generation", .int stage.launch.stageGeneration),
    ("launch_identity_sha256", .text stage.launch.launchIdentitySha256),
    ("outcome", .text stage.outcome),
    ("primary_failure_code", .ofOption stage.primaryFailureCode),
    ("last_passed_gate", .ofOption (lastPassedGate s.failures)),
    ("status", .text (if s.failures.isEmpty then "passed" else "failed")),
    ("forced", .bool (!s.failures.isEmpty)),
    ("evidence", s.evidence.json),
    ("drain", s.drain.json),
    ("failures", .list ((s.failures.take 16).map Failure.json)),
    ("elapsed_ms", .int stage.hooks.elapsedAtEnd)]

/-- `run`: the report, and the gates the sink was told of, in their order. -/
def EndpointDStage.run (stage : EndpointDStage) :
    Option (List (String × Json) × List (String × Nat)) :=
  (shutdown stage.hooks stage.launch.closeTail).map fun s =>
    (stage.report s, s.passed.map fun gate => (gate, stage.hooks.elapsed gate))

end SwitchTrade.Closing

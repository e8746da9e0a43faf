import SwitchTrade.Relay.Session
import SwitchTrade.Transition.Fifo
import SwitchTrade.Transition.Run

/-!
# The C2 bridge of one endpoint

`C2Bridge` keeps the local frames back until both sides' `SIDE_READY` match the current
proof, then hands them to the client, and frames sent later behind them. The client runs in
a thread of its own: what it answers to the reads and calls of one operation is the record
`Answers`, and `sends` says of each call of `client.send_rfu` whether it raises.

Two lists of the model are not in the code: `accepted`, the frames `send_rfu` took, and
`handed`, the frames it passed to `client.send_rfu`.
-/

namespace SwitchTrade.Bridge

open Tunnel Fallible Transition

def maxPreBarrierFrames : Nat := 256

structure C2StageError where
  code : String
  gate : String
  message : String
  deriving DecidableEq, Repr

/-- What a call raises: the failure of the bridge, or an exception it does not catch. -/
inductive Raised where
  | stage (error : C2StageError)
  | uncaught
  deriving DecidableEq, Repr

/-- `ROLE_GATES`. -/
inductive SwitchRole where
  | aRoomJoiner | bApHost
  deriving DecidableEq, Repr

def SwitchRole.label : SwitchRole → String
  | .aRoomJoiner => "a_room_joiner"
  | .bApHost => "b_ap_host"

def SwitchRole.gate : SwitchRole → String
  | .aRoomJoiner => "A_READY"
  | .bApHost => "B_READY"

/-- `GATES`. -/
def localSideReady : String := "C_LOCAL_SIDE_READY"
def bridgeReadyGate : String := "C_BRIDGE_READY"
def rfuActiveGate : String := "C_RFU_ACTIVE"

/-- What a bridge is constructed with. -/
structure Binding where
  runId : String
  attemptId : String
  sourceSeat : SourceSeat
  switchRole : SwitchRole
  activationGeneration : Int
  advertisementSha256 : String
  deriving DecidableEq, Repr

/-- A local frame: its payload and its Reliable flags. -/
abbrev Frame := Bytes × Int

/-- What the client answers during one operation: its error, its proof generation as
`_sync_proof` reads it (0 while the data plane is not proven), the error `send_side_ready`
raises, the frames of `poll` with the reading of `data_plane_proven` after each, and the two
later readings. -/
structure Answers where
  lastErrorCode : String := ""
  lastError : String := ""
  proof : Nat := 0
  sideReady : Option String := none
  polled : List (Envelope × Bool) := []
  proven : Bool := false
  provenAfter : Bool := false
  deriving DecidableEq, Repr

structure C2Bridge where
  connected : Bool
  rfuActive : Bool
  connectionGeneration : Nat
  failure : Option C2StageError
  localGate : Option String
  localSentProof : Nat
  proofGeneration : Nat
  peerReadyKey : Option (Nat × Int)
  pendingLocal : List Frame
  pendingRemote : List Envelope
  canceled : Bool
  sealed : Bool
  generationTx : Nat
  generationRx : Nat
  accepted : List Frame
  handed : List Frame
  deriving DecidableEq, Repr

/-- What the bridge needs of its surroundings: its binding, the decoder of `SIDE_READY`, and
of the `n`-th call of `client.send_rfu` the error it raises, if any. -/
structure Client where
  binding : Binding
  decodeSideReady : Bytes → Except Relay.FrameError Relay.SideReady
  sends : Nat → Option String

namespace C2Bridge

def fresh : C2Bridge where
  connected := false
  rfuActive := false
  connectionGeneration := 0
  failure := none
  localGate := none
  localSentProof := 0
  proofGeneration := 0
  peerReadyKey := none
  pendingLocal := []
  pendingRemote := []
  canceled := false
  sealed := false
  generationTx := 0
  generationRx := 0
  accepted := []
  handed := []

/-- A call that returns leaves a bridge; one that raises leaves its error and a bridge. -/
abbrev Outcome := Except (Raised × C2Bridge) C2Bridge

/-- `_fail`: the first failure stays. -/
def fail (b : C2Bridge) (code gate message : String) : Outcome :=
  let failure := b.failure.getD ⟨code, gate, message⟩
  .error (.stage failure,
    { b with failure := some failure, connected := false, rfuActive := false })

def invalidate (b : C2Bridge) : C2Bridge :=
  { b with
    connected := false
    rfuActive := false
    peerReadyKey := none
    localSentProof := 0
    pendingRemote := []
    generationTx := 0
    generationRx := 0
    connectionGeneration := b.connectionGeneration + 1 }

/-- `_sync_proof`, where it notes another proof. -/
def noteProof (b : C2Bridge) (proof : Nat) : C2Bridge :=
  if proof ≠ b.proofGeneration then { b.invalidate with proofGeneration := proof } else b

/-- `_sync_proof`, where it sends the own `SIDE_READY`. -/
def sendSideReady (b : C2Bridge) (a : Answers) : Outcome :=
  if a.proof ≠ 0 ∧ b.localGate.isSome ∧ b.localSentProof ≠ a.proof then
    match a.sideReady with
    | some error => b.fail "C_SIDE_READY_SEND_FAILED" bridgeReadyGate error
    | none => .ok { b with localSentProof := a.proof }
  else .ok b

def syncProof (b : C2Bridge) (a : Answers) : Outcome :=
  if a.lastErrorCode ≠ "" then
    b.fail a.lastErrorCode bridgeReadyGate
      (if a.lastError = "" then "v2 tunnel failed" else a.lastError)
  else (b.noteProof a.proof).sendSideReady a

def acceptSideReady (client : Client) (b : C2Bridge) (e : Envelope) : Outcome :=
  match client.decodeSideReady e.payload with
  | .error (.contract error) => b.fail error.code bridgeReadyGate error.message
  | .error .uncaught => .error (.uncaught, b)
  | .ok ready =>
    let expectedRole :=
      if client.binding.switchRole = .aRoomJoiner then SwitchRole.bApHost else .aRoomJoiner
    if ready.attemptId ≠ client.binding.attemptId ∨
        ready.sourceSeat ≠ client.binding.sourceSeat.peer.label ∨
        ready.switchRole ≠ expectedRole.label ∨
        ready.activationGeneration ≠ client.binding.activationGeneration then
      b.fail "C_SIDE_READY_STALE" bridgeReadyGate "peer readiness is for another binding"
    else if ready.advertisementSha256 ≠ client.binding.advertisementSha256 then
      b.fail "C_SIDE_READY_ADVERTISEMENT" bridgeReadyGate
        "peer readiness references another advertisement"
    else if ready.runId = client.binding.runId then
      b.fail "C_SIDE_READY_IDENTITY" bridgeReadyGate "both sides cannot share one run identity"
    else if b.peerReadyKey = some (e.sourceEpoch, ready.proofGeneration) then
      b.fail "C_SIDE_READY_DUPLICATE" bridgeReadyGate "peer readiness was duplicated"
    else .ok { b with peerReadyKey := some (e.sourceEpoch, ready.proofGeneration) }

def sendNow (client : Client) (b : C2Bridge) (frame : Frame) : Outcome :=
  let result := client.sends b.handed.length
  let b := { b with handed := b.handed ++ [frame] }
  match result with
  | some error => b.fail "C_RFU_BACKPRESSURE" rfuActiveGate error
  | none => .ok { b with generationTx := b.generationTx + 1 }

/-- `for _ in range(count)`: hand over the oldest local frame. -/
def drain (client : Client) (b : C2Bridge) : Nat → Outcome
  | 0 => .ok b
  | count + 1 =>
    match b.pendingLocal with
    | [] => .ok b
    | frame :: rest => do
      let b ← sendNow client { b with pendingLocal := rest } frame
      b.drain client count

/-- `_maybe_activate`, up to the barrier. -/
def activate (b : C2Bridge) (proven : Bool) : C2Bridge :=
  if b.localSentProof = b.proofGeneration ∧ b.peerReadyKey.isSome ∧ b.proofGeneration ≠ 0 ∧
      proven = true ∧ b.connected = false then
    { b with connected := true }
  else b

/-- `_maybe_activate`, the frames it hands over. -/
def release (client : Client) (b : C2Bridge) : Outcome :=
  if b.connected then b.drain client (min 32 b.pendingLocal.length) else .ok b

/-- `_maybe_activate`, after the frames. -/
def markActive (b : C2Bridge) : C2Bridge :=
  if b.connected ∧ b.generationTx ≠ 0 ∧ b.generationRx ≠ 0 ∧ b.rfuActive = false then
    { b with rfuActive := true }
  else b

def maybeActivate (client : Client) (b : C2Bridge) (proven : Bool) : Outcome := do
  let b ← (b.activate proven).release client
  return b.markActive

/-- One iteration of the loop of `pump`. -/
def pumpEnvelope (client : Client) (b : C2Bridge) (polled : Envelope × Bool) : Outcome :=
  let (e, proven) := polled
  match e.kind with
  | .sideReady => do
    let b ← b.acceptSideReady client e
    b.maybeActivate client proven
  | .rfu =>
    if b.connected = false then
      b.fail "C_RFU_EARLY" bridgeReadyGate "RFU arrived before C_BRIDGE_READY"
    else if e.flags % 2 = 0 ∨ maxRfuPayloadBytes < e.payload.length then
      b.fail "C_RFU_INVALID" rfuActiveGate "RFU payload or Reliable flags are invalid"
    else if maxPreBarrierFrames ≤ b.pendingRemote.length then
      b.fail "C_RFU_BACKLOG_OVERFLOW" rfuActiveGate "RFU receive backlog overflow"
    else .ok
      { b with pendingRemote := b.pendingRemote ++ [e], generationRx := b.generationRx + 1 }
  | .peerClose => b.fail "C_PEER_CLOSED" bridgeReadyGate "peer closed before C2 completed"
  | _ => .ok b

def pump (client : Client) (b : C2Bridge) (a : Answers) : Outcome :=
  if b.sealed then .ok b
  else match b.failure with
  | some failure => .error (.stage failure, b)
  | none =>
    if b.canceled then .ok b
    else do
      let b ← b.syncProof a
      let b ← a.polled.foldlM (pumpEnvelope client) b
      b.maybeActivate client a.proven

/-- The checks of `send_rfu`. -/
def checkRfu (b : C2Bridge) (frame : Frame) : Outcome :=
  if b.sealed then
    .error (.stage
      ⟨"D_BRIDGE_SEALED", "D3_BRIDGE_DRAIN", "bridge no longer accepts RFU after D3"⟩, b)
  else if frame.1 = [] ∨ maxRfuPayloadBytes < frame.1.length ∨ ¬ (0 ≤ frame.2 ∧ frame.2 ≤ 0xFF) then
    b.fail "C_RFU_INVALID" rfuActiveGate "RFU payload or Reliable flags are invalid"
  else if frame.2 % 2 = 0 then
    b.fail "C_RFU_INVALID" rfuActiveGate "RFU frame is not Reliable AppData"
  else .ok b

/-- The end of `send_rfu`: past the queue once the bridge is connected, into it before. -/
def place (client : Client) (b : C2Bridge) (a : Answers) (frame : Frame) : Outcome :=
  if b.connected then do
    let b ← sendNow client { b with accepted := b.accepted ++ [frame] } frame
    b.maybeActivate client a.provenAfter
  else if maxPreBarrierFrames ≤ b.pendingLocal.length then
    b.fail "C_PRE_BARRIER_OVERFLOW" bridgeReadyGate "bounded pre-barrier RFU queue overflowed"
  else .ok
    { b with accepted := b.accepted ++ [frame], pendingLocal := b.pendingLocal ++ [frame] }

def sendRfu (client : Client) (b : C2Bridge) (a : Answers) (frame : Frame) : Outcome := do
  let b ← b.checkRfu frame
  let b ← b.pump client a
  b.place client a frame

/-- `poll`, without the frames it returns. -/
def poll (client : Client) (b : C2Bridge) (a : Answers) (limit : Nat) : Outcome :=
  if b.sealed then .ok b
  else do
    let b ← b.pump client a
    return { b with pendingRemote := b.pendingRemote.drop limit }

def markLocalReady (client : Client) (b : C2Bridge) (a : Answers) (gate : String) : Outcome :=
  if gate ≠ client.binding.switchRole.gate then
    b.fail "C_SIDE_READY_ROLE" localSideReady "local A/B readiness gate is invalid"
  else if b.canceled then b.fail "C_CANCELED" localSideReady "C2 activation was canceled"
  else if b.localGate.any (· ≠ gate) then
    b.fail "C_SIDE_READY_CHANGED" localSideReady "local readiness changed inside the attempt"
  else { b with localGate := some gate }.pump client a

def cancel (b : C2Bridge) : C2Bridge :=
  if b.canceled ∨ b.sealed then b
  else
    { b with
      canceled := true
      pendingLocal := []
      pendingRemote := []
      connected := false
      rfuActive := false
      failure := some
        (b.failure.getD ⟨"C_CANCELED", bridgeReadyGate, "C2 activation was canceled"⟩) }

/-- The `while` of `finish_drain`: hand over what waits, up to the first call that raises. -/
def flush (client : Client) (b : C2Bridge) : List Frame → C2Bridge
  | [] => b
  | frame :: rest =>
    let b' := { b with pendingLocal := rest, handed := b.handed ++ [frame] }
    match client.sends b.handed.length with
    | some _ => b'
    | none => b'.flush client rest

/-- `finish_drain` with a valid outcome, without its report. -/
def finishDrain (client : Client) (b : C2Bridge) (completed : Bool) : C2Bridge :=
  if b.sealed then b
  else
    let b := if completed && b.connected then b.flush client b.pendingLocal else b
    { b with
      pendingLocal := [], pendingRemote := [], connected := false, rfuActive := false
      sealed := true }

end C2Bridge

/-! ## Runs -/

inductive Call where
  | markLocalReady (a : Answers) (gate : String)
  | pump (a : Answers)
  | poll (a : Answers) (limit : Nat)
  | sendRfu (a : Answers) (frame : Frame)
  | cancel
  | finishDrain (completed : Bool)
  deriving DecidableEq, Repr

/-- The bridge a call leaves, whether it returns or raises. -/
def C2Bridge.after : C2Bridge.Outcome → C2Bridge
  | .ok b => b
  | .error (_, b) => b

def C2Bridge.step (client : Client) (b : C2Bridge) : Call → C2Bridge
  | .markLocalReady a gate => after (b.markLocalReady client a gate)
  | .pump a => after (b.pump client a)
  | .poll a limit => after (b.poll client a limit)
  | .sendRfu a frame => after (b.sendRfu client a frame)
  | .cancel => b.cancel
  | .finishDrain completed => b.finishDrain client completed

/-- Every call leaves a bridge. -/
def C2Bridge.next (client : Client) (b : C2Bridge) (call : Call) : Option C2Bridge :=
  some (b.step client call)

/-- One bridge, and the calls of its endpoint in any order. -/
def system (client : Client) : System C2Bridge Call :=
  .ofStep (· = .fresh) (C2Bridge.next client)

end SwitchTrade.Bridge

import SwitchTrade.Reliable.Inbound
import SwitchTrade.Reliable.Outbound
import SwitchTrade.Rfu.LinkSetup
import SwitchTrade.Sim.LinkState
import SwitchTrade.Trade.TradeEngine

/-!
# The driver of a child

`Sim` of `bridge/frlgsim/sim.py` on a live link in the place of the joiner: what the host says goes
to the NI receiver, to the acknowledgements and to the trade engine, and each VBlank a batch is put
together of what is sent again, of `K` frames, of at most one `T` frame and of an acknowledgement.
The receive path is the one that `TunnelSim` inherits. Left out are the log, the capture, the
datagrams around the messages, and what is written but never read (`_slot_credit`, `_ni_ack_seq`,
`_last_seat_emit`, `_host_ni_null_seen`).
-/

namespace SwitchTrade.Sim

open Rfu Trade Transition LittleEndian Chunks
open Reliable hiding Bytes

universe u

/-! ## Constants -/

/-- `MAX_INFLIGHT`. -/
def windowSize : Nat := 6

/-- `RTX_GAP_LIMIT`. -/
def rtxGapLimit : Int := 1

/-- `RTX_GAP_LIMIT_NI`. -/
def rtxGapLimitNi : Int := 2

/-- `K_BACKLOG_MAX`. -/
def kBacklogMax : Nat := 32

/-- `K_INFLIGHT_MAX`. -/
def kInflightMax : Nat := 3

/-- `K_PER_VBLANK`. -/
def kPerVblank : Nat := 3

/-- `TS_SEED`. -/
def tsSeed : Nat := 0x362E

/-- `BARRIER_EMITS`. -/
def barrierEmits : Nat := 6

/-- The number of stamps `_acked_ts` holds. -/
def ackedLimit : Nat := 8192

/-- `FLAGSA_GBA`. -/
def flagsaGba : UInt8 := 0x07

/-- `FLAGSA_INIT`. -/
def flagsaInit : UInt8 := 0x0F

/-- `FLAGSA_CTRL`. -/
def flagsaCtrl : UInt8 := 0x00

/-- `METADATA_FRAME`. -/
def metadataFrame : Bytes :=
  [0x4A, 0x00, 0x2A, 0x00, 0x58, 0x01, 0x00, 0x4C, 0x65, 0x61, 0x66, 0x47, 0x72, 0x65, 0x65, 0x6E,
    0x5F, 0x65] ++ List.replicate 28 0

/-- What a child builds its `ReliableLink` with. -/
def childKnobs {Time : Type u} [Clock Time] : Knobs Time where
  maxInflight := windowSize
  rttJitterK := ((4 : Nat) : Time)
  dupNackThreshold := 3
  rtoCeilMs := some ((670 : Nat) : Time)
  rtoBackoff := ((1 : Nat) : Time)
  rtoBootstrapMs := some ((200 : Nat) : Time)

/-! ## The game data -/

/-- `charmap.encode(ot_name, width=9, pad=0x00)`. -/
def encodeUname (s : Text) : Bytes := padded 9 0 ((s.filterMap encChar).take 8 ++ [0xFF])

/-- `build_game_data`. -/
def buildGameData (versionLow trainerId : Nat) (otName : Text) (language : Nat := 2)
    (activity : Nat := 4) (started : Bool := true) (partnerInfo : Bytes := [0, 0, 0, 0]) : Bytes :=
  let compat := (language &&& 0xF) ||| ((versionLow &&& 0xF) <<< 10)
  let rgd := toBytes 2 (compat &&& 0xFFFF) ++ toBytes 2 (trainerId &&& 0xFFFF) ++
    padded 4 0 (partnerInfo.take 4) ++ toBytes 2 0 ++
    [UInt8.ofNat ((activity &&& 0x7F) ||| ((if started then 1 else 0) <<< 7)), 0, 0]
  toBytes 2 2 ++ padded 15 0 rgd ++ encodeUname otName

/-- The game data that `_ensure_ni` builds of a player. -/
def gameData (lp : LinkPlayer) : Bytes :=
  buildGameData (lp.version &&& 0xFF) (lp.trainerId &&& 0xFFFF) lp.name

/-! ## The state -/

/-- What ends the run of a driver. -/
inductive Fault where
  | engine (raised : Trade.Raised)
  /-- `to_bytes` of a length or of an id raises. -/
  | overflow
  /-- The NI sender looks for a phase and never finds one. -/
  | endless
  deriving DecidableEq, Repr

structure ChildSim (Time : Type u) where
  cfg : Config
  engine : Engine
  linkstate : Option LinkState
  /-- `_seen_in`, `last_in_seq`, `rel` and `_ack_owed`. -/
  receive : TunnelSim Time
  connectId : Option Bytes
  tick : Int
  relOpened : Bool
  gbaConnSent : Bool
  gbaAccepted : Bool
  tag : Nat
  ts : Nat
  kSeq : Nat
  ackedTs : List Nat
  pendingK : List (Nat × Nat)
  kSeqs : List (BitVec 16)
  ni : Option NiSender
  niDone : Bool
  niRecv : NiReceiver
  curNiAck : Option Bytes
  niAckBytes : Option Bytes
  emittedNiAck : Option Bytes
  niStatusLogged : Bool
  niRejected : Bool
  hostUniSeen : Bool
  hostDisconnected : Bool
  lastAckTick : Int

/-- `in_seat_phase` of the engine. -/
def inSeatPhase (e : Engine) : Bool := e.postCancelOverworld || !e.entry.seatPhaseOver

namespace ChildSim

variable {Time : Type u}

/-- `Sim.__init__` with a connection and no session of a parent. -/
def new [Clock Time] (cfg : Config) (engine : Engine) (linkstate : Option LinkState)
    (connectId : Option Bytes) : ChildSim Time where
  cfg := { cfg with live := true, maxEmits := some barrierEmits }
  engine := { engine with barrier := { engine.barrier with maxEmits := some barrierEmits } }
  linkstate := linkstate
  receive := .new childKnobs
  connectId := connectId
  tick := 0
  relOpened := false
  gbaConnSent := false
  gbaAccepted := false
  tag := 0
  ts := tsSeed
  kSeq := 0
  ackedTs := []
  pendingK := []
  kSeqs := []
  ni := none
  niDone := false
  niRecv := {}
  curNiAck := none
  niAckBytes := none
  emittedNiAck := none
  niStatusLogged := false
  niRejected := false
  hostUniSeen := false
  hostDisconnected := false
  lastAckTick := -100

/-- The reliable link, `rel`. -/
abbrev rel (s : ChildSim Time) : ReliableLink Time Bytes := s.receive.rel

def setRel (s : ChildSim Time) (rel : ReliableLink Time Bytes) : ChildSim Time :=
  { s with receive := { s.receive with rel := rel } }

/-! ## What the host says -/

/-- `_queue_k_ack`. -/
def queueKAck (s : ChildSim Time) : Option Nat → ChildSim Time
  | none => s
  | some ts =>
    if ts ∈ s.ackedTs then s
    else if kBacklogMax ≤ s.pendingK.length then s
    else
      { s with
        ackedTs := remember ackedLimit s.ackedTs ts
        kSeq := s.kSeq + 1
        pendingK := s.pendingK ++ [(s.kSeq + 1, ts)] }

/-- The status of the join is looked at once. -/
def noteStatus (s : ChildSim Time) : ChildSim Time :=
  match s.niRecv.status with
  | none => s
  | some status =>
    if s.niStatusLogged then s
    else
      { s with
        niStatusLogged := true
        niRejected := s.niRejected || decide (status.toNat ≠ rfuStatusJoinGroupOk) }

/-- An NI sub-frame of the host, in `_on_gba_in`. -/
def noteNi (s : ChildSim Time) : Option (Llsf × Bytes) → ChildSim Time
  | none => s
  | some ni =>
    let (niRecv, ack) := s.niRecv.onHostNi (some ni)
    { s with niRecv, curNiAck := ack.or s.curNiAck }.noteStatus

/-- The engine is fed the slots of a frame. -/
def feed (s : ChildSim Time) (positional : List (Nat × Bytes)) : Except Fault (ChildSim Time) :=
  match s.engine.feedInFrame s.cfg (some positional) with
  | .error raised => .error (.engine raised)
  | .ok engine => .ok { s with engine }

/-- A `T` frame of the host, up to the engine. -/
def hearT (s : ChildSim Time) (frame : HostT) : ChildSim Time :=
  let s := (s.queueKAck frame.ts).noteNi frame.ni
  { s with hostUniSeen := s.hostUniSeen || decide (frame.llsfState = some lcomUni) }

/-- `_on_gba_in`. -/
def onGbaIn (s : ChildSim Time) (payload : Bytes) : Except Fault (ChildSim Time) :=
  match parseIn payload with
  | some (.a _ _) => .ok { s with gbaAccepted := true }
  | some (.other typ) =>
    .ok { s with hostDisconnected := s.hostDisconnected || decide (typ = typeD) }
  | some (.t frame) => (s.hearT frame).feed frame.slots
  | _ => .ok s

/-- `_on_reliable_app`. -/
def onReliableApp (s : ChildSim Time) (payload : Bytes) : Except Fault (ChildSim Time) :=
  if payload.take 1 = [gbaMarker] then s.onGbaIn payload else .ok s

/-- A Reliable message of `process_datagram`; `handed` of the receive path takes down the frames
that `_on_reliable_app` is called with. -/
def onReliable [Clock Time] (s : ChildSim Time) (seq : BitVec 16) (flagsA : UInt8) (payload : Bytes)
    (now : Time) : Except Fault (ChildSim Time) :=
  let s' := { s with receive := s.receive.onReliable seq flagsA payload (some now) }
  if flagsA &&& 1 ≠ 0 ∧ ({ s.receive with ackOwed := true }.noteInSeq seq).2 = true then
    s'.onReliableApp payload
  else .ok s'

/-! ## The frame of a VBlank -/

/-- `_wrap_t`. -/
def wrapT (s : ChildSim Time) (slot : Bytes) : Except Fault (Option Bytes × ChildSim Time) :=
  match Rfu.wrapT slot s.ts with
  | none => .error .overflow
  | some frame => .ok (some frame, { s with ts := (s.ts + 1) &&& 0xFFFFFFFF })

/-- `_ensure_ni`. -/
def ensureNi (s : ChildSim Time) : ChildSim Time :=
  match s.ni with
  | some _ => s
  | none => { s with ni := some (NiSender.new (gameData s.cfg.linkPlayer)) }

/-- The next slot of the NI sender, until it is done. -/
def niSlot (s : ChildSim Time) : Except Fault (Option Bytes × ChildSim Time) :=
  match s.ni with
  | none => .ok (none, s)
  | some ni =>
    if ni.state = .done then .ok (none, s)
    else
      match ni.nextSlot windowCount with
      | none => .error .endless
      | some (slot, next) => .ok (slot, { s with ni := some next })

/-- The acknowledgement of the sub-frame of the host, if it was not queued yet. -/
def newAck (s : ChildSim Time) : Option Bytes :=
  s.curNiAck.filter fun ack => s.niAckBytes ≠ some ack

/-- The key that is held in a slot that would be idle. -/
def holdKeys (s : ChildSim Time) (words : List Nat) : ChildSim Time × List Nat :=
  match s.linkstate with
  | none => (s, words)
  | some linkstate =>
    if words.headD 0 &&& 0xFFFF = 0 ∧ s.engine.established = true ∧ s.engine.hostInSeat = true ∧
        inSeatPhase s.engine = true then
      ({ s with linkstate := some linkstate.tick.1 }, linkstate.tick.2)
    else (s, words)

/-- `SlotBuilder.build`: the slot and the next tag. -/
def build (tag : Nat) (words : List Nat) : Bytes × Nat :=
  if words.headD 0 &&& 0xFFFF = 0 then (wordsToSlot [], tag)
  else (buildSlot tag words, (tag + 1) &&& 7)

/-- The frame of what the engine has for this VBlank. -/
def uniFrame (s : ChildSim Time) : Except Fault (Option Bytes × ChildSim Time) :=
  match s.engine.tick s.cfg with
  | .error raised => .error (.engine raised)
  | .ok (engine, words) =>
    let (s, words) := { s with engine }.holdKeys words
    let (cmd14, tag) := build s.tag words
    match uniSlot cmd14 with
    | none => .error .overflow
    | some slot => { s with tag }.wrapT slot

/-- `_gba_frame`. -/
def gbaFrame (s : ChildSim Time) : Except Fault (Option Bytes × ChildSim Time) :=
  let s := { s with emittedNiAck := none }
  if s.gbaAccepted && !s.niDone then
    match s.ensureNi.niSlot with
    | .error fault => .error fault
    | .ok (some slot, s) => s.wrapT slot
    | .ok (none, s) =>
      match s.newAck with
      | some ack => { s with emittedNiAck := some ack }.wrapT ack
      | none => if s.hostUniSeen then { s with niDone := true }.uniFrame else .ok (none, s)
  else s.uniFrame

/-! ## The batch of a VBlank -/

/-- What the loop over `_pending_k` leaves: the link, the ids of the `K` frames in flight, the
frames it queued, and what it did not come to. -/
structure KAcks (Time : Type u) where
  rel : ReliableLink Time Bytes
  kSeqs : List (BitVec 16)
  frames : List (BitVec 16 × Bytes)
  rest : List (Nat × Nat)

/-- The loop over `_pending_k`; `mid` frames are queued already. -/
def kLoop (now : Time) (rel : ReliableLink Time Bytes) (kSeqs : List (BitVec 16)) (mid : Nat) :
    List (Nat × Nat) → KAcks Time
  | [] => ⟨rel, kSeqs, [], []⟩
  | (kSeq, ackedTs) :: rest =>
    if rel.maxInflight ≤ rel.inflight ∨ kPerVblank ≤ mid ∨ kInflightMax ≤ kSeqs.length then
      ⟨rel, kSeqs, [], (kSeq, ackedTs) :: rest⟩
    else
      let frame := buildK kSeq (mid + 1) ackedTs
      let queued := rel.queue frame flagsaGba now
      let more := kLoop now queued.1 (kSeqs ++ [queued.2]) (mid + 1) rest
      { more with frames := (queued.2, frame) :: more.frames }

/-- What a call of `_drive_reliable` leaves: the driver, the frames it queued, and the batch it
sent. -/
structure Driven (Time : Type u) where
  sim : ChildSim Time
  queued : List (UInt8 × Bytes)
  batch : List BatchFrame

/-- A frame that is queued and sent alone. -/
def open_ (s : ChildSim Time) (frame : Bytes) (flags : UInt8) (now : Time) : Driven Time :=
  let queued := s.rel.queue frame flags now
  ⟨s.setRel queued.1, [(flags, frame)], [(some queued.2, flags, frame)]⟩

/-- The `T` frame of this VBlank, if the host has accepted and there is room for it; where there is
none, the engine only moves its state on. -/
def driveT (s : ChildSim Time) (now : Time) : Except Fault (Driven Time) :=
  if s.gbaAccepted = false then .ok ⟨s, [], []⟩
  else if s.rel.maxInflight ≤ s.rel.inflight then
    match s.engine.pollSendDone s.cfg with
    | .error raised => .error (.engine raised)
    | .ok engine => .ok ⟨{ s with engine }, [], []⟩
  else
    match s.gbaFrame with
    | .error fault => .error fault
    | .ok (none, s) => .ok ⟨s, [], []⟩
    | .ok (some frame, s) =>
      let driven := s.open_ frame flagsaGba now
      .ok { driven with
        sim := { driven.sim with niAckBytes := s.emittedNiAck.or s.niAckBytes } }

/-- The acknowledgement at the end of a batch, if one is owed. -/
def driveAck (s : ChildSim Time) (batch : List BatchFrame) : ChildSim Time × List BatchFrame :=
  if ackPeriod ≤ s.tick - s.lastAckTick ∧ (s.receive.ackOwed = true ∨ s.rel.recvOoo ≠ []) then
    ({ s with receive := { s.receive with ackOwed := false }, lastAckTick := s.tick },
      batch ++ [(none, flagsaCtrl, s.rel.ackPayload)])
  else (s, batch)

/-- What is sent again. -/
def rtxLimit (s : ChildSim Time) : Int :=
  if s.gbaAccepted && !inSeatPhase s.engine then rtxGapLimit else rtxGapLimitNi

/-- `_drive_reliable`, once the stream is open and the connection asked for. -/
def driveBatch [Clock Time] (s : ChildSim Time) (now : Time) : Except Fault (Driven Time) :=
  let due := s.rel.dueRetransmits now (some s.rtxLimit)
  let again : List BatchFrame :=
    (due.2.take reliableBatchMax).map fun frame => (some frame.1, frame.2)
  let kSeqs := s.kSeqs.filter (· ∈ due.1.unacked.keys)
  let k := kLoop now due.1 kSeqs 0 s.pendingK
  let s := { s.setRel k.rel with kSeqs := k.kSeqs, pendingK := k.rest }
  match s.driveT now with
  | .error fault => .error fault
  | .ok driven =>
    let (sim, batch) := driven.sim.driveAck
      (again ++ k.frames.map (fun frame => (some frame.1, flagsaGba, frame.2)) ++ driven.batch)
    .ok ⟨sim, k.frames.map (fun frame => (flagsaGba, frame.2)) ++ driven.queued, batch⟩

/-- `_drive_reliable`. -/
def driveReliable [Clock Time] (s : ChildSim Time) (now : Time) : Except Fault (Driven Time) :=
  if s.relOpened = false then
    let driven := s.open_ metadataFrame flagsaInit now
    .ok { driven with sim := { driven.sim with relOpened := true } }
  else
    match s.connectId with
    | none => s.driveBatch now
    | some connectId =>
      if s.gbaConnSent then s.driveBatch now
      else
        match buildConnect connectId with
        | none => .error .overflow
        | some frame =>
          let driven := s.open_ frame flagsaGba now
          .ok { driven with sim := { driven.sim with gbaConnSent := true } }

end ChildSim

/-! ## Runs -/

/-- What happens to a driver. The main loop sits down, leaves the room and tells the engine that it
sits; `_drain_remote` brings what the remote peer did. -/
inductive ChildLabel (Time : Type u) where
  | vblank
  | message (seq : BitVec 16) (flagsA : UInt8) (payload : Bytes) (now : Time)
  | rttSample (sample : Time)
  | applyRemote (msgType : Nat) (payload : Bytes)
  | drive (now : Time)
  | sit
  | exit
  | noteSelfSeated

/-- A driver, the frames it has queued and the batches it has sent. -/
structure Child (Time : Type u) where
  sim : ChildSim Time
  queued : List (UInt8 × Bytes)
  sent : List (List BatchFrame)

namespace Child

variable {Time : Type u}

/-- A call that may raise; where it does, the run ends. -/
def keep (w : Child Time) : Except Fault (ChildSim Time) → Option (Child Time)
  | .error _ => none
  | .ok sim => some { w with sim }

def step [Clock Time] (w : Child Time) : ChildLabel Time → Option (Child Time)
  | .vblank => some { w with sim := { w.sim with tick := w.sim.tick + 1 } }
  | .message seq flagsA payload now => w.keep (w.sim.onReliable seq flagsA payload now)
  | .rttSample sample =>
    some { w with
      sim := w.sim.setRel { w.sim.rel with rtt := ReliableLink.addRttSample w.sim.rel.rtt sample } }
  | .applyRemote msgType payload =>
    match w.sim.engine.applyRemote w.sim.cfg msgType payload with
    | .error _ => none
    | .ok engine => some { w with sim := { w.sim with engine } }
  | .drive now =>
    match w.sim.driveReliable now with
    | .error _ => none
    | .ok driven => some ⟨driven.sim, w.queued ++ driven.queued, w.sent ++ [driven.batch]⟩
  | .sit => some { w with sim := { w.sim with linkstate := w.sim.linkstate.map .sit } }
  | .exit => some { w with sim := { w.sim with linkstate := w.sim.linkstate.map .exit } }
  | .noteSelfSeated => some { w with sim := { w.sim with engine := w.sim.engine.noteSelfSeated } }

/-- The runs of a driver that is built with an engine. -/
def system [Clock Time] (cfg : Config) (engine : Engine) (linkstate : Option LinkState)
    (connectId : Option Bytes) : System (Child Time) (ChildLabel Time) :=
  .ofStep (fun w => w = ⟨.new cfg engine linkstate connectId, [], []⟩) step

end Child

end SwitchTrade.Sim

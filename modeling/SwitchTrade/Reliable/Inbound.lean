import SwitchTrade.Reliable.SelectiveRepeat
import SwitchTrade.Transition.Recent

/-!
# The local stream on its way into the tunnel

`bridge/frlgsim/sim.py` and `tunnel.py`, the live receive path of a `TunnelSim`: every frame
of the local Switch that was not seen before goes to the tunnel as it arrives. Whether it was
seen is read off a memory of the last 4096 serial numbers; what is acknowledged is counted by
the link. `Inbound` puts the path against a peer that has at most 129 frames under way, and a
channel that loses, repeats and reorders them.
-/

namespace SwitchTrade.Reliable

open Transition

universe u

variable {Time : Type u}

abbrev Bytes := List UInt8

/-! ## The code -/

/-- `RELIABLE_SEQ_START`. -/
def reliableSeqStart : BitVec 16 := 0xFFF0

/-- The number of serial numbers `_seen_in` holds. -/
def recentLimit : Nat := 4096

/-- What the receive path of a `TunnelSim` reads and writes. `handed` is what
`_on_reliable_app` was called with, and so what the tunnel was given, in order. -/
structure TunnelSim (Time : Type u) where
  seenIn : List (BitVec 16)
  lastInSeq : BitVec 16
  inSeqInitialized : Bool
  rel : ReliableLink Time Bytes
  ackOwed : Bool
  handed : List (UInt8 × Bytes)

namespace TunnelSim

/-- `Sim.__init__`. -/
def new (knobs : Knobs Time) : TunnelSim Time where
  seenIn := []
  lastInSeq := 0
  inSeqInitialized := false
  rel := .new reliableSeqStart knobs
  ackOwed := false
  handed := []

/-- How far the serial number is ahead of the newest one; the first one is one ahead. -/
def forward (sim : TunnelSim Time) (seq : BitVec 16) : Nat :=
  if sim.inSeqInitialized then (seq - sim.lastInSeq).toNat else 1

/-- Too far behind the newest serial number to be still in the memory. -/
def stale (sim : TunnelSim Time) (seq : BitVec 16) : Bool :=
  sim.inSeqInitialized && (0x8000 ≤ sim.forward seq && 4096 ≤ (sim.lastInSeq - seq).toNat)

/-- `_note_in_seq`. -/
def noteInSeq (sim : TunnelSim Time) (seq : BitVec 16) : TunnelSim Time × Bool :=
  if seq ∈ sim.seenIn then (sim, false)
  else if sim.stale seq then (sim, false)
  else
    ({ sim with
        inSeqInitialized := true
        seenIn := remember recentLimit sim.seenIn seq
        lastInSeq := if sim.forward seq < 0x8000 then seq else sim.lastInSeq },
      true)

/-- `_on_reliable_app`. -/
def onReliableApp (sim : TunnelSim Time) (flagsA : UInt8) (payload : Bytes) : TunnelSim Time :=
  { sim with handed := sim.handed ++ [(flagsA, payload)] }

/-- A Reliable message of `process_datagram`, on a live link. -/
def onReliable [Clock Time] (sim : TunnelSim Time) (seq : BitVec 16) (flagsA : UInt8)
    (payload : Bytes) (now : Option Time) : TunnelSim Time :=
  if flagsA &&& 1 ≠ 0 then
    let sim := { sim with ackOwed := true }
    let (sim, fresh) := sim.noteInSeq seq
    let sim := if fresh then sim.onReliableApp flagsA payload else sim
    { sim with rel := sim.rel.noteReceived seq }
  else
    { sim with rel := sim.rel.onAck (parseBulkAck payload).1 (parseBulkAck payload).2 now }

end TunnelSim

/-! ## The peer and the channel -/

/-- The stream of the local Switch: the flags and the payload of each of its data frames. -/
structure Stream where
  frame : Nat → UInt8 × Bytes
  appData : ∀ n, (frame n).1 &&& 1 ≠ 0

/-- A bulk acknowledgement that was sent, made when `through` frames had arrived in a row. -/
structure SentAck where
  through : Nat
  payload : Bytes

/-- The acknowledgement covers the frame. -/
def SentAck.Covers (ack : SentAck) (n : Nat) : Prop :=
  ∃ ackId ∈ (parseBulkAck ack.payload).1, ReliableLink.covers ackId
    (fromBytes (parseBulkAck ack.payload).2) (serial reliableSeqStart n) = true

instance (ack : SentAck) (n : Nat) : Decidable (ack.Covers n) :=
  match h : (parseBulkAck ack.payload).1 with
  | some ackId => decidable_of_iff (ReliableLink.covers ackId
      (fromBytes (parseBulkAck ack.payload).2) (serial reliableSeqStart n) = true) (by
        simp [SentAck.Covers, h])
  | none => .isFalse (by simp [SentAck.Covers, h])

/-- The receive path, the oldest frame that the peer has not seen acknowledged, the
acknowledgements sent so far, and the frames that arrived, the last one first. -/
structure Inbound (Time : Type u) where
  sim : TunnelSim Time
  base : Nat
  acks : List SentAck
  arrived : List Nat

/-- What happens: a data frame or a bulk acknowledgement of the peer arrives, the send side
of the link moves, an acknowledgement is sent, and the peer takes the frames below a number
as acknowledged. -/
inductive InboundLabel (Time : Type u) where
  | arrive (number : Nat) (now : Option Time)
  | control (seq : BitVec 16) (payload : Bytes) (now : Option Time)
  | queue (inner : Bytes) (flags : UInt8) (now : Time)
  | resend (now : Time) (limit : Option Int)
  | acknowledge
  | release (base : Nat)

/-- How late a frame may arrive: the peer was at most so many frames further. -/
def lateness : Nat := 2 ^ 11

namespace Inbound

def fresh (knobs : Knobs Time) : Inbound Time where
  sim := .new knobs
  base := 0
  acks := []
  arrived := []

def step [Clock Time] (stream : Stream) (w : Inbound Time) :
    InboundLabel Time → Option (Inbound Time)
  | .arrive n now =>
    some { w with
      sim := w.sim.onReliable (serial reliableSeqStart n) (stream.frame n).1 (stream.frame n).2 now
      arrived := n :: w.arrived }
  | .control seq payload now =>
    some { w with sim := w.sim.onReliable seq 0 payload now }
  | .queue inner flags now =>
    some { w with sim := { w.sim with rel := (w.sim.rel.queue inner flags now).1 } }
  | .resend now limit =>
    some { w with sim := { w.sim with rel := (w.sim.rel.dueRetransmits now limit).1 } }
  | .acknowledge =>
    some { w with
      sim := { w.sim with ackOwed := false }
      acks := w.acks ++ [⟨firstMissing w.arrived, w.sim.rel.ackPayload⟩] }
  | .release base => some { w with base := base }

/-- The peer has no frame under way that is more than 128 above the oldest one it has not
seen acknowledged, and takes for acknowledged what an acknowledgement covers. No frame and no
acknowledgement comes later than the channel allows. -/
def Window (w : Inbound Time) : InboundLabel Time → Prop
  | .arrive n _ => n ≤ w.base + 128 ∧ w.base ≤ n + lateness
  | .release base => w.base ≤ base ∧ ∀ n < base, w.base ≤ n →
      ∃ ack ∈ w.acks, w.base ≤ ack.through + reorder ∧ ack.Covers n
  | _ => True

instance (w : Inbound Time) : (label : InboundLabel Time) → Decidable (w.Window label)
  | .arrive n _ => inferInstanceAs (Decidable (n ≤ w.base + 128 ∧ w.base ≤ n + lateness))
  | .release base => inferInstanceAs (Decidable (w.base ≤ base ∧ ∀ n < base, w.base ≤ n →
      ∃ ack ∈ w.acks, w.base ≤ ack.through + reorder ∧ ack.Covers n))
  | .control _ _ _ => .isTrue trivial
  | .queue _ _ _ => .isTrue trivial
  | .resend _ _ => .isTrue trivial
  | .acknowledge => .isTrue trivial

def system [Clock Time] (stream : Stream) (knobs : Knobs Time) :
    System (Inbound Time) (InboundLabel Time) :=
  .ofStep (fun w => w = fresh knobs) (step stream)

end Inbound

end SwitchTrade.Reliable

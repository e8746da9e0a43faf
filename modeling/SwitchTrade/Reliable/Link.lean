import SwitchTrade.Transition.Bitmap
import SwitchTrade.Transition.Dict

/-!
# The reliable link

`bridge/frlgsim/reliable.py`: a sliding window with selective repeat in both directions.
Sequence ids are 16-bit values. The times are milliseconds in floating point; a `Clock`
is what the link computes with them, and no law of it is assumed.
-/

namespace SwitchTrade.Reliable

open Transition

universe u v

scoped instance lawfulBEqSeq : LawfulBEq (BitVec 16) := inferInstance

/-- The arithmetic of times. -/
class Clock (Time : Type u) extends Zero Time, NatCast Time, Add Time, Sub Time, Mul Time,
    Div Time, Pow Time Nat, LT Time, LE Time where
  decEq : DecidableEq Time
  decLt : DecidableRel (LT.lt : Time → Time → Prop)
  decLe : DecidableRel (LE.le : Time → Time → Prop)

section

variable {Time : Type u} [Clock Time]

instance instDecidableEqTime : DecidableEq Time := Clock.decEq

instance instDecidableLtTime : DecidableRel (LT.lt : Time → Time → Prop) := Clock.decLt

instance instDecidableLeTime : DecidableRel (LE.le : Time → Time → Prop) := Clock.decLe

/-- `RTO_BASE_MS`. -/
def rtoBaseMs : Time := ((33 : Nat) : Time)

/-- `RTO_RTT_FACTOR`. -/
def rtoRttFactor : Time := ((14 : Nat) : Time) / ((10 : Nat) : Time)

end

/-- `RTT_WINDOW`. -/
def rttWindow : Nat := 7

/-- `MAX_INFLIGHT`. -/
def maxInflight : Nat := 128

/-! ## Bulk acknowledgements -/

/-- `build_bulk_ack`. -/
def buildBulkAck (nextExpected : BitVec 16) (mask : List UInt8) (streamId : UInt8) : List UInt8 :=
  [streamId, 1, UInt8.ofNat (nextExpected.toNat / 256), UInt8.ofNat (nextExpected.toNat % 256)] ++
    mask

/-- `bytes.ljust(16, b"\x00")`. -/
def ljust (bytes : List UInt8) : List UInt8 := bytes ++ List.replicate (16 - bytes.length) 0

/-- `parse_bulk_ack`. -/
def parseBulkAck : List UInt8 → Option (BitVec 16) × List UInt8
  | _ :: _ :: hi :: lo :: mask =>
    (some (BitVec.ofNat 16 (256 * hi.toNat + lo.toNat)), ljust (mask.take 16))
  | _ => (none, [])

/-- `_seq_lt`. -/
def seqLt (a b : BitVec 16) : Bool := b - a ≠ 0 ∧ (b - a).toNat < 0x8000

/-! ## The link -/

/-- A buffered send entry. -/
structure Entry (Time : Type u) (Payload : Type v) where
  flags : UInt8
  inner : Payload
  lastTx : Time
  resends : Nat
  acked : Bool

structure ReliableLink (Time : Type u) (Payload : Type v) where
  outSeq : BitVec 16
  windowLo : BitVec 16
  unacked : Dict (BitVec 16) (Entry Time Payload)
  recvNext : BitVec 16
  recvBuf : Dict (BitVec 16) Payload
  recvOoo : List (BitVec 16)
  maxInflight : Nat
  rtt : List Time
  rttJitterK : Time
  dupNackThreshold : Int
  rtoCeilMs : Option Time
  rtoBackoff : Time
  rtoBootstrapMs : Option Time
  peerGap : Option (BitVec 16)
  gapNacks : Nat

/-- The keyword arguments of `ReliableLink.__init__`. -/
structure Knobs (Time : Type u) where
  maxInflight : Nat
  rttJitterK : Time
  dupNackThreshold : Int
  rtoCeilMs : Option Time
  rtoBackoff : Time
  rtoBootstrapMs : Option Time

namespace ReliableLink

variable {Time : Type u} {Payload : Type v}

/-- `ReliableLink.__init__`. -/
def new (start : BitVec 16) (knobs : Knobs Time) : ReliableLink Time Payload where
  outSeq := start
  windowLo := start
  unacked := .empty
  recvNext := start
  recvBuf := .empty
  recvOoo := []
  maxInflight := knobs.maxInflight
  rtt := []
  rttJitterK := knobs.rttJitterK
  dupNackThreshold := max 1 knobs.dupNackThreshold
  rtoCeilMs := knobs.rtoCeilMs
  rtoBackoff := knobs.rtoBackoff
  rtoBootstrapMs := knobs.rtoBootstrapMs
  peerGap := none
  gapNacks := 0

/-! ### The send side -/

def inflight (link : ReliableLink Time Payload) : Nat := link.unacked.items.length

/-- `queue`: the link and the sequence id it hands out. -/
def queue (link : ReliableLink Time Payload) (inner : Payload) (flags : UInt8) (now : Time) :
    ReliableLink Time Payload × BitVec 16 :=
  let seq := link.outSeq
  ({ link with
      outSeq := link.outSeq + 1
      unacked := link.unacked.set seq ⟨flags, inner, now, 0, false⟩ },
    seq)

section Times

variable [Clock Time]

/-- `add_rtt_sample`, on the list of samples. -/
def addRttSample (rtt : List Time) (sample : Time) : List Time :=
  if sample < 0 then rtt
  else (rtt ++ [sample]).drop (rtt.length + 1 - rttWindow)

/-- Python's `abs`. -/
def magnitude (x : Time) : Time := if x < 0 then 0 - x else x

/-- `min(rto, ceil)`, where there is a ceiling. -/
def clamp (link : ReliableLink Time Payload) (rto : Time) : Time :=
  match link.rtoCeilMs with
  | some ceil => if ceil < rto then ceil else rto
  | none => rto

/-- `rto`. The samples have a median unless there are none. -/
def rto (link : ReliableLink Time Payload) : Option Time :=
  let sorted := link.rtt.insertionSort fun a b => a ≤ b
  match sorted[link.rtt.length / 2]? with
  | some median =>
    let rto := rtoBaseMs + rtoRttFactor * median
    let mad := (link.rtt.map fun x => magnitude (x - median)).foldl (· + ·) 0 /
      (link.rtt.length : Time)
    some (link.clamp (if link.rttJitterK = 0 then rto else rto + link.rttJitterK * mad))
  | none => link.rtoBootstrapMs.map link.clamp

end Times

/-- Whether an acknowledgement covers `seq`: in the cumulative run below `ackId`, or
marked in the mask. -/
def covers (ackId : BitVec 16) (mask : Nat) (seq : BitVec 16) : Bool :=
  seqLt seq ackId ||
    (mask ≠ 0 && ((seq - ackId - 1).toNat < 128 && mask.testBit (seq - ackId - 1).toNat))

/-- One entry in the loop over `unacked`: it is marked, and a first acknowledgement of a
frame that was never sent again gives a round-trip sample. -/
def mark (ackId : BitVec 16) (mask : Nat) (seq : BitVec 16) (entry : Entry Time Payload) :
    Entry Time Payload :=
  if covers ackId mask seq then { entry with acked := true } else entry

def sample [Clock Time] (ackId : BitVec 16) (mask : Nat) (now : Option Time) (rtt : List Time)
    (item : BitVec 16 × Entry Time Payload) : List Time :=
  match now with
  | some now =>
    if covers ackId mask item.1 ∧ item.2.acked = false ∧ item.2.resends = 0 then
      addRttSample rtt (now - item.2.lastTx)
    else rtt
  | none => rtt

/-- The loop that frees the contiguous acknowledged run at the window base. Each turn
deletes an entry, so there are at most as many turns as entries. -/
def free : Nat → ReliableLink Time Payload → ReliableLink Time Payload
  | 0, link => link
  | turns + 1, link =>
    match link.unacked.get? link.windowLo with
    | some entry =>
      if entry.acked then
        free turns
          { link with
            unacked := link.unacked.erase link.windowLo
            windowLo := link.windowLo + 1 }
      else link
    | none => link

/-- The peer's current hole, and how many acknowledgements in a row agree on it. -/
def trackGap (link : ReliableLink Time Payload) (ackId : BitVec 16) (mask : Nat) :
    ReliableLink Time Payload :=
  match link.unacked.get? ackId with
  | some entry =>
    if mask ≠ 0 ∧ entry.acked = false then
      if link.peerGap = some ackId then { link with gapNacks := link.gapNacks + 1 }
      else { link with peerGap := some ackId, gapNacks := 1 }
    else { link with peerGap := none, gapNacks := 0 }
  | none => { link with peerGap := none, gapNacks := 0 }

/-- `on_ack`; a missing mask is the empty one. -/
def onAck [Clock Time] (link : ReliableLink Time Payload) (ackId : Option (BitVec 16))
    (mask : List UInt8) (now : Option Time) : ReliableLink Time Payload :=
  match ackId with
  | none => link
  | some ackId =>
    let maskint := fromBytes mask
    let link := { link with
      rtt := link.unacked.items.foldl (sample ackId maskint now) link.rtt
      unacked := link.unacked.mapValues (mark ackId maskint) }
    (free link.unacked.items.length link).trackGap ackId maskint

section Times

variable [Clock Time]

/-- Whether an entry that is not acknowledged is sent again now. -/
def due (link : ReliableLink Time Payload) (baseRto : Option Time) (now : Time)
    (seq : BitVec 16) (entry : Entry Time Payload) : Bool :=
  if link.peerGap = some seq ∧ entry.resends = 0 ∧
      link.dupNackThreshold ≤ (link.gapNacks : Int) then true
  else
    match baseRto with
    | none => false
    | some baseRto => link.clamp (baseRto * link.rtoBackoff ^ entry.resends) ≤ now - entry.lastTx

/-- The loop of `due_retransmits` over the sorted entries; `out` holds what it returns. -/
def resend (baseRto : Option Time) (now : Time) (limit : Option Int) :
    ReliableLink Time Payload → List (BitVec 16 × UInt8 × Payload) →
    List (BitVec 16 × Entry Time Payload) →
    ReliableLink Time Payload × List (BitVec 16 × UInt8 × Payload)
  | link, out, [] => (link, out)
  | link, out, (seq, entry) :: rest =>
    if entry.acked then resend baseRto now limit link out rest
    else if link.due baseRto now seq entry then
      let link := { link with
        unacked := link.unacked.set seq { entry with lastTx := now, resends := entry.resends + 1 } }
      let out := out ++ [(seq, entry.flags, entry.inner)]
      if limit.any fun limit => limit ≤ (out.length : Int) then (link, out)
      else resend baseRto now limit link out rest
    else if limit.isSome then (link, out)
    else resend baseRto now limit link out rest

/-- `due_retransmits`: the link and the frames to send again, oldest first. -/
def dueRetransmits (link : ReliableLink Time Payload) (now : Time) (limit : Option Int) :
    ReliableLink Time Payload × List (BitVec 16 × UInt8 × Payload) :=
  resend link.rto now limit link []
    (link.unacked.items.insertionSort fun a b =>
      (a.1 - link.windowLo).toNat ≤ (b.1 - link.windowLo).toNat)

end Times

/-! ### The receive side -/

/-- The loop of `on_data` that takes the buffered payloads in order. -/
def deliver : Nat → ReliableLink Time Payload → List Payload →
    ReliableLink Time Payload × List Payload
  | 0, link, out => (link, out)
  | turns + 1, link, out =>
    match link.recvBuf.get? link.recvNext with
    | some payload =>
      deliver turns
        { link with
          recvBuf := link.recvBuf.erase link.recvNext
          recvNext := link.recvNext + 1 }
        (out ++ [payload])
    | none => (link, out)

/-- `on_data`: the link and the payloads now deliverable in order. -/
def onData (link : ReliableLink Time Payload) (seq : BitVec 16) (payload : Payload) :
    ReliableLink Time Payload × List Payload :=
  if seq = link.recvNext then
    deliver link.recvBuf.items.length { link with recvNext := link.recvNext + 1 } [payload]
  else if seqLt link.recvNext seq then
    ({ link with recvBuf := link.recvBuf.set seq payload }, [])
  else (link, [])

/-- The loop of `note_received` over the contiguous run. -/
def advance : Nat → ReliableLink Time Payload → ReliableLink Time Payload
  | 0, link => link
  | turns + 1, link =>
    if link.recvNext ∈ link.recvOoo then
      advance turns
        { link with
          recvOoo := link.recvOoo.filter fun seq => seq ≠ link.recvNext
          recvNext := link.recvNext + 1 }
    else link

/-- `note_received`. -/
def noteReceived (link : ReliableLink Time Payload) (seq : BitVec 16) :
    ReliableLink Time Payload :=
  if seq = link.recvNext then
    advance link.recvOoo.length { link with recvNext := link.recvNext + 1 }
  else if seqLt link.recvNext seq then { link with recvOoo := link.recvOoo.insert seq }
  else link

/-- The bits of the selective mask. -/
def maskBits (link : ReliableLink Time Payload) : List Nat :=
  (link.recvOoo.map fun seq => (seq - link.recvNext - 1).toNat).filter (· < 128)

/-- `ack_payload`. -/
def ackPayload (link : ReliableLink Time Payload) : List UInt8 :=
  buildBulkAck link.recvNext (link.maskBits.foldl setBit (List.replicate 16 0)) 0

end ReliableLink

end SwitchTrade.Reliable

import SwitchTrade.Transition.Fallible
import Mathlib.Tactic.Common

/-!
# The envelope of `rfu-tunnel.v2`

One frame of the tunnel, its two source seats, and the data that is kept once for each
seat. A frame is modelled by the envelope its bytes decode to; `Envelope.size` is the
length of those bytes.
-/

namespace SwitchTrade.Tunnel

open Fallible

abbrev Bytes := List UInt8

/-- The bytes of a text of ASCII characters. -/
def ascii (s : String) : Bytes := s.toList.map fun c => UInt8.ofNat c.toNat

/-- One factual `rfu-tunnel.v2` contract or ordering failure. -/
structure TunnelV2Error where
  code : String
  message : String
  deriving DecidableEq, Repr

/-! ## Seats -/

inductive SourceSeat where
  | memberA | memberB
  deriving DecidableEq, Repr

def SourceSeat.label : SourceSeat → String
  | .memberA => "member_a"
  | .memberB => "member_b"

def SourceSeat.peer : SourceSeat → SourceSeat
  | .memberA => .memberB
  | .memberB => .memberA

@[simp] theorem SourceSeat.peer_peer (seat : SourceSeat) : seat.peer.peer = seat := by
  cases seat <;> rfl

@[simp] theorem SourceSeat.peer_ne (seat : SourceSeat) : seat.peer ≠ seat := by
  cases seat <;> decide

@[simp] theorem SourceSeat.ne_peer (seat : SourceSeat) : seat ≠ seat.peer := by
  cases seat <;> decide

theorem SourceSeat.eq_or_peer (seat seat' : SourceSeat) : seat' = seat ∨ seat' = seat.peer := by
  cases seat <;> cases seat' <;> decide

/-- A dictionary with one entry for each seat. -/
structure PerSeat (α : Type) where
  memberA : α
  memberB : α
  deriving DecidableEq, Repr

namespace PerSeat

variable {α : Type}

def get (p : PerSeat α) : SourceSeat → α
  | .memberA => p.memberA
  | .memberB => p.memberB

def set (p : PerSeat α) (seat : SourceSeat) (x : α) : PerSeat α :=
  match seat with
  | .memberA => { p with memberA := x }
  | .memberB => { p with memberB := x }

/-- The same entry for both seats. -/
def both (x : α) : PerSeat α := { memberA := x, memberB := x }

@[simp] theorem get_set (p : PerSeat α) (seat : SourceSeat) (x : α) :
    (p.set seat x).get seat = x := by
  cases seat <;> rfl

@[simp] theorem get_set_peer (p : PerSeat α) (seat : SourceSeat) (x : α) :
    (p.set seat x).get seat.peer = p.get seat.peer := by
  cases seat <;> rfl

@[simp] theorem get_set_of_peer (p : PerSeat α) (seat : SourceSeat) (x : α) :
    (p.set seat.peer x).get seat = p.get seat := by
  cases seat <;> rfl

theorem ext_get {p q : PerSeat α} (seat : SourceSeat) (h : p.get seat = q.get seat)
    (hpeer : p.get seat.peer = q.get seat.peer) : p = q := by
  obtain ⟨a, b⟩ := p
  obtain ⟨a', b'⟩ := q
  cases seat <;> simp_all [get, SourceSeat.peer]

@[simp] theorem get_both (x : α) (seat : SourceSeat) : (both x).get seat = x := by
  cases seat <;> rfl

end PerSeat

/-! ## Frames -/

inductive Kind where
  | peerReady | probeChallenge | probeResponse | advertisement | sideReady | peerClose | rfu
  deriving DecidableEq, Repr

structure Envelope where
  attemptId : String
  sourceSeat : SourceSeat
  sourceEpoch : Nat
  sequence : Nat
  kind : Kind
  payload : Bytes := []
  flags : Nat := 0
  deriving DecidableEq, Repr

/-- `HEADER.size`. -/
def headerSize : Nat := 30

def maxPayloadBytes : Nat := 64 * 1024
def maxRfuPayloadBytes : Nat := 0xFFFF - 8
def probeBytesLength : Nat := 32

/-- `_validate_payload`, which `Envelope.encode` and `Envelope.decode` run. -/
def validatePayload (kind : Kind) (payload : Bytes) (flags : Nat) : Except TunnelV2Error Unit := do
  raiseIf (0xFF < flags) ⟨"C_FLAGS_INVALID", "Reliable flags are outside uint8"⟩
  raiseIf (kind ≠ .rfu ∧ flags ≠ 0)
    ⟨"C_FLAGS_INVALID", "control frames cannot carry Reliable flags"⟩
  raiseIf (maxPayloadBytes < payload.length)
    ⟨"C_PAYLOAD_TOO_LARGE", "payload exceeds the v2 bound"⟩
  raiseIf (kind = .peerReady ∧ payload ≠ [])
    ⟨"C_PAYLOAD_INVALID", "PEER_READY payload must be empty"⟩
  raiseIf ((kind = .probeChallenge ∨ kind = .probeResponse) ∧ payload.length ≠ probeBytesLength)
    ⟨"C_PAYLOAD_INVALID", "probe payload must be 32 bytes"⟩
  raiseIf (kind = .advertisement ∧ payload = [])
    ⟨"C_PAYLOAD_INVALID", "ADVERTISEMENT payload must not be empty"⟩
  raiseIf (kind = .sideReady ∧ payload = [])
    ⟨"C_PAYLOAD_INVALID", "SIDE_READY payload must not be empty"⟩
  raiseIf (kind = .rfu ∧ (payload = [] ∨ maxRfuPayloadBytes < payload.length))
    ⟨"C_RFU_PAYLOAD_INVALID", "RFU payload is outside the Pia Reliable wire bound"⟩

/-- `len(envelope.encode())`. -/
def Envelope.size (e : Envelope) : Nat := headerSize + e.attemptId.utf8ByteSize + e.payload.length

end SwitchTrade.Tunnel

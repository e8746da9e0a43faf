import SwitchTrade.Rfu.Assembler
import SwitchTrade.Rfu.Llsf

/-!
# The carriers of the payload decoder

`parse_gba_frames`, `_parse_llsf` and `parse_t_carrier` of `tools/payload_decoder.py`: from the
bytes of an RFU payload to the commands its `T` carriers hold. The issues they report are left out,
as nothing here reads them.
-/

namespace SwitchTrade.Party

open Rfu LittleEndian Chunks

structure GbaFrame where
  frameType : UInt8
  body : Bytes
  deriving DecidableEq, Repr

/-- `parse_gba_frames`, tolerant: the bytes of the last frame that are still to be passed over, and
the rest of the data. -/
def parseGbaFramesFrom : Nat → Bytes → List GbaFrame
  | _, [] => []
  | skip + 1, _ :: rest => parseGbaFramesFrom skip rest
  | 0, byte :: rest =>
    if byte ≠ 0x57 then parseGbaFramesFrom 0 rest
    else
      match rest with
      | frameType :: low :: high :: body =>
        let bodyLen := ofBytes [low, high]
        let read := body.take bodyLen
        -- A body that is cut off ends the parsing.
        if read.length < bodyLen then []
        else ⟨frameType, read⟩ :: parseGbaFramesFrom (3 + bodyLen) rest
      | _ => []

def parseGbaFrames (data : Bytes) : List GbaFrame := parseGbaFramesFrom 0 data

/-- What `_parse_llsf` returns. -/
structure Header where
  state : Nat
  ack : Nat
  n : Nat
  phase : Nat
  size : Nat
  payload : Bytes

/-- `_parse_llsf`; where it raises there is no header. -/
def parseLlsf (slot : Bytes) (role : String) : Option Header :=
  if role = "parent" then
    if slot.length < 3 then none
    else
      let word := ofBytes (slot.take 3)
      some ⟨(word >>> 14) &&& 0xF, (word >>> 13) &&& 1, (word >>> 11) &&& 3, (word >>> 9) &&& 3,
        word &&& 0x7F, slot.drop 3⟩
  else if role = "child" then
    if slot.length < 2 then none
    else
      let word := ofBytes (slot.take 2)
      some ⟨(word >>> 10) &&& 0xF, (word >>> 9) &&& 1, (word >>> 7) &&& 3, (word >>> 5) &&& 3,
        word &&& 0x1F, slot.drop 2⟩
  else none

/-- A command of a slot, and `words[1]` of it. -/
structure Command where
  rfu : RfuCommand
  word1 : Nat
  deriving DecidableEq, Repr

def command (raw : Bytes) (multiplayerId : Option Nat) : Command :=
  ⟨parseCommand raw multiplayerId, wordAt (padded commSlotLength 0 raw) 1⟩

/-- The commands of a UNI slot: a parent sends one row for each player, a child its own. -/
def slotCommands (role : String) (payload : Bytes) : List Command :=
  if role = "parent" then
    (List.range (payload.length / commSlotLength)).map fun mpid =>
      command ((payload.drop (commSlotLength * mpid)).take commSlotLength) (some mpid)
  else if commSlotLength ≤ payload.length then [command (payload.take commSlotLength) none]
  else []

/-- `parse_t_carrier(frame, role=role).slot.commands`, none where there is no slot. -/
def carrierCommands (role : String) (frame : GbaFrame) : List Command :=
  if frame.frameType ≠ 0x54 || frame.body.length < 8 then []
  else
    let slotLength := (frame.body.getD (if role = "parent" then 4 else 5) 0).toNat
    if slotLength ≤ 1 then []
    else
      match parseLlsf ((frame.body.drop 8).take slotLength) role with
      | none => []
      | some header => if header.state = lcomUni then slotCommands role header.payload else []

/-- The commands of a payload, in the order they are observed in. -/
def payloadCommands (role : String) (payload : Bytes) : List Command :=
  (parseGbaFrames payload).flatMap (carrierCommands role)

end SwitchTrade.Party

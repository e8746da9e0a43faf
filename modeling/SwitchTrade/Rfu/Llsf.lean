import SwitchTrade.Rfu.Slot
import SwitchTrade.Transition.LittleEndian

/-!
# Link-layer sub-frames

The headers that `bridge/frlgsim/rfu.py` puts before what a slot carries: two bytes for the child,
three for the parent, the fields packed in bits. What is packed is read back
(`parseLlsfChild_childNiLlsf`, `parseLlsfParent_parentNiLlsf`), each field modulo its width.
-/

namespace SwitchTrade.Rfu

open LittleEndian

/-- `LCOM_NULL`. -/
def lcomNull : Nat := 0

/-- `LCOM_NI_START`. -/
def lcomNiStart : Nat := 1

/-- `LCOM_NI`. -/
def lcomNi : Nat := 2

/-- `LCOM_NI_END`. -/
def lcomNiEnd : Nat := 3

/-- `LCOM_UNI`. -/
def lcomUni : Nat := 4

structure Llsf where
  state : Nat
  ack : Nat
  n : Nat
  phase : Nat
  size : Nat
  deriving DecidableEq, Repr

/-! ## Building -/

/-- The word of `child_ni_llsf`. -/
def childFrame (state n phase ack size : Nat) : Nat :=
  ((state &&& 0xF) <<< 10) ||| ((ack &&& 1) <<< 9) ||| ((n &&& 3) <<< 7) |||
    ((phase &&& 3) <<< 5) ||| (size &&& 0x1F)

/-- `child_ni_llsf`. -/
def childNiLlsf (state n phase ack size : Nat) : Bytes :=
  toBytes 2 (childFrame state n phase ack size)

/-- The word of `parent_ni_llsf`. -/
def parentFrame (state n phase ack size bmSlot : Nat) : Nat :=
  ((state &&& 0xF) <<< 14) ||| ((bmSlot &&& 0xF) <<< 18) ||| ((ack &&& 1) <<< 13) |||
    ((n &&& 3) <<< 11) ||| ((phase &&& 3) <<< 9) ||| (size &&& 0x1FF)

/-- `parent_ni_llsf`. -/
def parentNiLlsf (state n phase ack size : Nat) (bmSlot : Nat := 1) : Bytes :=
  toBytes 3 (parentFrame state n phase ack size bmSlot)

/-- `uni_slot`; where `to_bytes` raises there is no slot. -/
def uniSlot (cmd14 : Bytes) : Option Bytes :=
  let llsf := (lcomUni <<< 10) ||| cmd14.length
  if llsf < 2 ^ 16 then some (toBytes 2 llsf ++ cmd14) else none

/-- `parent_uni_slot`; where it raises there is no slot. -/
def parentUniSlot (rows : List Bytes) : Option Bytes :=
  if rows.any (fun row => row.length ≠ commSlotLength) || 5 < rows.length then none
  else
    let payload := (rows ++ List.replicate (5 - rows.length) (wordsToSlot [])).flatten
    some (parentNiLlsf lcomUni 0 0 0 payload.length ++ payload)

/-! ## Parsing -/

/-- `parse_llsf_child`. -/
def parseLlsfChild (slot : Bytes) : Llsf :=
  let f := ofBytes (slot.take 2)
  { state := (f >>> 10) &&& 0xF
    ack := (f >>> 9) &&& 1
    n := (f >>> 7) &&& 3
    phase := (f >>> 5) &&& 3
    size := f &&& 0x1F }

/-- `parse_llsf_parent`, the header and the slot of the bit map. -/
def parseLlsfParent (slot : Bytes) : Llsf × Nat :=
  let f := ofBytes (slot.take 3)
  ({ state := (f >>> 14) &&& 0xF
     ack := (f >>> 13) &&& 1
     n := (f >>> 11) &&& 3
     phase := (f >>> 9) &&& 3
     size := f &&& 0x1FF }, (f >>> 18) &&& 0xF)

/-! ## What is packed is read back -/

section

variable {state n phase ack size bmSlot : Nat} {rest : Bytes}

theorem and_1 (x : Nat) : x &&& 1 = x % 2 := Nat.and_two_pow_sub_one_eq_mod x 1

theorem and_3 (x : Nat) : x &&& 3 = x % 4 := Nat.and_two_pow_sub_one_eq_mod x 2

theorem and_15 (x : Nat) : x &&& 0xF = x % 16 := Nat.and_two_pow_sub_one_eq_mod x 4

theorem and_31 (x : Nat) : x &&& 0x1F = x % 32 := Nat.and_two_pow_sub_one_eq_mod x 5

theorem and_511 (x : Nat) : x &&& 0x1FF = x % 512 := Nat.and_two_pow_sub_one_eq_mod x 9

theorem childFrame_eq : childFrame state n phase ack size =
    state % 16 * 2 ^ 10 + (ack % 2 * 2 ^ 9 + (n % 4 * 2 ^ 7 +
      (phase % 4 * 2 ^ 5 + size % 32))) := by
  rw [childFrame, and_15, and_1, and_3, and_3, and_31, Nat.or_assoc, Nat.or_assoc, Nat.or_assoc,
    shiftLeft_or (phase % 4) (by omega), shiftLeft_or (n % 4) (by omega),
    shiftLeft_or (ack % 2) (by omega), shiftLeft_or (state % 16) (by omega)]

theorem parentFrame_eq : parentFrame state n phase ack size bmSlot =
    bmSlot % 16 * 2 ^ 18 + (state % 16 * 2 ^ 14 + (ack % 2 * 2 ^ 13 + (n % 4 * 2 ^ 11 +
      (phase % 4 * 2 ^ 9 + size % 512)))) := by
  rw [parentFrame, and_15, and_15, and_1, and_3, and_3, and_511, Nat.or_comm (_ <<< 14),
    Nat.or_assoc, Nat.or_assoc, Nat.or_assoc, Nat.or_assoc,
    shiftLeft_or (phase % 4) (by omega), shiftLeft_or (n % 4) (by omega),
    shiftLeft_or (ack % 2) (by omega), shiftLeft_or (state % 16) (by omega),
    shiftLeft_or (bmSlot % 16) (by omega)]

theorem length_childNiLlsf : (childNiLlsf state n phase ack size).length = 2 := length_toBytes

theorem length_parentNiLlsf : (parentNiLlsf state n phase ack size bmSlot).length = 3 :=
  length_toBytes

theorem parseLlsfChild_childNiLlsf :
    parseLlsfChild (childNiLlsf state n phase ack size ++ rest) =
      ⟨state % 16, ack % 2, n % 4, phase % 4, size % 32⟩ := by
  have htake : (childNiLlsf state n phase ack size ++ rest).take 2 =
      childNiLlsf state n phase ack size := List.take_left' length_childNiLlsf
  have hlt : childFrame state n phase ack size < 256 ^ 2 := by
    rw [childFrame_eq]
    omega
  unfold parseLlsfChild
  rw [htake, childNiLlsf, ofBytes_toBytes hlt]
  simp only [Nat.shiftRight_eq_div_pow, and_15, and_1, and_3, and_31, Llsf.mk.injEq,
    childFrame_eq]
  refine ⟨?_, ?_, ?_, ?_, ?_⟩ <;> omega

theorem parseLlsfParent_parentNiLlsf :
    parseLlsfParent (parentNiLlsf state n phase ack size bmSlot ++ rest) =
      (⟨state % 16, ack % 2, n % 4, phase % 4, size % 512⟩, bmSlot % 16) := by
  have htake : (parentNiLlsf state n phase ack size bmSlot ++ rest).take 3 =
      parentNiLlsf state n phase ack size bmSlot := List.take_left' length_parentNiLlsf
  have hlt : parentFrame state n phase ack size bmSlot < 256 ^ 3 := by
    rw [parentFrame_eq]
    omega
  unfold parseLlsfParent
  rw [htake, parentNiLlsf, ofBytes_toBytes hlt]
  simp only [Nat.shiftRight_eq_div_pow, and_15, and_1, and_3, and_511, Llsf.mk.injEq,
    Prod.mk.injEq, parentFrame_eq]
  refine ⟨⟨?_, ?_, ?_, ?_, ?_⟩, ?_⟩ <;> omega

end

end SwitchTrade.Rfu

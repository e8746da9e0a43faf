import Mathlib.Data.List.Basic
import Mathlib.Data.Nat.Bitwise

/-!
# Bitmaps in bytes

A set of small numbers written as bytes, lowest bit of the first byte first. `fromBytes`
is the little-endian value of the bytes; bit `i` of it is bit `i % 8` of byte `i / 8`
(`testBit_fromBytes`), so that setting a bit in its byte sets exactly that bit of the
value (`testBit_setBit`).
-/

namespace Transition

/-- `int.from_bytes(bytes, "little")`. -/
def fromBytes : List UInt8 → Nat
  | [] => 0
  | b :: bytes => 2 ^ 8 * fromBytes bytes + b.toNat

/-- `bytes[i >> 3] |= 1 << (i & 7)`. -/
def setBit (bytes : List UInt8) (i : Nat) : List UInt8 :=
  bytes.modify (i / 8) fun b => b ||| UInt8.ofNat (1 <<< (i % 8))

namespace Bitmap

theorem length_setBit (bytes : List UInt8) (i : Nat) :
    (setBit bytes i).length = bytes.length := by
  rw [setBit, List.length_modify]

theorem testBit_fromBytes (bytes : List UInt8) (i : Nat) :
    (fromBytes bytes).testBit i = (bytes.getD (i / 8) 0).toNat.testBit (i % 8) := by
  induction bytes generalizing i with
  | nil => simp [fromBytes]
  | cons b bytes ih =>
    have hb : b.toNat < 2 ^ 8 := b.toNat_lt
    rw [fromBytes, Nat.testBit_two_pow_mul_add _ hb]
    by_cases hi : i < 8
    · have hdiv : i / 8 = 0 := by omega
      have hmod : i % 8 = i := by omega
      rw [if_pos hi, hdiv, hmod]
      rfl
    · have hdiv : i / 8 = (i - 8) / 8 + 1 := by omega
      have hmod : i % 8 = (i - 8) % 8 := by omega
      rw [if_neg hi, ih, hdiv, hmod]
      rfl

private theorem testBit_or_one_shiftLeft (b : UInt8) {i j : Nat} (hi : i < 8) :
    (b ||| UInt8.ofNat (1 <<< i)).toNat.testBit j = (b.toNat.testBit j || decide (j = i)) := by
  have hpow : 1 <<< i < 2 ^ 8 := by
    rw [Nat.one_shiftLeft]
    exact Nat.pow_lt_pow_right (by omega) hi
  have hbyte : (UInt8.ofNat (1 <<< i)).toNat = 2 ^ i := by
    rw [UInt8.toNat_ofNat', Nat.mod_eq_of_lt hpow, Nat.one_shiftLeft]
  rw [UInt8.toNat_or, Nat.testBit_or, hbyte, Nat.testBit_two_pow]
  simp only [eq_comm]

/-- Setting a bit sets that bit of the value and no other. -/
theorem testBit_setBit {bytes : List UInt8} {i : Nat} (hi : i < 8 * bytes.length) (j : Nat) :
    (fromBytes (setBit bytes i)).testBit j =
      ((fromBytes bytes).testBit j || decide (j = i)) := by
  rw [testBit_fromBytes, testBit_fromBytes, setBit]
  have hlt : i / 8 < bytes.length := by omega
  by_cases hbyte : j / 8 = i / 8
  · rw [hbyte, List.getD_eq_getElem?_getD, List.getD_eq_getElem?_getD, List.getElem?_modify_eq,
      List.getElem?_eq_getElem hlt]
    have hsame : (j % 8 = i % 8) ↔ (j = i) := by omega
    show (bytes[i / 8] ||| UInt8.ofNat (1 <<< (i % 8))).toNat.testBit (j % 8) = _
    rw [testBit_or_one_shiftLeft _ (Nat.mod_lt _ (by omega))]
    simp only [hsame]
    rfl
  · have hne : ¬ j = i := by
      rintro rfl
      exact hbyte rfl
    rw [List.getD_eq_getElem?_getD, List.getD_eq_getElem?_getD,
      List.getElem?_modify_ne _ _ (Ne.symm hbyte)]
    simp [hne]

theorem fromBytes_replicate_zero (n : Nat) : fromBytes (List.replicate n 0) = 0 := by
  induction n with
  | zero => rfl
  | succ n ih =>
    rw [List.replicate_succ, fromBytes, ih]
    rfl

/-- The bits of a bitmap that was filled number by number. -/
theorem testBit_foldl_setBit {bytes : List UInt8} {numbers : List Nat}
    (h : ∀ i ∈ numbers, i < 8 * bytes.length) (j : Nat) :
    (fromBytes (numbers.foldl setBit bytes)).testBit j =
      ((fromBytes bytes).testBit j || decide (j ∈ numbers)) := by
  induction numbers generalizing bytes with
  | nil => simp
  | cons i numbers ih =>
    have hrest : ∀ k ∈ numbers, k < 8 * (setBit bytes i).length := by
      intro k hk
      rw [length_setBit]
      exact h k (List.mem_cons_of_mem _ hk)
    rw [List.foldl_cons, ih hrest, testBit_setBit (h i List.mem_cons_self)]
    simp only [List.mem_cons, Bool.decide_or, Bool.or_assoc]

theorem length_foldl_setBit (bytes : List UInt8) (numbers : List Nat) :
    (numbers.foldl setBit bytes).length = bytes.length := by
  induction numbers generalizing bytes with
  | nil => rfl
  | cons i numbers ih => rw [List.foldl_cons, ih, length_setBit]

end Bitmap

end Transition

import Mathlib.Data.Nat.Digits.Lemmas
import Mathlib.Tactic.Common

/-!
# Numbers written with their lowest digit first

`digits base width n` are the lowest `width` digits of `n`, which `Nat.ofDigits` reads back.
Between the numbers below `base ^ width` and the lists of `width` digits they are inverse to one
another. `toBytes` and `ofBytes` are the case of bytes.
-/

namespace LittleEndian

def digits (base : Nat) : Nat → Nat → List Nat
  | 0, _ => []
  | width + 1, n => n % base :: digits base width (n / base)

variable {base width n : Nat} {ds : List Nat}

@[simp] theorem length_digits : (digits base width n).length = width := by
  induction width generalizing n with
  | zero => rfl
  | succ width ih => rw [digits, List.length_cons, ih]

theorem lt_of_mem_digits {d : Nat} (hbase : 0 < base) (h : d ∈ digits base width n) :
    d < base := by
  induction width generalizing n with
  | zero => cases h
  | succ width ih =>
    rcases List.mem_cons.mp h with rfl | h
    · exact Nat.mod_lt n hbase
    · exact ih h

theorem ofDigits_digits (h : n < base ^ width) : Nat.ofDigits base (digits base width n) = n := by
  induction width generalizing n with
  | zero =>
    have hzero : n = 0 := by simpa using h
    rw [hzero]
    rfl
  | succ width ih =>
    have hhigh : n / base < base ^ width := by
      rw [Nat.pow_succ] at h
      exact Nat.div_lt_of_lt_mul (by rwa [Nat.mul_comm] at h)
    rw [digits, Nat.ofDigits_cons, ih hhigh]
    exact Nat.mod_add_div n base

theorem digits_ofDigits (h : ∀ d ∈ ds, d < base) :
    digits base ds.length (Nat.ofDigits base ds) = ds := by
  induction ds with
  | nil => rfl
  | cons d ds ih =>
    have hd : d < base := h d (by simp)
    have hbase : 0 < base := Nat.zero_lt_of_lt hd
    have hlow : (d + base * Nat.ofDigits base ds) % base = d := by
      rw [Nat.add_mul_mod_self_left, Nat.mod_eq_of_lt hd]
    have hhigh : (d + base * Nat.ofDigits base ds) / base = Nat.ofDigits base ds := by
      rw [Nat.add_mul_div_left _ _ hbase, Nat.div_eq_of_lt hd, Nat.zero_add]
    rw [Nat.ofDigits_cons, List.length_cons, digits, hlow, hhigh, ih fun e he => h e (by simp [he])]

/-! ## Bytes -/

/-- `n.to_bytes(width, "little")`. -/
def toBytes (width n : Nat) : List UInt8 := (digits 256 width n).map UInt8.ofNat

/-- `int.from_bytes(bytes, "little")`. -/
def ofBytes (bytes : List UInt8) : Nat := Nat.ofDigits 256 (bytes.map UInt8.toNat)

variable {bytes : List UInt8}

@[simp] theorem length_toBytes : (toBytes width n).length = width := by
  rw [toBytes, List.length_map, length_digits]

theorem ofBytes_lt : ofBytes bytes < 256 ^ bytes.length := by
  have hdigits : ∀ d ∈ bytes.map UInt8.toNat, d < 256 := by
    intro d hd
    obtain ⟨byte, -, rfl⟩ := List.mem_map.mp hd
    exact byte.toNat_lt
  have hlt := Nat.ofDigits_lt_base_pow_length (by decide) hdigits
  rwa [List.length_map] at hlt

theorem ofBytes_toBytes (h : n < 256 ^ width) : ofBytes (toBytes width n) = n := by
  have hsame : (toBytes width n).map UInt8.toNat = digits 256 width n := by
    rw [toBytes, List.map_map]
    conv_rhs => rw [← List.map_id (digits 256 width n)]
    apply List.map_congr_left
    intro d hd
    have hlt : d < 256 := lt_of_mem_digits (by decide) hd
    exact (UInt8.toNat_ofNat').trans (Nat.mod_eq_of_lt hlt)
  rw [ofBytes, hsame, ofDigits_digits h]

theorem toBytes_ofBytes : toBytes bytes.length (ofBytes bytes) = bytes := by
  have hdigits : ∀ d ∈ bytes.map UInt8.toNat, d < 256 := by
    intro d hd
    obtain ⟨byte, -, rfl⟩ := List.mem_map.mp hd
    exact byte.toNat_lt
  have hback := digits_ofDigits hdigits
  rw [List.length_map] at hback
  rw [toBytes, ofBytes, hback, List.map_map]
  conv_rhs => rw [← List.map_id bytes]
  apply List.map_congr_left
  intro byte hbyte
  exact UInt8.ofNat_toNat

/-! ## Fields of bits -/

/-- A field above bits that are below it is added. -/
theorem shiftLeft_or {low i : Nat} (high : Nat) (h : low < 2 ^ i) :
    high <<< i ||| low = high * 2 ^ i + low := by
  rw [← Nat.shiftLeft_add_eq_or_of_lt h, Nat.shiftLeft_eq]

end LittleEndian

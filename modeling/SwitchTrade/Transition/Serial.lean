import Mathlib.Data.Nat.ModEq
import Mathlib.Data.List.Basic

/-!
# Serial numbers

A counter that is sent as its low `w` bits. `serial w start n` is the `n`-th number of a
stream that starts at `start`. The receiver of a serial number knows the counter only up
to a multiple of `2 ^ w`; the rules say what the difference of two serial numbers tells
when the two counters are known to be near each other.
-/

namespace Transition

variable {w : Nat}

/-- The `n`-th serial number of the stream that starts at `start`. -/
def serial (start : BitVec w) (n : Nat) : BitVec w := start + BitVec.ofNat w n

namespace Serial

variable {start : BitVec w} {m n : Nat}

@[simp] theorem serial_zero : serial start 0 = start := by
  simp [serial]

theorem serial_succ : serial start n + 1 = serial start (n + 1) := by
  rw [serial, serial, BitVec.ofNat_add, BitVec.add_assoc]
  rfl

theorem serial_sub_sub_one : serial start n - serial start m - 1 =
    serial start n - serial start (m + 1) := by
  rw [← serial_succ, BitVec.sub_eq_add_neg, BitVec.sub_eq_add_neg,
    BitVec.sub_eq_add_neg (serial start n), BitVec.neg_add, BitVec.sub_eq_add_neg,
    BitVec.add_assoc]

private theorem serial_sub : serial start n - serial start m =
    BitVec.ofNat w n - BitVec.ofNat w m := by
  rw [serial, serial, BitVec.sub_eq_add_neg, BitVec.sub_eq_add_neg, BitVec.neg_add,
    BitVec.sub_eq_add_neg, BitVec.add_comm start, BitVec.add_assoc, ← BitVec.add_assoc start,
    BitVec.add_right_neg, BitVec.zero_add]

/-- Forward, the difference is the distance. -/
theorem toNat_sub (hle : m ≤ n) (hnear : n - m < 2 ^ w) :
    (serial start n - serial start m).toNat = n - m := by
  obtain ⟨d, rfl⟩ := Nat.exists_eq_add_of_le hle
  have hd : m + d - m = d := by omega
  have hsub : BitVec.ofNat w (m + d) - BitVec.ofNat w m = BitVec.ofNat w d := by
    rw [BitVec.ofNat_add, BitVec.add_comm, BitVec.add_sub_cancel]
  rw [serial_sub, hsub, hd, BitVec.toNat_ofNat, Nat.mod_eq_of_lt (hd ▸ hnear)]

/-- Backward, it is the distance counted down from `2 ^ w`. -/
theorem toNat_sub_of_lt (hlt : n < m) (hnear : m - n < 2 ^ w) :
    (serial start n - serial start m).toNat = 2 ^ w - (m - n) := by
  have hforward := @toNat_sub _ start _ _ hlt.le hnear
  have hneg : serial start n - serial start m = -(serial start m - serial start n) := by
    rw [BitVec.sub_eq_add_neg (serial start m), BitVec.neg_add, BitVec.sub_eq_add_neg,
      BitVec.sub_eq_add_neg, BitVec.neg_neg, BitVec.add_comm]
  rw [hneg, BitVec.toNat_neg, hforward, Nat.mod_eq_of_lt (by omega)]

/-- Two counters less than `2 ^ w` apart have the same serial number only if they are equal. -/
theorem eq_of_serial_eq (h : serial start m = serial start n) (hmn : m < n + 2 ^ w)
    (hnm : n < m + 2 ^ w) : m = n := by
  have hzero : (serial start n - serial start m).toNat = 0 := by
    rw [h, BitVec.sub_self]
    rfl
  rcases Nat.lt_trichotomy m n with hlt | heq | hgt
  · rw [toNat_sub hlt.le (by omega)] at hzero
    omega
  · exact heq
  · rw [toNat_sub_of_lt hgt (by omega)] at hzero
    omega

/-- The difference of two counters less than half the range apart tells their order. -/
theorem toNat_sub_lt_half {start : BitVec (w + 1)} (hmn : m < n + 2 ^ w) (hnm : n < m + 2 ^ w) :
    (serial start n - serial start m ≠ 0 ∧ (serial start n - serial start m).toNat < 2 ^ w) ↔
      m < n := by
  have hpow : 2 ^ (w + 1) = 2 ^ w + 2 ^ w := by
    rw [Nat.pow_succ]
    omega
  rcases Nat.lt_trichotomy m n with hlt | heq | hgt
  · have hsub := @toNat_sub _ start _ _ hlt.le (by omega)
    constructor
    · intro _
      exact hlt
    · intro _
      refine ⟨?_, by omega⟩
      intro hzero
      rw [hzero] at hsub
      have : (0 : BitVec (w + 1)).toNat = 0 := rfl
      omega
  · subst heq
    simp
  · have hsub := @toNat_sub_of_lt _ start _ _ hgt (by omega)
    constructor
    · rintro ⟨-, hhalf⟩
      omega
    · intro h
      omega

end Serial

end Transition

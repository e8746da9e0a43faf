import Mathlib.Algebra.Ring.Nat
import Mathlib.Data.List.Induction
import Mathlib.Tactic.Common

/-!
# Numbers in network byte order

`toBytes width n` are the lowest `width` bytes of `n`, highest first, and `ofBytes` reads them
back. Between the numbers below `256 ^ width` and the byte strings of length `width` they are
inverse to one another. `pack` and `unpack` do the same for fields of several widths in a row.
-/

namespace BigEndian

def toBytes : Nat → Nat → List UInt8
  | 0, _ => []
  | width + 1, n => toBytes width (n / 256) ++ [UInt8.ofNat n]

def ofBytes (bytes : List UInt8) : Nat := bytes.foldl (fun n byte => 256 * n + byte.toNat) 0

theorem ofBytes_append_singleton (bytes : List UInt8) (byte : UInt8) :
    ofBytes (bytes ++ [byte]) = 256 * ofBytes bytes + byte.toNat := by
  unfold ofBytes
  rw [List.foldl_append]
  rfl

@[simp] theorem length_toBytes (width n : Nat) : (toBytes width n).length = width := by
  induction width generalizing n with
  | zero => rfl
  | succ width ih =>
    rw [toBytes, List.length_append, ih]
    rfl

theorem ofBytes_toBytes {width n : Nat} (h : n < 256 ^ width) :
    ofBytes (toBytes width n) = n := by
  induction width generalizing n with
  | zero =>
    have hzero : n = 0 := by simpa using h
    rw [hzero]
    rfl
  | succ width ih =>
    have hhigh : n / 256 < 256 ^ width := by
      rw [Nat.pow_succ] at h
      exact Nat.div_lt_of_lt_mul (by rwa [Nat.mul_comm] at h)
    rw [toBytes, ofBytes_append_singleton, ih hhigh]
    have hlow : (UInt8.ofNat n).toNat = n % 256 := UInt8.toNat_ofNat'
    omega

theorem ofBytes_lt (bytes : List UInt8) : ofBytes bytes < 256 ^ bytes.length := by
  induction bytes using List.reverseRecOn with
  | nil => exact Nat.one_pos
  | append_singleton bytes byte ih =>
    rw [ofBytes_append_singleton, List.length_append, List.length_singleton, Nat.pow_succ]
    have hbyte := byte.toNat_lt
    omega

theorem toBytes_ofBytes (bytes : List UInt8) :
    toBytes bytes.length (ofBytes bytes) = bytes := by
  induction bytes using List.reverseRecOn with
  | nil => rfl
  | append_singleton bytes byte ih =>
    have hbyte := byte.toNat_lt
    rw [List.length_append, List.length_singleton, toBytes, ofBytes_append_singleton]
    have hhigh : (256 * ofBytes bytes + byte.toNat) / 256 = ofBytes bytes := by omega
    have hlow : UInt8.ofNat (256 * ofBytes bytes + byte.toNat) = byte := by
      apply UInt8.toNat_inj.mp
      rw [UInt8.toNat_ofNat']
      omega
    rw [hhigh, hlow, ih]

/-! ## Fields in a row -/

/-- The bytes of fields, each a width and a value. -/
def pack : List (Nat × Nat) → List UInt8
  | [] => []
  | (width, value) :: rest => toBytes width value ++ pack rest

/-- The values of fields of these widths. -/
def unpack : List Nat → List UInt8 → List Nat
  | [], _ => []
  | width :: rest, raw => ofBytes (raw.take width) :: unpack rest (raw.drop width)

theorem length_pack (fields : List (Nat × Nat)) :
    (pack fields).length = (fields.map Prod.fst).sum := by
  induction fields with
  | nil => rfl
  | cons field rest ih =>
    rw [pack, List.length_append, length_toBytes, ih, List.map_cons, List.sum_cons]

theorem unpack_pack {fields : List (Nat × Nat)} (h : ∀ f ∈ fields, f.2 < 256 ^ f.1)
    (rest : List UInt8) :
    unpack (fields.map Prod.fst) (pack fields ++ rest) = fields.map Prod.snd := by
  induction fields with
  | nil => rfl
  | cons field fields ih =>
    obtain ⟨width, value⟩ := field
    have hfirst := h _ List.mem_cons_self
    have hwidth : width = (toBytes width value).length := (length_toBytes width value).symm
    rw [List.map_cons, List.map_cons, pack, List.append_assoc, unpack]
    rw [List.take_left' hwidth.symm, List.drop_left' hwidth.symm, ofBytes_toBytes hfirst,
      ih fun f hf => h f (List.mem_cons_of_mem _ hf)]

theorem unpack_lt {widths : List Nat} {raw : List UInt8} :
    ∀ f ∈ widths.zip (unpack widths raw), f.2 < 256 ^ f.1 := by
  induction widths generalizing raw with
  | nil =>
    intro f hf
    cases hf
  | cons width rest ih =>
    intro f hf
    rcases List.mem_cons.mp hf with rfl | hf
    · have hlt := ofBytes_lt (raw.take width)
      have hle : (raw.take width).length ≤ width := by
        rw [List.length_take]
        omega
      exact Nat.lt_of_lt_of_le hlt (Nat.pow_le_pow_right (by decide) hle)
    · exact ih f hf

theorem pack_unpack {widths : List Nat} {raw : List UInt8} (h : raw.length = widths.sum) :
    pack (widths.zip (unpack widths raw)) = raw := by
  induction widths generalizing raw with
  | nil => exact (List.length_eq_zero_iff.mp h).symm
  | cons width rest ih =>
    rw [List.sum_cons] at h
    have htake : (raw.take width).length = width := by
      rw [List.length_take]
      omega
    have hdrop : (raw.drop width).length = rest.sum := by
      rw [List.length_drop]
      omega
    have hfirst := toBytes_ofBytes (raw.take width)
    rw [htake] at hfirst
    rw [unpack, List.zip_cons_cons, pack, ih hdrop, hfirst, List.take_append_drop]

end BigEndian

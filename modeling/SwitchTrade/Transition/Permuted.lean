import SwitchTrade.Transition.Chunks
import Mathlib.Algebra.BigOperators.Group.List.Basic
import Mathlib.Algebra.Ring.Nat

/-!
# A list whose pieces are rewritten or change places

`mapped w n f` rewrites each of `n` pieces of width `w`, and `permuted w n σ` puts the piece `σ i`
in the place `i`. Where larger pieces change places, the smaller ones inside them are rewritten
before or after alike (`mapped_permuted`), and a sum over the smaller ones does not change
(`total_permuted`).
-/

namespace Chunks

universe u

variable {α : Type u} {w n m i j p : Nat} {f g : List α → List α} {σ τ : Nat → Nat}
  {xs ys : List α}

def mapped (w n : Nat) (f : List α → List α) (xs : List α) : List α :=
  (List.range n).flatMap fun i => f (chunk w i xs)

def permuted (w n : Nat) (σ : Nat → Nat) (xs : List α) : List α :=
  (List.range n).flatMap fun i => chunk w (σ i) xs

/-- The sum of a number read off each piece. -/
def total (w n : Nat) (value : List α → Nat) (xs : List α) : Nat :=
  ((List.range n).map fun i => value (chunk w i xs)).sum

theorem width_of_lt (h : xs.length = n * w) (hi : i < n) : (chunk w i xs).length = w := by
  have hend := @end_le w i n hi
  exact length_chunk (by omega)

/-- Lists of whole pieces with the same pieces are the same. -/
theorem ext_chunk (hx : xs.length = n * w) (hy : ys.length = n * w)
    (h : ∀ i < n, chunk w i xs = chunk w i ys) : xs = ys := by
  rw [← flatMap_chunk hx, ← flatMap_chunk hy]
  apply List.flatMap_congr
  intro i hi
  exact h i (List.mem_range.mp hi)

/-- A small piece of a large one. -/
theorem chunk_chunk (hj : j < m) : chunk w j (chunk (m * w) p xs) = chunk w (p * m + j) xs := by
  apply List.ext_getElem?
  intro k
  rw [getElem?_chunk, getElem?_chunk, getElem?_chunk]
  by_cases hk : k < w
  · have hend := @end_le w j m hj
    rw [if_pos hk, if_pos hk, if_pos (by omega)]
    congr 1
    rw [Nat.add_mul, Nat.mul_assoc, Nat.add_assoc]
  · rw [if_neg hk, if_neg hk]

/-! ## Pieces that are rewritten -/

theorem length_mapped (hf : ∀ piece, piece.length = w → (f piece).length = w)
    (h : xs.length = n * w) : (mapped w n f xs).length = n * w := by
  apply length_flatMap
  intro k hk
  exact hf _ (width_of_lt h hk)

theorem chunk_mapped (hf : ∀ piece, piece.length = w → (f piece).length = w)
    (h : xs.length = n * w) (hi : i < n) : chunk w i (mapped w n f xs) = f (chunk w i xs) := by
  apply chunk_flatMap _ hi
  intro k hk
  exact hf _ (width_of_lt h hk)

/-- Rewriting that undoes itself on each piece undoes itself. -/
theorem mapped_mapped (hf : ∀ piece, piece.length = w → (f piece).length = w)
    (hback : ∀ piece, piece.length = w → f (f piece) = piece) (h : xs.length = n * w) :
    mapped w n f (mapped w n f xs) = xs := by
  have hlen := length_mapped hf h
  apply ext_chunk (length_mapped hf hlen) h
  intro i hi
  rw [chunk_mapped hf hlen hi, chunk_mapped hf h hi, hback _ (width_of_lt h hi)]

/-! ## Pieces that change places -/

theorem length_permuted (hσ : ∀ i < n, σ i < n) (h : xs.length = n * w) :
    (permuted w n σ xs).length = n * w := by
  apply length_flatMap
  intro k hk
  exact width_of_lt h (hσ k hk)

theorem chunk_permuted (hσ : ∀ i < n, σ i < n) (h : xs.length = n * w) (hi : i < n) :
    chunk w i (permuted w n σ xs) = chunk w (σ i) xs := by
  apply chunk_flatMap _ hi
  intro k hk
  exact width_of_lt h (hσ k hk)

theorem permuted_permuted (hσ : ∀ i < n, σ i < n) (hτ : ∀ i < n, τ i < n)
    (hinverse : ∀ i < n, τ (σ i) = i) (h : xs.length = n * w) :
    permuted w n σ (permuted w n τ xs) = xs := by
  have hlen := length_permuted hτ h
  apply ext_chunk (length_permuted hσ hlen) h
  intro i hi
  rw [chunk_permuted hσ hlen hi, chunk_permuted hτ h (hσ i hi), hinverse i hi]

/-- Large pieces change places, and the small ones in them are rewritten, in either order. -/
theorem mapped_permuted (hσ : ∀ i < n, σ i < n)
    (hf : ∀ piece, piece.length = w → (f piece).length = w) (h : xs.length = n * m * w) :
    mapped w (n * m) f (permuted (m * w) n σ xs) =
      permuted (m * w) n σ (mapped w (n * m) f xs) := by
  have hlarge : xs.length = n * (m * w) := by rw [h, Nat.mul_assoc]
  have hperm : (permuted (m * w) n σ xs).length = n * m * w := by
    rw [length_permuted hσ hlarge, Nat.mul_assoc]
  have hmapped := length_mapped hf h
  have hmappedLarge : (mapped w (n * m) f xs).length = n * (m * w) := by
    rw [hmapped, Nat.mul_assoc]
  have hright : (permuted (m * w) n σ (mapped w (n * m) f xs)).length = n * m * w := by
    rw [length_permuted hσ hmappedLarge, Nat.mul_assoc]
  apply ext_chunk (length_mapped hf hperm) hright
  intro k hk
  have hm : 0 < m := Nat.pos_of_ne_zero fun hzero => by simp [hzero] at hk
  have hp : k / m < n := Nat.div_lt_of_lt_mul (by rwa [Nat.mul_comm] at hk)
  have hj : k % m < m := Nat.mod_lt k hm
  have hsplit : k = k / m * m + k % m := by rw [Nat.mul_comm, Nat.div_add_mod]
  have hsource : σ (k / m) * m + k % m < n * m := by
    have hend := @end_le m (σ (k / m)) n (hσ _ hp)
    omega
  rw [chunk_mapped hf hperm hk, hsplit, ← chunk_chunk hj, ← chunk_chunk hj,
    chunk_permuted hσ hlarge hp, chunk_permuted hσ hmappedLarge hp, chunk_chunk hj, chunk_chunk hj,
    chunk_mapped hf h hsource]

/-! ## Sums over the pieces -/

variable {value : List α → Nat}

/-- A sum over small pieces, large piece by large piece. -/
theorem total_mul : total w (n * m) value xs =
    ((List.range n).map fun p => total w m value (chunk (m * w) p xs)).sum := by
  induction n with
  | zero => rw [Nat.zero_mul]; rfl
  | succ n ih =>
    rw [List.range_succ, List.map_append, List.sum_append, ← ih, total, Nat.succ_mul,
      List.range_add, List.map_append, List.sum_append, List.map_map, total]
    congr 1
    rw [List.map_singleton, List.sum_singleton, total]
    congr 1
    apply List.map_congr_left
    intro j hj
    rw [chunk_chunk (List.mem_range.mp hj)]
    rfl

theorem total_permuted (hσ : ((List.range n).map σ).Perm (List.range n))
    (h : xs.length = n * (m * w)) :
    total w (n * m) value (permuted (m * w) n σ xs) = total w (n * m) value xs := by
  have hlt : ∀ i < n, σ i < n := by
    intro i hi
    exact List.mem_range.mp (hσ.subset (List.mem_map_of_mem (List.mem_range.mpr hi)))
  have hpieces : (List.range n).map (fun p => total w m value (chunk (m * w) p
      (permuted (m * w) n σ xs))) =
      ((List.range n).map σ).map fun p => total w m value (chunk (m * w) p xs) := by
    rw [List.map_map]
    apply List.map_congr_left
    intro p hp
    rw [chunk_permuted hlt h (List.mem_range.mp hp)]
    rfl
  rw [total_mul, total_mul, hpieces]
  exact (hσ.map _).sum_eq

end Chunks

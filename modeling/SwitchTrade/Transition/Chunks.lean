import Mathlib.Data.List.Basic
import Mathlib.Tactic.Common

/-!
# A list read and written in pieces of one width

`chunk w i xs` is the piece `i` of width `w`, and `splice w i piece xs` writes it. A piece written
is read back and the others stay (`chunk_splice_self`, `chunk_splice_of_ne`); a list of `n` whole
pieces is its pieces in a row (`flatMap_chunk`). `padded` fills a piece that is too short.
-/

namespace Chunks

universe u

variable {α : Type u} {w i j : Nat} {xs piece : List α}

def chunk (w i : Nat) (xs : List α) : List α := (xs.drop (i * w)).take w

def splice (w i : Nat) (piece xs : List α) : List α :=
  xs.take (i * w) ++ piece ++ xs.drop (i * w + w)

def padded (w : Nat) (filler : α) (xs : List α) : List α :=
  xs.take w ++ List.replicate (w - xs.length) filler

theorem getElem?_chunk (k : Nat) :
    (chunk w i xs)[k]? = if k < w then xs[i * w + k]? else none := by
  rw [chunk, List.getElem?_take]
  split
  · rw [List.getElem?_drop]
  · rfl

theorem length_chunk (h : i * w + w ≤ xs.length) : (chunk w i xs).length = w := by
  rw [chunk, List.length_take, List.length_drop]
  omega

theorem end_le {n : Nat} (h : i < n) : i * w + w ≤ n * w := by
  rw [← Nat.succ_mul]
  exact Nat.mul_le_mul_right w h

theorem length_splice (hpiece : piece.length = w) (h : i * w + w ≤ xs.length) :
    (splice w i piece xs).length = xs.length := by
  rw [splice, List.length_append, List.length_append, List.length_take, List.length_drop]
  omega

theorem chunk_splice_self (hpiece : piece.length = w) (h : i * w ≤ xs.length) :
    chunk w i (splice w i piece xs) = piece := by
  have htake : (xs.take (i * w)).length = i * w := List.length_take_of_le h
  rw [chunk, splice, List.append_assoc, List.drop_left' htake, List.take_left' hpiece]

theorem chunk_splice_of_ne (hpiece : piece.length = w) (h : i * w + w ≤ xs.length) (hne : j ≠ i) :
    chunk w j (splice w i piece xs) = chunk w j xs := by
  have hapart : j * w + w ≤ i * w ∨ i * w + w ≤ j * w := by
    rcases Nat.lt_or_gt_of_ne hne with hlt | hgt
    · exact .inl (end_le hlt)
    · exact .inr (end_le hgt)
  apply List.ext_getElem?
  intro k
  rw [getElem?_chunk, getElem?_chunk]
  split
  · rename_i hk
    rw [splice, List.append_assoc, List.getElem?_append, List.getElem?_append, List.length_take,
      List.getElem?_take, List.getElem?_drop]
    rcases hapart with hbefore | hafter
    · rw [if_pos (by omega), if_pos (by omega)]
    · rw [if_neg (by omega), if_neg (by omega)]
      congr 1
      omega
  · rfl

theorem flatMap_chunk_eq_take (n : Nat) :
    (List.range n).flatMap (chunk w · xs) = xs.take (n * w) := by
  induction n with
  | zero => rw [Nat.zero_mul, List.take_zero]; rfl
  | succ n ih =>
    rw [List.range_succ, List.flatMap_append, ih, List.flatMap_singleton, chunk, Nat.succ_mul,
      List.take_add]

/-- A list of whole pieces is its pieces in a row. -/
theorem flatMap_chunk {n : Nat} (h : xs.length = n * w) :
    (List.range n).flatMap (chunk w · xs) = xs := by
  rw [flatMap_chunk_eq_take, ← h, List.take_length]

theorem chunk_append_left {more : List α} (h : i * w + w ≤ xs.length) :
    chunk w i (xs ++ more) = chunk w i xs := by
  rw [chunk, chunk, List.drop_append_of_le_length (by omega), List.take_append_of_le_length]
  rw [List.length_drop]
  omega

theorem length_flatMap {n : Nat} {f : Nat → List α} (hwidth : ∀ k < n, (f k).length = w) :
    ((List.range n).flatMap f).length = n * w := by
  induction n with
  | zero => rw [Nat.zero_mul]; rfl
  | succ n ih =>
    rw [List.range_succ, List.flatMap_append, List.length_append, List.flatMap_singleton,
      hwidth n (by omega), ih fun k hk => hwidth k (by omega), Nat.succ_mul]

/-- Pieces of one width in a row are the pieces of the list they make. -/
theorem chunk_flatMap {n : Nat} {f : Nat → List α} (hwidth : ∀ k < n, (f k).length = w)
    (h : i < n) : chunk w i ((List.range n).flatMap f) = f i := by
  induction n with
  | zero => exact absurd h (Nat.not_lt_zero i)
  | succ n ih =>
    have hbefore : ((List.range n).flatMap f).length = n * w :=
      length_flatMap fun k hk => hwidth k (by omega)
    rw [List.range_succ, List.flatMap_append, List.flatMap_singleton]
    rcases Nat.lt_succ_iff_lt_or_eq.mp h with hlt | rfl
    · have hend : i * w + w ≤ n * w := end_le hlt
      rw [chunk_append_left (by omega)]
      exact ih (fun k hk => hwidth k (by omega)) hlt
    · rw [chunk, List.drop_left' hbefore]
      exact List.take_of_length_le (Nat.le_of_eq (hwidth i h))

theorem chunk_replicate {n : Nat} {a : α} (h : i < n) :
    chunk w i (List.replicate (n * w) a) = List.replicate w a := by
  have hend := @end_le w i n h
  rw [chunk, List.drop_replicate, List.take_replicate]
  congr 1
  omega

theorem length_padded {filler : α} : (padded w filler xs).length = w := by
  rw [padded, List.length_append, List.length_take, List.length_replicate]
  omega

theorem padded_of_length {filler : α} (h : xs.length = w) : padded w filler xs = xs := by
  rw [padded, h, Nat.sub_self, List.replicate_zero, List.append_nil, ← h, List.take_length]

theorem getElem?_padded {filler : α} (k : Nat) :
    (padded w filler xs)[k]? = if k < w then some (xs[k]?.getD filler) else none := by
  rw [padded, List.getElem?_append, List.length_take, List.getElem?_take, List.getElem?_replicate]
  by_cases hk : k < w
  · rcases Nat.lt_or_ge k xs.length with hlt | hge
    · rw [if_pos (Nat.lt_min.mpr ⟨hk, hlt⟩), if_pos hk, if_pos hk, List.getElem?_eq_getElem hlt]
      rfl
    · rw [if_neg (by omega), if_pos (by omega), if_pos hk, List.getElem?_eq_none hge]
      rfl
  · rw [if_neg (by omega), if_neg (by omega), if_neg hk]

/-- The pieces of a list that is filled up are its pieces, filled up. -/
theorem chunk_padded {n : Nat} {filler : α} (h : i < n) :
    chunk w i (padded (n * w) filler xs) = padded w filler (chunk w i xs) := by
  apply List.ext_getElem?
  intro k
  rw [getElem?_chunk, getElem?_padded, getElem?_padded, getElem?_chunk]
  by_cases hk : k < w
  · have hend := @end_le w i n h
    rw [if_pos hk, if_pos hk, if_pos hk, if_pos (by omega)]
  · rw [if_neg hk, if_neg hk]

end Chunks

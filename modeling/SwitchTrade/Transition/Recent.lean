import Mathlib.Data.List.DropRight
import Mathlib.Data.List.Perm.Subperm

/-!
# The most recent values

A bounded memory of a stream without repetition: the values are kept in the order they came
in, and the oldest goes when there is one too many. What is remembered is the end of the
stream (`remember_rtake`), and a value is forgotten exactly when as many came after it as the
memory holds (`mem_rtake`).
-/

namespace Transition

variable {α : Type*}

/-- The value goes to the end of the store, unless it is in it; the oldest makes place. -/
def remember [DecidableEq α] (limit : Nat) (store : List α) (value : α) : List α :=
  if value ∈ store then store
  else if limit < store.length + 1 then (store ++ [value]).drop 1
  else store ++ [value]

namespace Recent

theorem remember_rtake [DecidableEq α] {limit : Nat} {xs : List α} {x : α}
    (h : x ∉ xs.rtake limit) : remember limit (xs.rtake limit) x = (xs ++ [x]).rtake limit := by
  unfold remember
  rw [if_neg h]
  unfold List.rtake
  rw [List.length_append, List.length_singleton, List.length_drop]
  by_cases hlimit : limit ≤ xs.length
  · have hlen : limit < xs.length - (xs.length - limit) + 1 := by omega
    have hdrop : xs.length + 1 - limit = xs.length - limit + 1 := by omega
    rw [if_pos hlen, hdrop, ← List.drop_drop,
      @List.drop_append_of_le_length _ xs _ _ (by omega)]
  · have hlen : ¬ limit < xs.length - (xs.length - limit) + 1 := by omega
    have hxs : xs.length - limit = 0 := by omega
    have hdrop : xs.length + 1 - limit = 0 := by omega
    rw [if_neg hlen, hxs, hdrop, List.drop_zero, List.drop_zero]

theorem mem_rtake {limit : Nat} {xs : List α} {x : α} :
    x ∈ xs.rtake limit ↔ ∃ older newer, xs = older ++ x :: newer ∧ newer.length < limit := by
  unfold List.rtake
  constructor
  · intro hx
    obtain ⟨older, newer, hsplit⟩ := List.append_of_mem hx
    refine ⟨xs.take (xs.length - limit) ++ older, newer, ?_, ?_⟩
    · rw [List.append_assoc, ← hsplit, List.take_append_drop]
    · have hlen := congrArg List.length hsplit
      rw [List.length_drop, List.length_append, List.length_cons] at hlen
      omega
  · rintro ⟨older, newer, rfl, hlen⟩
    have hle : (older ++ x :: newer).length - limit ≤ older.length := by
      rw [List.length_append, List.length_cons]
      omega
    rw [List.drop_append_of_le_length hle]
    exact List.mem_append_right _ List.mem_cons_self

/-- Distinct numbers between two bounds. -/
theorem length_le_of_between {xs : List Nat} (hnodup : xs.Nodup) {low high : Nat}
    (h : ∀ x ∈ xs, low ≤ x ∧ x < high) : xs.length ≤ high - low := by
  have hsub : xs ⊆ List.range' low (high - low) := by
    intro x hx
    have := h x hx
    exact List.mem_range'_1.mpr ⟨this.1, by omega⟩
  have hlen := (hnodup.subperm hsub).length_le
  rwa [List.length_range'] at hlen

/-- A list that has all the numbers between two bounds. -/
theorem le_length_of_between {xs : List Nat} {low high : Nat}
    (h : ∀ x, low ≤ x → x < high → x ∈ xs) : high - low ≤ xs.length := by
  have hsub : List.range' low (high - low) ⊆ xs := by
    intro x hx
    obtain ⟨hlow, hhigh⟩ := List.mem_range'_1.mp hx
    exact h x hlow (by omega)
  have hnodup : (List.range' low (high - low)).Nodup := List.nodup_range'
  have hlen := (hnodup.subperm hsub).length_le
  rwa [List.length_range'] at hlen

end Recent

end Transition

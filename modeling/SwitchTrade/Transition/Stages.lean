import Mathlib.Data.List.Pairwise
import Mathlib.Order.Nat
import Mathlib.Tactic.Common

/-!
# A channel that keeps order, by stages

What is in flight on a channel that loses messages but keeps their order carries stages that never
go down: they lie between a stage at the far end and one at the near end. `Staged` is kept by
sending, by losing and by taking the oldest message, whichever messages those are.
-/

namespace Stages

universe u

variable {α : Type u} {low high : Nat} {xs : List (Nat × α)}

/-- The stages of what is in flight, the oldest first. -/
structure Staged (low high : Nat) (xs : List (Nat × α)) : Prop where
  ends : low ≤ high
  low : ∀ x ∈ xs, low ≤ x.1
  high : ∀ x ∈ xs, x.1 ≤ high
  order : xs.Pairwise fun x y => x.1 ≤ y.1

namespace Staged

theorem nil (h : low ≤ high) : Staged low high ([] : List (Nat × α)) :=
  ⟨h, nofun, nofun, .nil⟩

/-- All that is in flight is of one stage. -/
theorem const (h : low ≤ high) (hall : ∀ x ∈ xs, x.1 = low) : Staged low high xs where
  ends := h
  low x hx := (hall x hx).ge
  high x hx := (hall x hx).le.trans h
  order := List.pairwise_iff_forall_sublist.mpr fun {x y} hxy =>
    ((hall x (hxy.subset (by simp))).trans (hall y (hxy.subset (by simp))).symm).le

theorem sublist (h : Staged low high xs) {ys : List (Nat × α)} (hsub : ys.Sublist xs) :
    Staged low high ys where
  ends := h.ends
  low x hx := h.low x (hsub.subset hx)
  high x hx := h.high x (hsub.subset hx)
  order := h.order.sublist hsub

/-- The near end goes up. -/
theorem raise (h : Staged low high xs) {high' : Nat} (hle : high ≤ high') :
    Staged low high' xs where
  ends := h.ends.trans hle
  low := h.low
  high x hx := (h.high x hx).trans hle
  order := h.order

/-- A message is sent at the near end, at the stage it has come to. -/
theorem send (h : Staged low high xs) (a : α) : Staged low high (xs ++ [(high, a)]) where
  ends := h.ends
  low x hx := by
    rcases List.mem_append.mp hx with hx | hx
    · exact h.low x hx
    · rw [List.mem_singleton.mp hx]
      exact h.ends
  high x hx := by
    rcases List.mem_append.mp hx with hx | hx
    · exact h.high x hx
    · rw [List.mem_singleton.mp hx]
  order := by
    refine List.pairwise_append.mpr ⟨h.order, List.pairwise_singleton _ _, fun x hx y hy => ?_⟩
    rw [List.mem_singleton.mp hy]
    exact h.high x hx

/-- The oldest message is taken, and the far end may come to its stage. -/
theorem take {x : Nat × α} (h : Staged low high (x :: xs)) {low' : Nat} (hle : low' ≤ x.1) :
    Staged low' high xs where
  ends := hle.trans (h.high x List.mem_cons_self)
  low _ hy := hle.trans (List.rel_of_pairwise_cons h.order hy)
  high y hy := h.high y (List.mem_cons_of_mem x hy)
  order := h.order.tail

end Staged

/-- What is lost of the messages is lost with their stages. -/
theorem exists_lost {ys : List α} (h : ys.Sublist (xs.map Prod.snd)) :
    ∃ zs : List (Nat × α), zs.Sublist xs ∧ ys = zs.map Prod.snd :=
  List.sublist_map_iff.mp h

end Stages

import SwitchTrade.Transition.Dict
import Mathlib.Algebra.Order.Group.Defs
import Mathlib.Tactic.Abel

/-!
# A memory of the last while

A memory keeps for each key the time it was last recorded and forgets what is older than its
window whenever it is used. Against the history of all recordings it is exact: while the clock does
not go back, a key is found if and only if some recording of it is not older than the window.
-/

universe u

namespace Window

variable {κ : Type u} {τ : Type*} [DecidableEq κ] [AddCommGroup τ] [LinearOrder τ]

/-- What is not older than the window. -/
def prune (window now : τ) (seen : Dict κ τ) : Dict κ τ :=
  seen.filter fun _ stamp => decide (now - window ≤ stamp)

def record (window now : τ) (key : κ) (seen : Dict κ τ) : Dict κ τ :=
  (prune window now seen).set key now

def found (window now : τ) (key : κ) (seen : Dict κ τ) : Bool :=
  match seen.get? key with
  | none => false
  | some stamp => decide (now - stamp ≤ window)

/-- The memory says of the history what the window lets it say. -/
structure Remembers (window now : τ) (history : List (κ × τ)) (seen : Dict κ τ) : Prop where
  past : ∀ key stamp, (key, stamp) ∈ history → stamp ≤ now
  recorded : ∀ key stamp, seen.get? key = some stamp → (key, stamp) ∈ history
  kept : ∀ key stamp, (key, stamp) ∈ history → now - window ≤ stamp →
    ∃ last, seen.get? key = some last ∧ stamp ≤ last

variable {window now next : τ} {history : List (κ × τ)} {seen : Dict κ τ} {key : κ}

theorem Remembers.empty : Remembers window now [] (Dict.empty : Dict κ τ) where
  past := by
    intro key stamp h
    cases h
  recorded := by
    intro key stamp h
    cases h
  kept := by
    intro key stamp h
    cases h

theorem Remembers.prune (h : Remembers window now history seen) :
    Remembers window now history (prune window now seen) where
  past := h.past
  recorded := by
    intro key stamp hseen
    exact h.recorded key stamp (Dict.get?_filter_eq_some.mp hseen).1
  kept := by
    intro key stamp hmem hwithin
    obtain ⟨last, hlast, hle⟩ := h.kept key stamp hmem hwithin
    refine ⟨last, Dict.get?_filter_eq_some.mpr ⟨hlast, ?_⟩, hle⟩
    exact decide_eq_true (le_trans hwithin hle)

theorem Remembers.record (h : Remembers window now history seen) (key : κ) :
    Remembers window now (history ++ [(key, now)]) (record window now key seen) where
  past := by
    intro key' stamp hmem
    rcases List.mem_append.mp hmem with hmem | hmem
    · exact h.past key' stamp hmem
    · cases List.mem_singleton.mp hmem
      exact le_refl now
  recorded := by
    intro key' stamp hseen
    rcases Dict.mem_set hseen with ⟨rfl, rfl⟩ | hseen
    · exact List.mem_append_right _ (List.mem_singleton.mpr rfl)
    · exact List.mem_append_left _ (h.prune.recorded key' stamp hseen)
  kept := by
    intro key' stamp hmem hwithin
    by_cases hkey : key' = key
    · subst hkey
      refine ⟨now, Dict.get?_set_self _ _ _, ?_⟩
      rcases List.mem_append.mp hmem with hmem | hmem
      · exact h.past key' stamp hmem
      · cases List.mem_singleton.mp hmem
        exact le_refl now
    · rcases List.mem_append.mp hmem with hmem | hmem
      · obtain ⟨last, hlast, hle⟩ := h.prune.kept key' stamp hmem hwithin
        exact ⟨last, (Dict.get?_set_of_ne _ _ hkey).trans hlast, hle⟩
      · cases List.mem_singleton.mp hmem
        exact absurd rfl hkey

section Ordered

variable [IsOrderedAddMonoid τ]

/-- Time that goes by takes nothing from what is remembered. -/
theorem Remembers.later (h : Remembers window now history seen) (hle : now ≤ next) :
    Remembers window next history seen where
  past := by
    intro key stamp hmem
    exact le_trans (h.past key stamp hmem) hle
  recorded := h.recorded
  kept := by
    intro key stamp hmem hwithin
    exact h.kept key stamp hmem (le_trans (sub_le_sub_right hle window) hwithin)

/-- A look at the pruned memory finds exactly what was recorded within the window. -/
theorem Remembers.found_iff (h : Remembers window now history seen) :
    found window now key (Window.prune window now seen) = true ↔
      ∃ stamp, (key, stamp) ∈ history ∧ now - stamp ≤ window := by
  have hpruned := h.prune
  unfold found
  constructor
  · intro hfound
    cases hseen : (Window.prune window now seen).get? key with
    | none => simp [hseen] at hfound
    | some stamp =>
      rw [hseen] at hfound
      exact ⟨stamp, hpruned.recorded key stamp hseen, of_decide_eq_true hfound⟩
  · rintro ⟨stamp, hmem, hwithin⟩
    obtain ⟨last, hlast, hle⟩ := hpruned.kept key stamp hmem (sub_le_comm.mp hwithin)
    rw [hlast]
    exact decide_eq_true (le_trans (sub_le_sub_left hle now) hwithin)

end Ordered

end Window

import Mathlib.Algebra.Order.Ring.Defs
import Mathlib.Algebra.BigOperators.Group.List.Basic
import Mathlib.Data.List.Induction
import Mathlib.Tactic.Linarith

/-!
# A level that is filled up to a cap and drawn from one at a time

A draw first adds its gain, up to the cap, and then takes one if there is one. Two bounds hold of
every list of draws. What is taken is at most what was there and what was gained
(`taken_add_level_le`). A level is short only because it was taken: counted from the last draw that
found the level at the cap, nothing that was gained is lost (`Account`).
-/

namespace Bucket

variable {K : Type*} [CommRing K] [LinearOrder K]
variable {cap level gain : K} {gains : List K}

/-- The level a draw finds. -/
def full (cap level gain : K) : K := min cap (level + gain)

/-- Whether a draw takes one. -/
def takes (cap level gain : K) : Bool := decide (1 ≤ full cap level gain)

/-- The level a draw leaves. -/
def rest (cap level gain : K) : K :=
  if 1 ≤ full cap level gain then full cap level gain - 1 else full cap level gain

/-- How many of the draws take one. -/
def taken (cap level : K) : List K → Nat
  | [] => 0
  | gain :: gains =>
    (if takes cap level gain then 1 else 0) + taken cap (rest cap level gain) gains

/-- The level after all the draws. -/
def levelAfter (cap level : K) (gains : List K) : K := gains.foldl (rest cap) level

/-! ## One draw -/

theorem rest_eq : rest cap level gain =
    full cap level gain - ((if takes cap level gain then 1 else 0 : Nat) : K) := by
  unfold rest takes
  by_cases hone : 1 ≤ full cap level gain
  · simp [hone]
  · simp [hone]

theorem full_le_cap : full cap level gain ≤ cap := min_le_left _ _

theorem full_le_add : full cap level gain ≤ level + gain := min_le_right _ _

theorem taken_append {more : List K} :
    taken cap level (gains ++ more) =
      taken cap level gains + taken cap (levelAfter cap level gains) more := by
  induction gains generalizing level with
  | nil => exact (Nat.zero_add _).symm
  | cons gain gains ih =>
    simp only [List.cons_append, taken, levelAfter, List.foldl_cons]
    rw [ih, Nat.add_assoc]
    rfl

theorem levelAfter_append {more : List K} :
    levelAfter cap level (gains ++ more) = levelAfter cap (levelAfter cap level gains) more :=
  List.foldl_append

variable [IsStrictOrderedRing K]

/-! ## A run of draws -/

/-- What is taken and what is left was there or was gained. -/
theorem taken_add_level_le :
    (taken cap level gains : K) + levelAfter cap level gains ≤ level + gains.sum := by
  induction gains generalizing level with
  | nil => simp [taken, levelAfter]
  | cons gain gains ih =>
    have htail := @ih (rest cap level gain)
    have hstep : rest cap level gain =
        full cap level gain - ((if takes cap level gain then 1 else 0 : Nat) : K) := rest_eq
    have hfull : full cap level gain ≤ level + gain := full_le_add
    rw [taken, levelAfter, List.foldl_cons, List.sum_cons, Nat.cast_add]
    rw [levelAfter] at htail
    linarith

/-- The first draw of a run finds at most the cap, whatever it gains. -/
theorem taken_cons_add_level_le :
    (taken cap level (gain :: gains) : K) + levelAfter cap level (gain :: gains) ≤
      cap + gains.sum := by
  have htail : (taken cap (rest cap level gain) gains : K) +
      levelAfter cap (rest cap level gain) gains ≤ rest cap level gain + gains.sum :=
    taken_add_level_le
  have hstep : rest cap level gain =
      full cap level gain - ((if takes cap level gain then 1 else 0 : Nat) : K) := rest_eq
  have hfull : full cap level gain ≤ cap := full_le_cap
  rw [taken, levelAfter, List.foldl_cons, Nat.cast_add]
  rw [levelAfter] at htail
  linarith

/-! ## Counted from the last time the level was at the cap -/

/-- The draws end with a run that began at the cap and lost nothing: the level is the cap with the
gains after the first draw of the run, less what the run took. -/
def Account (cap level : K) (gains : List K) : Prop :=
  ∃ before gain later, gains = before ++ gain :: later ∧
    levelAfter cap level gains + taken cap (levelAfter cap level before) (gain :: later) =
      cap + later.sum

omit [IsStrictOrderedRing K] in
theorem Account.of_full {before : List K}
    (h : full cap (levelAfter cap level before) gain = cap) :
    Account cap level (before ++ [gain]) := by
  refine ⟨before, gain, [], rfl, ?_⟩
  rw [levelAfter_append, levelAfter, List.foldl_cons, List.foldl_nil, rest_eq, h, taken, taken,
    List.sum_nil, Nat.add_zero, sub_add_cancel, add_zero]

theorem Account.snoc (h : Account cap level gains)
    (hfull : full cap (levelAfter cap level gains) gain = levelAfter cap level gains + gain) :
    Account cap level (gains ++ [gain]) := by
  obtain ⟨before, first, later, hgains, heq⟩ := h
  refine ⟨before, first, later ++ [gain], by simp [hgains], ?_⟩
  have hlast : levelAfter cap (levelAfter cap level before) (first :: later) =
      levelAfter cap level gains := by rw [hgains, levelAfter_append]
  have htaken : taken cap (levelAfter cap level before) (first :: (later ++ [gain])) =
      taken cap (levelAfter cap level before) (first :: later) +
        (if takes cap (levelAfter cap level gains) gain then 1 else 0) := by
    have happend := @taken_append K _ _ cap (levelAfter cap level before) (first :: later) [gain]
    rw [hlast] at happend
    simpa only [List.cons_append, taken, Nat.add_zero] using happend
  have hlevel : levelAfter cap level (gains ++ [gain]) =
      rest cap (levelAfter cap level gains) gain := by
    rw [levelAfter_append, levelAfter, List.foldl_cons, List.foldl_nil]
  rw [htaken, hlevel, rest_eq, hfull, Nat.cast_add, List.sum_append, List.sum_singleton]
  linarith

/-- Every list of draws from the cap, none of which gains less than nothing, has an account. -/
theorem account (hgains : ∀ g ∈ gains, 0 ≤ g) (hne : gains ≠ []) : Account cap cap gains := by
  induction gains using List.reverseRecOn with
  | nil => exact absurd rfl hne
  | append_singleton gains gain ih =>
    by_cases hcap : cap ≤ levelAfter cap cap gains + gain
    · exact Account.of_full (min_eq_left hcap)
    · have hshort : full cap (levelAfter cap cap gains) gain = levelAfter cap cap gains + gain :=
        min_eq_right (le_of_not_ge hcap)
      have hmore : gains ≠ [] := by
        intro hnil
        have hgain : 0 ≤ gain := hgains gain (by simp)
        rw [hnil] at hcap
        exact hcap (by simpa [levelAfter] using hgain)
      have hbefore : Account cap cap gains :=
        ih (fun g hg => hgains g (by simp [hg])) hmore
      exact hbefore.snoc hshort

end Bucket

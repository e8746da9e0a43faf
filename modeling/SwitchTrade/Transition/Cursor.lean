import Mathlib.Data.List.Sort
import Mathlib.Data.List.Infix

/-!
# Reading a growing log by cursor

The rows of a log carry a key that only grows. A reader asks for the rows after the last key
it has seen, at most so many at a time, and keeps what it gets. `Keyed.page` says that a page
is exactly what comes next, however far the log has grown since the page before it; so what a
reader holds is always a beginning of the log (`Keyed.read_prefix`).
-/

namespace Transition

variable {α : Type*} (key : α → Nat)

/-- `ORDER BY key`. -/
def sortRows (rows : List α) : List α := rows.insertionSort fun a b => key a ≤ key b

/-- `WHERE key > after ORDER BY key LIMIT limit`. -/
def page (after limit : Nat) (rows : List α) : List α :=
  (sortRows key (rows.filter (after < key ·))).take limit

/-- The last key a reader has seen; keys start above `0`. -/
def cursor (seen : List α) : Nat := (seen.getLast?.map key).getD 0

/-- A log: every row is appended with a larger key than the rows before it. -/
structure Keyed (rows : List α) : Prop where
  positive : ∀ r ∈ rows, 0 < key r
  increasing : rows.Pairwise (key · < key ·)

namespace Keyed

variable {key} {rows seen rest : List α}

theorem nil : Keyed key ([] : List α) := ⟨fun _ hr => (List.not_mem_nil hr).elim, .nil⟩

theorem sublist {rows' : List α} (h : Keyed key rows) (hsub : rows'.Sublist rows) :
    Keyed key rows' :=
  ⟨fun r hr => h.positive r (hsub.subset hr), h.increasing.sublist hsub⟩

theorem append {row : α} (h : Keyed key rows) (positive : 0 < key row)
    (later : ∀ r ∈ rows, key r < key row) : Keyed key (rows ++ [row]) := by
  refine ⟨fun r hr => ?_, List.pairwise_append.mpr ⟨h.increasing, .cons (by simp) .nil, ?_⟩⟩
  · rcases List.mem_append.mp hr with hr | hr
    · exact h.positive r hr
    · rw [List.mem_singleton.mp hr]
      exact positive
  · intro r hr last hlast
    rw [List.mem_singleton.mp hlast]
    exact later r hr

/-- A log is in the order of its keys already. -/
theorem sortRows_eq (h : Keyed key rows) : sortRows key rows = rows :=
  List.Pairwise.insertionSort_eq (h.increasing.imp Nat.le_of_lt)

theorem le_cursor (h : Keyed key seen) {r : α} (hr : r ∈ seen) : key r ≤ cursor key seen := by
  obtain ⟨front, last, rfl⟩ : ∃ front last, seen = front ++ [last] :=
    ⟨_, _, (List.dropLast_append_getLast (List.ne_nil_of_mem hr)).symm⟩
  have hlast : cursor key (front ++ [last]) = key last := by simp [cursor]
  rw [hlast]
  rcases List.mem_append.mp hr with hr | hr
  · exact ((List.pairwise_append.mp h.increasing).2.2 r hr last (List.mem_singleton_self last)).le
  · rw [List.mem_singleton.mp hr]

theorem cursor_lt (h : Keyed key (seen ++ rest)) {r : α} (hr : r ∈ rest) :
    cursor key seen < key r := by
  cases hlast : seen.getLast? with
  | none =>
    simp only [cursor, hlast, Option.map_none, Option.getD_none]
    exact h.positive r (List.mem_append_right _ hr)
  | some last =>
    simp only [cursor, hlast, Option.map_some, Option.getD_some]
    exact (List.pairwise_append.mp h.increasing).2.2 last (List.mem_of_getLast? hlast) r hr

/-- The page after what was seen is what comes next. -/
theorem page (h : Keyed key (seen ++ rest)) (limit : Nat) :
    page key (cursor key seen) limit (seen ++ rest) = rest.take limit := by
  have hseen : Keyed key seen := h.sublist (List.sublist_append_left seen rest)
  have hold : seen.filter (cursor key seen < key ·) = [] := by
    rw [List.filter_eq_nil_iff]
    intro r hr
    have := hseen.le_cursor hr
    simpa using this
  have hnew : rest.filter (cursor key seen < key ·) = rest := by
    rw [List.filter_eq_self]
    intro r hr
    exact decide_eq_true (h.cursor_lt hr)
  have hrest : Keyed key rest := h.sublist (List.sublist_append_right seen rest)
  rw [Transition.page, List.filter_append, hold, hnew, List.nil_append, hrest.sortRows_eq]

/-- A reader that keeps a beginning of the log still keeps one after the next page, and
the page is empty only when nothing is left to read. -/
theorem read_prefix (h : Keyed key rows) (hseen : seen <+: rows) {limit : Nat} (some : 0 < limit) :
    seen ++ Transition.page key (cursor key seen) limit rows <+: rows ∧
      (Transition.page key (cursor key seen) limit rows = [] → seen = rows) := by
  obtain ⟨rest, rfl⟩ := hseen
  rw [h.page limit]
  refine ⟨List.prefix_append_right_inj seen |>.mpr (List.take_prefix limit rest), fun hnone => ?_⟩
  have hlength := congrArg List.length hnone
  rw [List.length_take, List.length_nil] at hlength
  have hrest : rest = [] := List.length_eq_zero_iff.mp (by omega)
  rw [hrest, List.append_nil]

end Keyed

end Transition

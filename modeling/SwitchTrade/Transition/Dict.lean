import Mathlib.Data.List.Sort

/-!
# Dictionaries that remember their insertion order

A Python `dict`: keys are distinct, a new key goes to the end, a key that is set again
keeps its place, and `next(iter(d))` is the oldest key. The rules say what a lookup finds
after an insertion, after the oldest keys were dropped, and after the items were sorted by
their keys.
-/

universe u v

/-- A dictionary as the list of its items, oldest first. -/
structure Dict (κ : Type u) (α : Type v) where
  items : List (κ × α)
  nodup : (items.map Prod.fst).Nodup

namespace Dict

variable {κ : Type u} {α : Type v}

def empty : Dict κ α := ⟨[], List.nodup_nil⟩

/-- Dropping the oldest items until `n` are left. -/
def keep (d : Dict κ α) (n : Nat) : Dict κ α where
  items := d.items.drop (d.items.length - n)
  nodup := by
    rw [List.map_drop]
    exact d.nodup.sublist (List.drop_sublist _ _)

/-- The items in the order of their keys, as a file with sorted keys gives them back. -/
def sorted [LE κ] [DecidableLE κ] (d : Dict κ α) : Dict κ α where
  items := d.items.insertionSort fun a b => a.1 ≤ b.1
  nodup := by
    have hperm := (List.perm_insertionSort (fun a b : κ × α => a.1 ≤ b.1) d.items).map Prod.fst
    exact hperm.nodup_iff.mpr d.nodup

variable [DecidableEq κ]

def get? (d : Dict κ α) (k : κ) : Option α := (d.items.find? fun p => p.1 = k).map Prod.snd

/-- The list with the value of `k` replaced where `k` is a key. -/
def replace (k : κ) (v : α) (items : List (κ × α)) : List (κ × α) :=
  items.map fun p => if p.1 = k then (k, v) else p

theorem replace_keys (k : κ) (v : α) (items : List (κ × α)) :
    (replace k v items).map Prod.fst = items.map Prod.fst := by
  rw [replace, List.map_map]
  apply List.map_congr_left
  intro p _
  by_cases hk : p.1 = k
  · simp [hk]
  · simp [hk]

/-- `d[k] = v`. -/
def set (d : Dict κ α) (k : κ) (v : α) : Dict κ α :=
  if h : k ∈ d.items.map Prod.fst then ⟨replace k v d.items, by rw [replace_keys]; exact d.nodup⟩
  else
    { items := d.items ++ [(k, v)]
      nodup := by
        rw [List.map_append, List.nodup_append]
        refine ⟨d.nodup, List.nodup_singleton _, ?_⟩
        intro a ha b hb hab
        have hk : a = k := hab.trans (List.mem_singleton.mp hb)
        exact h (hk ▸ ha) }

/-! ## What a lookup finds -/

/-- With distinct keys a lookup finds the item, wherever it stands. -/
theorem get?_eq_some {d : Dict κ α} {k : κ} {v : α} :
    d.get? k = some v ↔ (k, v) ∈ d.items := by
  obtain ⟨items, hn⟩ := d
  show (items.find? fun p => p.1 = k).map Prod.snd = some v ↔ (k, v) ∈ items
  induction items with
  | nil => simp
  | cons p items ih =>
    rw [List.map_cons, List.nodup_cons] at hn
    by_cases hk : p.1 = k
    · rw [List.find?_cons_of_pos (by simpa using hk)]
      constructor
      · intro h
        cases h
        subst hk
        exact List.mem_cons_self
      · intro h
        rcases List.mem_cons.mp h with rfl | h
        · rfl
        · have hmem : k ∈ items.map Prod.fst := List.mem_map_of_mem (f := Prod.fst) h
          rw [← hk] at hmem
          exact absurd hmem hn.1
    · rw [List.find?_cons_of_neg (by simpa using hk), ih hn.2, List.mem_cons]
      constructor
      · exact .inr
      · rintro (rfl | h)
        · exact absurd rfl hk
        · exact h

theorem get?_eq_none {d : Dict κ α} {k : κ} :
    d.get? k = none ↔ k ∉ d.items.map Prod.fst := by
  rw [Option.eq_none_iff_forall_ne_some]
  constructor
  · intro h hk
    obtain ⟨p, hp, rfl⟩ := List.mem_map.mp hk
    exact h p.2 (get?_eq_some.mpr hp)
  · intro h v hv
    exact h (List.mem_map_of_mem (f := Prod.fst) (get?_eq_some.mp hv))

theorem mem_set {d : Dict κ α} {k k' : κ} {v v' : α} :
    (d.set k v).get? k' = some v' → (k' = k ∧ v' = v) ∨ d.get? k' = some v' := by
  rw [get?_eq_some, get?_eq_some]
  unfold set
  split
  · intro h
    obtain ⟨p, hp, hpk⟩ := List.mem_map.mp h
    by_cases hk : p.1 = k
    · rw [if_pos hk] at hpk
      cases hpk
      exact .inl ⟨rfl, rfl⟩
    · rw [if_neg hk] at hpk
      rw [hpk] at hp
      exact .inr hp
  · intro h
    rcases List.mem_append.mp h with h | h
    · exact .inr h
    · cases List.mem_singleton.mp h
      exact .inl ⟨rfl, rfl⟩

/-- What is found among the newest items is found among all. -/
theorem mem_keep {d : Dict κ α} {n : Nat} {k : κ} {v : α} (h : (d.keep n).get? k = some v) :
    d.get? k = some v := by
  rw [get?_eq_some] at h ⊢
  exact List.mem_of_mem_drop h

theorem set_of_none {d : Dict κ α} {k : κ} {v : α} (h : d.get? k = none) :
    (d.set k v).items = d.items ++ [(k, v)] := by
  unfold set
  rw [dif_neg (get?_eq_none.mp h)]

/-- Setting the newest key again leaves it the newest. -/
theorem set_of_last {d : Dict κ α} {k : κ} {v v' : α} {older : List (κ × α)}
    (h : d.items = older ++ [(k, v')]) : (d.set k v).items = older ++ [(k, v)] := by
  have hn := d.nodup
  rw [h, List.map_append, List.nodup_append] at hn
  obtain ⟨-, -, hne⟩ := hn
  have hmem : k ∈ d.items.map Prod.fst := by
    rw [h]
    simp
  unfold set
  rw [dif_pos hmem]
  show replace k v d.items = older ++ [(k, v)]
  rw [h, replace, List.map_append]
  congr 1
  · rw [List.map_congr_left (g := id), List.map_id]
    intro p hp
    rw [if_neg]
    · rfl
    · intro hk
      exact hne _ (List.mem_map_of_mem (f := Prod.fst) hp) k (List.mem_singleton.mpr rfl) hk
  · simp

omit [DecidableEq κ] in
theorem keep_last {d : Dict κ α} {n : Nat} (hn : 0 < n) {older : List (κ × α)} {p : κ × α}
    (h : d.items = older ++ [p]) : ∃ kept, (d.keep n).items = kept ++ [p] := by
  refine ⟨older.drop ((older ++ [p]).length - n), ?_⟩
  show d.items.drop (d.items.length - n) = _
  rw [h]
  apply List.drop_append_of_le_length
  rw [List.length_append]
  show older.length + 1 - n ≤ older.length
  omega

/-- The key is new, or it is the newest one. -/
def Settable (d : Dict κ α) (k : κ) : Prop :=
  d.get? k = none ∨ ∃ older v, d.items = older ++ [(k, v)]

theorem keep_set {d : Dict κ α} {k : κ} {v : α} {n : Nat} (hn : 0 < n) (h : d.Settable k) :
    ∃ older, ((d.set k v).keep n).items = older ++ [(k, v)] := by
  rcases h with h | ⟨older, v', h⟩
  · exact keep_last hn (set_of_none h)
  · exact keep_last hn (set_of_last h)

/-- Dropping the oldest items does not drop the one just set. -/
theorem get?_keep_set {d : Dict κ α} {k : κ} {v : α} {n : Nat} (hn : 0 < n)
    (h : d.Settable k) : ((d.set k v).keep n).get? k = some v := by
  obtain ⟨older, hitems⟩ := keep_set (v := v) hn h
  rw [get?_eq_some, hitems]
  exact List.mem_append_right _ (List.mem_singleton.mpr rfl)

@[simp] theorem get?_sorted [LE κ] [DecidableLE κ] {d : Dict κ α} {k : κ} :
    d.sorted.get? k = d.get? k := by
  apply Option.ext
  intro v
  rw [get?_eq_some, get?_eq_some]
  exact (List.perm_insertionSort _ d.items).mem_iff

/-! ## Entries that are taken out or rewritten -/

omit [DecidableEq κ] in
/-- The keys, oldest first. -/
def keys (d : Dict κ α) : List κ := d.items.map Prod.fst

/-- `del d[k]`. -/
def erase (d : Dict κ α) (k : κ) : Dict κ α where
  items := d.items.filter fun p => p.1 ≠ k
  nodup := d.nodup.sublist (List.filter_sublist.map Prod.fst)

omit [DecidableEq κ] in
/-- Every value rewritten in its place. -/
def mapValues (d : Dict κ α) (f : κ → α → α) : Dict κ α where
  items := d.items.map fun p => (p.1, f p.1 p.2)
  nodup := by
    rw [List.map_map]
    exact d.nodup

omit [DecidableEq κ] in
/-- The items for which `p` holds, in their order. -/
def filter (d : Dict κ α) (p : κ → α → Bool) : Dict κ α where
  items := d.items.filter fun item => p item.1 item.2
  nodup := d.nodup.sublist (List.filter_sublist.map Prod.fst)

theorem get?_filter_eq_some {d : Dict κ α} {p : κ → α → Bool} {k : κ} {v : α} :
    (d.filter p).get? k = some v ↔ d.get? k = some v ∧ p k v := by
  rw [get?_eq_some, get?_eq_some]
  exact List.mem_filter

@[simp] theorem get?_empty (k : κ) : (empty : Dict κ α).get? k = none := rfl

theorem get?_isSome {d : Dict κ α} {k : κ} : (d.get? k).isSome ↔ k ∈ d.keys := by
  rw [keys, ← not_iff_not, ← get?_eq_none, Option.not_isSome_iff_eq_none]

theorem get?_set_self (d : Dict κ α) (k : κ) (v : α) : (d.set k v).get? k = some v := by
  rw [get?_eq_some]
  by_cases hk : k ∈ d.items.map Prod.fst
  · obtain ⟨p, hp, hpk⟩ := List.mem_map.mp hk
    rw [set, dif_pos hk]
    exact List.mem_map.mpr ⟨p, hp, if_pos hpk⟩
  · rw [set, dif_neg hk]
    exact List.mem_append_right _ (List.mem_singleton.mpr rfl)

theorem get?_set_of_ne (d : Dict κ α) {k k' : κ} (v : α) (hne : k' ≠ k) :
    (d.set k v).get? k' = d.get? k' := by
  apply Option.ext
  intro v'
  constructor
  · intro h
    rcases mem_set h with ⟨hk, -⟩ | h
    · exact absurd hk hne
    · exact h
  · intro h
    rw [get?_eq_some] at h ⊢
    by_cases hk : k ∈ d.items.map Prod.fst
    · rw [set, dif_pos hk]
      exact List.mem_map.mpr ⟨_, h, if_neg hne⟩
    · rw [set, dif_neg hk]
      exact List.mem_append_left _ h

theorem get?_erase_self (d : Dict κ α) (k : κ) : (d.erase k).get? k = none := by
  rw [get?_eq_none]
  intro h
  obtain ⟨p, hp, hpk⟩ := List.mem_map.mp h
  have hne := (List.mem_filter.mp hp).2
  exact absurd hpk (by simpa using hne)

theorem get?_erase_of_ne (d : Dict κ α) {k k' : κ} (hne : k' ≠ k) :
    (d.erase k).get? k' = d.get? k' := by
  apply Option.ext
  intro v
  rw [get?_eq_some, get?_eq_some]
  show (k', v) ∈ d.items.filter _ ↔ _
  rw [List.mem_filter]
  simp [hne]

theorem get?_mapValues (d : Dict κ α) (f : κ → α → α) (k : κ) :
    (d.mapValues f).get? k = (d.get? k).map (f k) := by
  apply Option.ext
  intro v
  rw [get?_eq_some, Option.map_eq_some_iff]
  constructor
  · intro h
    obtain ⟨p, hp, hpk⟩ := List.mem_map.mp h
    cases hpk
    exact ⟨p.2, get?_eq_some.mpr hp, rfl⟩
  · rintro ⟨v', hv', rfl⟩
    exact List.mem_map.mpr ⟨_, get?_eq_some.mp hv', rfl⟩

omit [DecidableEq κ] in
@[simp] theorem keys_mapValues (d : Dict κ α) (f : κ → α → α) :
    (d.mapValues f).keys = d.keys := by
  rw [keys, keys]
  show (d.items.map _).map Prod.fst = _
  rw [List.map_map]
  rfl

/-- A new key goes to the end. -/
theorem keys_set_of_none {d : Dict κ α} {k : κ} {v : α} (h : d.get? k = none) :
    (d.set k v).keys = d.keys ++ [k] := by
  rw [keys, set_of_none h, List.map_append]
  rfl

/-- A key that is set again keeps its place. -/
theorem keys_set_of_some {d : Dict κ α} {k : κ} {v v' : α} (h : d.get? k = some v') :
    (d.set k v).keys = d.keys := by
  have hk : k ∈ d.items.map Prod.fst := get?_isSome.mp (by rw [h]; rfl)
  rw [keys, set, dif_pos hk]
  exact replace_keys k v d.items

theorem length_erase_lt {d : Dict κ α} {k : κ} {v : α} (h : d.get? k = some v) :
    (d.erase k).items.length < d.items.length := by
  apply List.length_filter_lt_length_iff_exists.mpr
  exact ⟨(k, v), get?_eq_some.mp h, by simp⟩

/-- Deleting the oldest key leaves the others in their order. -/
theorem keys_erase_of_head {d : Dict κ α} {k : κ} {younger : List κ}
    (h : d.keys = k :: younger) : (d.erase k).keys = younger := by
  have hn := d.nodup
  rw [← keys, h, List.nodup_cons] at hn
  have hfilter : (d.erase k).keys = d.keys.filter fun k' => k' ≠ k := by
    rw [keys, keys, List.filter_map]
    rfl
  rw [hfilter, h, List.filter_cons_of_neg (by simp), List.filter_eq_self]
  intro k' hk'
  have hne : k' ≠ k := by
    rintro rfl
    exact hn.1 hk'
  simpa using hne

end Dict

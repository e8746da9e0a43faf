import Mathlib.Data.List.Chain
import Mathlib.Data.List.Infix
import Mathlib.Tactic.Common

/-!
# Regular expressions that are tried in order

The matches of an expression at a place, in the order in which a backtracking matcher tries them,
and the text after each leftmost first match was replaced. Stars and options are of single
characters and greedy. The letters of a text are of any type that has a character, so that they may
carry marks, which the matcher does not see (`sub_map`).

A text stays as it is where no match can be: because it is too short (`sub_of_short`), or because
every match contains a pair of neighbours that the text does not have (`sub_of_free`).
-/

universe u v

inductive Regex
  | eps
  | chr (p : Char → Bool)
  | boundary
  | seq (r s : Regex)
  | alt (r s : Regex)
  | star (p : Char → Bool)
  | opt (p : Char → Bool)
  | group (r : Regex)

namespace Regex

/-- A match: what it takes and its group. -/
structure Hit (α : Type u) where
  taken : List α
  group : Option (List α)
  deriving DecidableEq, Repr

/-- `p+`. -/
def plus (p : Char → Bool) : Regex := seq (chr p) (star p)

/-- The characters one after the other, each as `same` reads it. -/
def lits (same : Char → Char → Bool) : List Char → Regex
  | [] => eps
  | c :: cs => seq (chr (same c)) (lits same cs)

def times : Nat → Regex → Regex
  | 0, _ => eps
  | n + 1, r => seq r (times n r)

variable {α : Type u} {β : Type v} (ch : α → Char) (word : Char → Bool)

/-- A word begins or ends between the two characters. -/
def atBoundary (before after : Option Char) : Bool := before.any word != after.any word

/-- The character before what comes after the letters. -/
def lastOf (before : Option Char) (taken : List α) : Option Char :=
  match taken.getLast? with
  | none => before
  | some a => some (ch a)

/-- The matches at the head of the text, the first choice first. -/
def run : Regex → Option Char → List α → List (Hit α)
  | eps, _, _ => [⟨[], none⟩]
  | chr p, _, text =>
    match text with
    | [] => []
    | a :: _ => if p (ch a) then [⟨[a], none⟩] else []
  | boundary, before, text =>
    if atBoundary word before (text.head?.map ch) then [⟨[], none⟩] else []
  | seq r s, before, text =>
    (run r before text).flatMap fun hit =>
      (run s (lastOf ch before hit.taken) (text.drop hit.taken.length)).map fun more =>
        ⟨hit.taken ++ more.taken, more.group.or hit.group⟩
  | alt r s, before, text => run r before text ++ run s before text
  | star p, _, text =>
    let most := text.takeWhile fun a => p (ch a)
    (List.range (most.length + 1)).reverse.map fun k => ⟨most.take k, none⟩
  | opt p, _, text =>
    match text with
    | [] => [⟨[], none⟩]
    | a :: _ => if p (ch a) then [⟨[a], none⟩, ⟨[], none⟩] else [⟨[], none⟩]
  | group r, before, text => (run r before text).map fun hit => ⟨hit.taken, some hit.taken⟩

/-- What a match is replaced by: its group, where the template begins with it, and a text. -/
def expand (keep : Bool) (text : List α) (group : Option (List α)) : List α :=
  (if keep then group.getD [] else []) ++ text

/-- The scan of a text for leftmost matches, none of which is empty. -/
def subFrom (r : Regex) (keep : Bool) (lit : List α) : Nat → Option Char → List α → List α
  | 0, _, text => text
  | _ + 1, _, [] => []
  | left + 1, before, a :: rest =>
    match (run ch word r before (a :: rest)).head? with
    | none => a :: subFrom r keep lit left (some (ch a)) rest
    | some hit =>
      expand keep lit hit.group ++
        subFrom r keep lit left (lastOf ch before hit.taken) ((a :: rest).drop hit.taken.length)

/-- `pattern.sub`. -/
def sub (r : Regex) (keep : Bool) (lit : List α) (text : List α) : List α :=
  subFrom ch word r keep lit text.length none text

variable {ch word} {r s : Regex} {before : Option Char} {text lit : List α} {hit : Hit α}
  {keep : Bool} {left : Nat}

/-! ## What a match takes -/

/-- A match in sequence is a match of each, one after the other. -/
theorem mem_run_seq (h : hit ∈ run ch word (seq r s) before text) :
    ∃ first ∈ run ch word r before text,
      ∃ more ∈ run ch word s (lastOf ch before first.taken) (text.drop first.taken.length),
        hit = ⟨first.taken ++ more.taken, more.group.or first.group⟩ := by
  rw [run, List.mem_flatMap] at h
  obtain ⟨first, hfirst, h⟩ := h
  obtain ⟨more, hmore, rfl⟩ := List.mem_map.mp h
  exact ⟨first, hfirst, more, hmore, rfl⟩

theorem mem_run_chr {p : Char → Bool} (h : hit ∈ run ch word (chr p) before text) :
    ∃ a rest, text = a :: rest ∧ p (ch a) = true ∧ hit = ⟨[a], none⟩ := by
  cases text with
  | nil => cases h
  | cons a rest =>
    rw [run] at h
    by_cases hp : p (ch a) = true
    · rw [if_pos hp] at h
      exact ⟨a, rest, rfl, hp, List.mem_singleton.mp h⟩
    · rw [if_neg hp] at h
      cases h

theorem prefix_taken (h : hit ∈ run ch word r before text) : hit.taken <+: text := by
  induction r generalizing before text hit with
  | eps =>
    cases List.mem_singleton.mp h
    exact List.nil_prefix
  | chr p =>
    obtain ⟨a, rest, rfl, -, rfl⟩ := mem_run_chr h
    exact ⟨rest, rfl⟩
  | boundary =>
    rw [run] at h
    split at h
    · cases List.mem_singleton.mp h
      exact List.nil_prefix
    · cases h
  | seq r s ihr ihs =>
    obtain ⟨first, hfirst, more, hmore, rfl⟩ := mem_run_seq h
    obtain ⟨rest, hrest⟩ := ihr hfirst
    have hdrop : text.drop first.taken.length = rest := by rw [← hrest, List.drop_left]
    obtain ⟨rest', hrest'⟩ := ihs hmore
    exact ⟨rest', by rw [List.append_assoc, hrest', hdrop, hrest]⟩
  | alt r s ihr ihs =>
    rcases List.mem_append.mp h with h | h
    · exact ihr h
    · exact ihs h
  | star p =>
    obtain ⟨k, -, rfl⟩ := List.mem_map.mp h
    exact (List.take_prefix _ _).trans (List.takeWhile_prefix _)
  | opt p =>
    cases text with
    | nil =>
      cases List.mem_singleton.mp h
      exact List.nil_prefix
    | cons a rest =>
      rw [run] at h
      split at h
      · rcases List.mem_cons.mp h with rfl | h
        · exact ⟨rest, rfl⟩
        · cases List.mem_singleton.mp h
          exact List.nil_prefix
      · cases List.mem_singleton.mp h
        exact List.nil_prefix
  | group r ih =>
    obtain ⟨inner, hinner, rfl⟩ := List.mem_map.mp h
    have hprefix := ih hinner
    exact hprefix

/-- The group is part of what is taken. -/
theorem group_subset {g : List α} (h : hit ∈ run ch word r before text) (hg : hit.group = some g) :
    g ⊆ text := by
  induction r generalizing before text hit with
  | eps =>
    cases List.mem_singleton.mp h
    cases hg
  | chr p =>
    obtain ⟨a, rest, rfl, -, rfl⟩ := mem_run_chr h
    cases hg
  | boundary =>
    rw [run] at h
    split at h
    · cases List.mem_singleton.mp h
      cases hg
    · cases h
  | seq r s ihr ihs =>
    obtain ⟨first, hfirst, more, hmore, rfl⟩ := mem_run_seq h
    rcases Option.or_eq_some_iff.mp hg with hg | ⟨-, hg⟩
    · intro a ha
      exact List.drop_subset _ _ (ihs hmore hg ha)
    · exact ihr hfirst hg
  | alt r s ihr ihs =>
    rcases List.mem_append.mp h with h | h
    · exact ihr h hg
    · exact ihs h hg
  | star p =>
    obtain ⟨k, -, rfl⟩ := List.mem_map.mp h
    cases hg
  | opt p =>
    cases text with
    | nil =>
      cases List.mem_singleton.mp h
      cases hg
    | cons a rest =>
      rw [run] at h
      split at h
      · rcases List.mem_cons.mp h with rfl | h
        · cases hg
        · cases List.mem_singleton.mp h
          cases hg
      · cases List.mem_singleton.mp h
        cases hg
  | group r ih =>
    obtain ⟨inner, hinner, rfl⟩ := List.mem_map.mp h
    cases hg
    exact (prefix_taken hinner).subset

/-! ## Texts without a match -/

/-- A text none of whose ends has a match stays. -/
theorem subFrom_of_none (h : ∀ before rest, rest <:+ text → run ch word r before rest = []) :
    subFrom ch word r keep lit left before text = text := by
  induction left generalizing before text with
  | zero => rfl
  | succ left ih =>
    cases text with
    | nil => rfl
    | cons a rest =>
      have hrest : ∀ before ending, ending <:+ rest → run ch word r before ending = [] := by
        intro before ending hending
        exact h before ending (hending.trans (List.suffix_cons a rest))
      rw [subFrom, h before (a :: rest) (List.suffix_refl _)]
      show a :: subFrom ch word r keep lit left (some (ch a)) rest = a :: rest
      rw [ih hrest]

theorem sub_of_none (h : ∀ before rest, rest <:+ text → run ch word r before rest = []) :
    sub ch word r keep lit text = text :=
  subFrom_of_none h

/-- The least length of a match. -/
def minLen : Regex → Nat
  | eps => 0
  | chr _ => 1
  | boundary => 0
  | seq r s => minLen r + minLen s
  | alt r s => min (minLen r) (minLen s)
  | star _ => 0
  | opt _ => 0
  | group r => minLen r

theorem minLen_le (h : hit ∈ run ch word r before text) : minLen r ≤ hit.taken.length := by
  induction r generalizing before text hit with
  | eps => exact Nat.zero_le _
  | chr p =>
    obtain ⟨a, rest, rfl, -, rfl⟩ := mem_run_chr h
    exact Nat.le_refl 1
  | boundary => exact Nat.zero_le _
  | seq r s ihr ihs =>
    obtain ⟨first, hfirst, more, hmore, rfl⟩ := mem_run_seq h
    have hr := ihr hfirst
    have hs := ihs hmore
    rw [minLen, List.length_append]
    omega
  | alt r s ihr ihs =>
    rw [minLen]
    rcases List.mem_append.mp h with h | h
    · exact Nat.le_trans (Nat.min_le_left _ _) (ihr h)
    · exact Nat.le_trans (Nat.min_le_right _ _) (ihs h)
  | star p => exact Nat.zero_le _
  | opt p => exact Nat.zero_le _
  | group r ih =>
    obtain ⟨inner, hinner, rfl⟩ := List.mem_map.mp h
    have hmin := ih hinner
    exact hmin

theorem sub_of_short (h : text.length < minLen r) : sub ch word r keep lit text = text := by
  apply sub_of_none
  intro before rest hrest
  rw [List.eq_nil_iff_forall_not_mem]
  intro hit hhit
  have hmin := minLen_le hhit
  have htaken := (prefix_taken hhit).length_le
  have hlen := hrest.length_le
  omega

/-- Every match has two neighbours that `bad` relates. -/
def Shows (ch : α → Char) (word : Char → Bool) (bad : Char → Char → Prop) (r : Regex) : Prop :=
  ∀ before (text : List α), ∀ hit ∈ run ch word r before text,
    ∃ a b, [a, b] <:+: hit.taken ∧ bad (ch a) (ch b)

variable {bad : Char → Char → Prop}

theorem Shows.seq_left (h : Shows ch word bad r) : Shows ch word bad (seq r s) := by
  intro before text hit hhit
  obtain ⟨first, hfirst, more, -, rfl⟩ := mem_run_seq hhit
  obtain ⟨a, b, hin, hbad⟩ := h before text first hfirst
  exact ⟨a, b, hin.trans (List.prefix_append _ _).isInfix, hbad⟩

theorem Shows.seq_right (h : Shows ch word bad s) : Shows ch word bad (seq r s) := by
  intro before text hit hhit
  obtain ⟨first, -, more, hmore, rfl⟩ := mem_run_seq hhit
  obtain ⟨a, b, hin, hbad⟩ := h _ _ more hmore
  exact ⟨a, b, hin.trans (List.suffix_append _ _).isInfix, hbad⟩

theorem Shows.alt (hr : Shows ch word bad r) (hs : Shows ch word bad s) :
    Shows ch word bad (alt r s) := by
  intro before text hit hhit
  rcases List.mem_append.mp hhit with hhit | hhit
  · exact hr before text hit hhit
  · exact hs before text hit hhit

theorem Shows.group (h : Shows ch word bad r) : Shows ch word bad (group r) := by
  intro before text hit hhit
  obtain ⟨inner, hinner, rfl⟩ := List.mem_map.mp hhit
  exact h before text inner hinner

/-- Two characters next to each other at the head of the expression. -/
theorem shows_pair {p q : Char → Bool} (h : ∀ c d, p c = true → q d = true → bad c d) :
    Shows ch word bad (seq (chr p) (seq (chr q) r)) := by
  intro before text hit hhit
  obtain ⟨first, hfirst, more, hmore, rfl⟩ := mem_run_seq hhit
  obtain ⟨a, rest, -, hp, rfl⟩ := mem_run_chr hfirst
  obtain ⟨second, hsecond, last, -, rfl⟩ := mem_run_seq hmore
  obtain ⟨b, rest', -, hq, rfl⟩ := mem_run_chr hsecond
  exact ⟨a, b, ⟨[], last.taken, rfl⟩, h _ _ hp hq⟩

/-- A text without such neighbours has no match and stays. -/
theorem sub_of_free (hr : Shows ch word bad r)
    (h : text.IsChain fun a b => ¬ bad (ch a) (ch b)) : sub ch word r keep lit text = text := by
  apply sub_of_none
  intro before rest hrest
  rw [List.eq_nil_iff_forall_not_mem]
  intro hit hhit
  obtain ⟨a, b, hin, hbad⟩ := hr before rest hit hhit
  have hpair : [a, b] <:+: text :=
    (hin.trans (prefix_taken hhit).isInfix).trans hrest.isInfix
  have hfree := h.infix hpair
  rw [List.isChain_pair] at hfree
  exact hfree hbad

/-! ## Letters -/

/-- A letter of the result is one of the text or of the template. -/
theorem mem_subFrom {a : α} (h : a ∈ subFrom ch word r keep lit left before text) :
    a ∈ text ∨ a ∈ lit := by
  induction left generalizing before text with
  | zero => exact .inl h
  | succ left ih =>
    cases text with
    | nil => exact .inl h
    | cons first rest =>
      rw [subFrom] at h
      cases hhead : (run ch word r before (first :: rest)).head? with
      | none =>
        rw [hhead] at h
        rcases List.mem_cons.mp h with rfl | h
        · exact .inl List.mem_cons_self
        · exact (ih h).imp_left (List.mem_cons_of_mem first)
      | some hit =>
        rw [hhead] at h
        have hhit : hit ∈ run ch word r before (first :: rest) := List.mem_of_mem_head? hhead
        rcases List.mem_append.mp h with h | h
        · rcases List.mem_append.mp h with h | h
          · left
            cases keep with
            | false => cases h
            | true =>
              cases hg : hit.group with
              | none =>
                rw [hg] at h
                cases h
              | some g =>
                rw [hg] at h
                exact group_subset hhit hg h
          · exact .inr h
        · exact (ih h).imp_left fun hmem => List.drop_subset _ _ hmem

theorem mem_sub {a : α} (h : a ∈ sub ch word r keep lit text) : a ∈ text ∨ a ∈ lit :=
  mem_subFrom h

section Marks

variable {f : α → β} {chβ : β → Char}

def Hit.map (f : α → β) (hit : Hit α) : Hit β := ⟨hit.taken.map f, hit.group.map (List.map f)⟩

theorem lastOf_map (hf : ∀ a, chβ (f a) = ch a) (taken : List α) :
    lastOf chβ before (taken.map f) = lastOf ch before taken := by
  unfold lastOf
  rw [List.getLast?_map]
  cases taken.getLast? with
  | none => rfl
  | some a => exact congrArg some (hf a)

/-- The matcher sees the characters only. -/
theorem run_map (hf : ∀ a, chβ (f a) = ch a) :
    run chβ word r before (text.map f) = (run ch word r before text).map (Hit.map f) := by
  induction r generalizing before text with
  | eps => rfl
  | chr p =>
    cases text with
    | nil => rfl
    | cons a rest =>
      rw [List.map_cons, run, run, hf a]
      split <;> rfl
  | boundary =>
    have hhead : (text.map f).head?.map chβ = text.head?.map ch := by
      cases text with
      | nil => rfl
      | cons a rest => exact congrArg some (hf a)
    rw [run, run, hhead]
    split <;> rfl
  | seq r s ihr ihs =>
    rw [run, run, ihr, List.flatMap_map, List.map_flatMap]
    apply List.flatMap_congr
    intro hit _
    have hdrop : (text.map f).drop (hit.map f).taken.length =
        (text.drop hit.taken.length).map f := by
      rw [Hit.map, List.length_map, List.map_drop]
    rw [hdrop, Hit.map, lastOf_map hf, ihs, List.map_map, List.map_map]
    apply List.map_congr_left
    intro more _
    show Hit.mk _ _ = Hit.mk _ _
    rw [Hit.map, List.map_append]
    congr 1
    show (more.group.map (List.map f)).or (hit.group.map (List.map f)) =
      (more.group.or hit.group).map (List.map f)
    cases more.group with
    | none => rfl
    | some g => rfl
  | alt r s ihr ihs => rw [run, run, ihr, ihs, List.map_append]
  | star p =>
    have hwhile : (text.map f).takeWhile (fun b => p (chβ b)) =
        (text.takeWhile fun a => p (ch a)).map f := by
      rw [List.takeWhile_map]
      congr 2
      funext a
      exact congrArg p (hf a)
    rw [run, run, hwhile, List.length_map, List.map_map]
    apply List.map_congr_left
    intro k _
    show Hit.mk _ _ = Hit.mk _ _
    rw [List.map_take]
    rfl
  | opt p =>
    cases text with
    | nil => rfl
    | cons a rest =>
      rw [List.map_cons, run, run, hf a]
      split <;> rfl
  | group r ih =>
    rw [run, run, ih, List.map_map, List.map_map]
    rfl

theorem subFrom_map (hf : ∀ a, chβ (f a) = ch a) :
    subFrom chβ word r keep (lit.map f) left before (text.map f) =
      (subFrom ch word r keep lit left before text).map f := by
  induction left generalizing before text with
  | zero => rfl
  | succ left ih =>
    cases text with
    | nil => rfl
    | cons a rest =>
      rw [List.map_cons, subFrom, subFrom, ← List.map_cons, run_map hf, List.head?_map]
      cases (run ch word r before (a :: rest)).head? with
      | none =>
        show f a :: _ = f a :: _
        rw [hf a, ih]
      | some hit =>
        have hdrop : ((a :: rest).map f).drop (hit.map f).taken.length =
            ((a :: rest).drop hit.taken.length).map f := by
          rw [Hit.map, List.length_map, List.map_drop]
        show expand keep (lit.map f) (hit.map f).group ++ subFrom chβ word r keep (lit.map f) left
            (lastOf chβ before (hit.map f).taken)
            (((a :: rest).map f).drop (hit.map f).taken.length) = _
        rw [hdrop, Hit.map, lastOf_map hf, ih, List.map_append]
        congr 1
        unfold expand
        rw [List.map_append]
        congr 1
        cases keep with
        | false => rfl
        | true =>
          cases hit.group with
          | none => rfl
          | some g => rfl

/-- Marks on the letters stay with them and change nothing. -/
theorem sub_map (hf : ∀ a, chβ (f a) = ch a) :
    sub chβ word r keep (lit.map f) (text.map f) = (sub ch word r keep lit text).map f := by
  unfold sub
  rw [List.length_map, subFrom_map hf]

end Marks

end Regex

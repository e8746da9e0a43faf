import Mathlib.Data.List.DropRight
import Mathlib.Tactic.IntervalCases

/-!
# The text of a UUID

A UUID is a 128-bit value. `Uuid.text` is its canonical text, as Python's `str` gives it;
`Uuid.accepts` says which texts the constructor takes: hexadecimal digits with optional
braces, hyphens and URN prefix. The canonical text is one of them (`accepts_text`).
-/

namespace Uuid

def hexDigit (n : Nat) : Char := if n < 10 then Char.ofNat (48 + n) else Char.ofNat (87 + n)

def isHex (c : Char) : Bool :=
  ('0' ≤ c && c ≤ '9') || ('a' ≤ c && c ≤ 'f') || ('A' ≤ c && c ≤ 'F')

/-- The 32 digits, highest first. -/
def digits (u : BitVec 128) : List Char :=
  (List.range 32).map fun i => hexDigit (u.toNat / 16 ^ (31 - i) % 16)

/-- Groups of 8, 4, 4, 4 and 12 digits. -/
def chars (u : BitVec 128) : List Char :=
  let ds := digits u
  ds.take 8 ++ '-' :: ((ds.drop 8).take 4 ++ '-' :: ((ds.drop 12).take 4 ++ '-' ::
    ((ds.drop 16).take 4 ++ '-' :: ds.drop 20)))

def text (u : BitVec 128) : String := String.ofList (chars u)

/-- `text.replace(pattern, "")`; `skip` characters of a match are still to be left out. -/
def remove (pattern : List Char) : Nat → List Char → List Char
  | _, [] => []
  | skip + 1, _ :: cs => remove pattern skip cs
  | 0, c :: cs =>
    if pattern.isPrefixOf (c :: cs) then remove pattern (pattern.length - 1) cs
    else c :: remove pattern 0 cs

def isBrace (c : Char) : Bool := c = Char.ofNat 123 || c = Char.ofNat 125

/-- The digits that are left once prefix, braces and hyphens are taken out. -/
def bare (cs : List Char) : List Char :=
  (((remove "uuid:".toList 0 (remove "urn:".toList 0 cs)).dropWhile isBrace).rdropWhile
    isBrace).filter (· ≠ '-')

/-- Whether `uuid.UUID(s)` returns. -/
def accepts (s : String) : Bool := (bare s.toList).length = 32 && (bare s.toList).all isHex

/-! ## The canonical text -/

theorem isHex_hexDigit {n : Nat} (hn : n < 16) : isHex (hexDigit n) = true := by
  interval_cases n <;> rfl

theorem isHex_digits (u : BitVec 128) : ∀ c ∈ digits u, isHex c = true := by
  intro c hc
  obtain ⟨i, -, rfl⟩ := List.mem_map.mp hc
  exact isHex_hexDigit (Nat.mod_lt _ (by omega))

theorem length_digits (u : BitVec 128) : (digits u).length = 32 := by
  rw [digits, List.length_map, List.length_range]

/-- The characters that can stand in the canonical text. -/
def isPlain (c : Char) : Bool := isHex c || c = '-'

theorem isPlain_chars (u : BitVec 128) : ∀ c ∈ chars u, isPlain c = true := by
  have hdigit : ∀ c ∈ digits u, isPlain c = true := by
    intro c hc
    rw [isPlain, isHex_digits u c hc]
    rfl
  have hpart : ∀ part : List Char, part ⊆ digits u → ∀ c ∈ part, isPlain c = true :=
    fun part hsub c hc => hdigit c (hsub hc)
  have htake : ∀ m n, ((digits u).drop m).take n ⊆ digits u :=
    fun m n => ((List.take_sublist _ _).trans (List.drop_sublist _ _)).subset
  intro c hc
  simp only [chars, List.mem_append, List.mem_cons] at hc
  rcases hc with hc | rfl | hc | rfl | hc | rfl | hc | rfl | hc
  · exact hpart _ (List.take_sublist _ _).subset c hc
  · rfl
  · exact hpart _ (htake _ _) c hc
  · rfl
  · exact hpart _ (htake _ _) c hc
  · rfl
  · exact hpart _ (htake _ _) c hc
  · rfl
  · exact hpart _ (List.drop_sublist _ _).subset c hc

theorem remove_eq_self {pattern : List Char} {cs : List Char} {p : Char} {ps : List Char}
    (hpattern : pattern = p :: ps) (hp : isPlain p = false)
    (hcs : ∀ c ∈ cs, isPlain c = true) : remove pattern 0 cs = cs := by
  induction cs with
  | nil => rfl
  | cons c cs ih =>
    have hne : pattern.isPrefixOf (c :: cs) = false := by
      have hpc : p ≠ c := by
        rintro rfl
        rw [hcs _ List.mem_cons_self] at hp
        cases hp
      rw [hpattern]
      simp [List.isPrefixOf, hpc]
    rw [remove, hne, ih fun c hc => hcs c (List.mem_cons_of_mem _ hc)]
    rfl

private theorem isBrace_of_plain {c : Char} (hc : isPlain c = true) : isBrace c = false := by
  by_contra hbrace
  rw [Bool.not_eq_false, isBrace, Bool.or_eq_true, decide_eq_true_eq, decide_eq_true_eq] at hbrace
  rcases hbrace with rfl | rfl
  · exact absurd hc (by decide)
  · exact absurd hc (by decide)

/-- Taking the hyphens out of the groups gives the digits back. -/
theorem filter_chars (u : BitVec 128) : (chars u).filter (· ≠ '-') = digits u := by
  have hdigit : ∀ part : List Char, part ⊆ digits u → part.filter (· ≠ '-') = part := by
    intro part hsub
    rw [List.filter_eq_self]
    intro c hc
    have hhex := isHex_digits u c (hsub hc)
    have hne : c ≠ '-' := by
      rintro rfl
      exact absurd hhex (by decide)
    simpa using hne
  have htake : ∀ m n, ((digits u).drop m).take n ⊆ digits u :=
    fun m n => ((List.take_sublist _ _).trans (List.drop_sublist _ _)).subset
  have hjoin : ∀ m n, ((digits u).drop m).take n ++ (digits u).drop (m + n) =
      (digits u).drop m := by
    intro m n
    rw [← List.drop_drop]
    exact List.take_append_drop n _
  have hhyphen : ∀ cs : List Char, ('-' :: cs).filter (· ≠ '-') = cs.filter (· ≠ '-') :=
    fun cs => List.filter_cons_of_neg (by simp)
  rw [chars, List.filter_append, hhyphen, List.filter_append, hhyphen, List.filter_append,
    hhyphen, List.filter_append, hhyphen, hdigit _ (List.take_sublist _ _).subset,
    hdigit _ (htake _ _), hdigit _ (htake _ _), hdigit _ (htake _ _),
    hdigit _ (List.drop_sublist _ _).subset, hjoin 16 4, hjoin 12 4, hjoin 8 4]
  exact List.take_append_drop 8 _

theorem bare_chars (u : BitVec 128) : bare (chars u) = digits u := by
  have hplain := isPlain_chars u
  have hdrop : (chars u).dropWhile isBrace = chars u := by
    rw [List.dropWhile_eq_self_iff]
    intro hlen
    rw [isBrace_of_plain (hplain _ (List.getElem_mem hlen))]
    decide
  have hrdrop : (chars u).rdropWhile isBrace = chars u := by
    rw [List.rdropWhile_eq_self_iff]
    intro hne
    rw [isBrace_of_plain (hplain _ (List.getLast_mem hne))]
    decide
  have hurn : remove "urn:".toList 0 (chars u) = chars u :=
    remove_eq_self (show "urn:".toList = 'u' :: "rn:".toList from rfl) (by decide) hplain
  have huuid : remove "uuid:".toList 0 (chars u) = chars u :=
    remove_eq_self (show "uuid:".toList = 'u' :: "uid:".toList from rfl) (by decide) hplain
  rw [bare, hurn, huuid, hdrop, hrdrop, filter_chars]

/-- What `str` of a UUID gives is read back. -/
theorem accepts_text (u : BitVec 128) : accepts (text u) = true := by
  rw [accepts, text, String.toList_ofList, bare_chars, length_digits]
  simpa using isHex_digits u

end Uuid

import Mathlib.Data.Nat.Digits.Lemmas
import Mathlib.Tactic.IntervalCases
import SwitchTrade.Transition.PyJson

/-!
# JSON as Python writes it

`dumps` is `json.dumps` with `ensure_ascii` and without blanks, of a dictionary of texts and
integers. What it writes is read back (`loads_dumps`): a string is the escapes of its
characters, each of which reads as the units of one character, and a number its digits.
-/

namespace PyJson

/-! ## Writing -/

def hexChar (n : Nat) : Char := if n < 10 then Char.ofNat (48 + n) else Char.ofNat (87 + n)

def hexEscape (u : Nat) : List Char :=
  ['\\', 'u', hexChar (u / 4096), hexChar (u / 256 % 16), hexChar (u / 16 % 16),
    hexChar (u % 16)]

/-- The 16-bit units of a code point. -/
def units (n : Nat) : List Nat :=
  if n < 0x10000 then [n]
  else [0xD800 + (n - 0x10000) / 0x400, 0xDC00 + (n - 0x10000) % 0x400]

/-- `ESCAPE_DCT`. -/
def escapeChar (n : Nat) : List Char :=
  if n = 34 then ['\\', '"']
  else if n = 92 then ['\\', '\\']
  else if n = 10 then ['\\', 'n']
  else if n = 13 then ['\\', 'r']
  else if n = 9 then ['\\', 't']
  else if n = 12 then ['\\', 'f']
  else if n = 8 then ['\\', 'b']
  else if 32 ≤ n ∧ n ≤ 126 then [Char.ofNat n]
  else (units n).flatMap hexEscape

/-- `py_encode_basestring_ascii`. -/
def dumpsText (t : Text) : List Char := '"' :: (t.flatMap escapeChar ++ ['"'])

/-- The decimal digits of a natural number. -/
def decimal (n : Nat) : List Char :=
  if n = 0 then ['0'] else (Nat.digits 10 n).reverse.map fun d => Char.ofNat (48 + d)

/-- `int.__repr__`, which refuses to write more than `maxStrDigits` digits. -/
def dumpsInt (n : Int) : Option (List Char) :=
  if maxStrDigits < (decimal n.natAbs).length then none
  else some ((if n < 0 then ['-'] else []) ++ decimal n.natAbs)

/-- A value of a dictionary that `dumps` is given. -/
inductive Scalar where
  | int (n : Int)
  | text (t : Text)
  deriving DecidableEq, Repr

def Scalar.value : Scalar → Value
  | .int n => .int n
  | .text t => .text t

def Scalar.dumps : Scalar → Option (List Char)
  | .int n => dumpsInt n
  | .text t => some (dumpsText t)

def dumpsItem (item : Text × Scalar) : Option (List Char) :=
  item.2.dumps.map fun value => dumpsText item.1 ++ ':' :: value

def dumpsItems : List (Text × Scalar) → Option (List Char)
  | [] => some []
  | [item] => dumpsItem item
  | item :: next :: items => do
    let head ← dumpsItem item
    let rest ← dumpsItems (next :: items)
    return head ++ ',' :: rest

/-- `json.dumps` of a dictionary, its items in the order they are to be written in. -/
def dumps (items : List (Text × Scalar)) : Option (List Char) :=
  (dumpsItems items).map fun body => '\x7b' :: (body ++ ['}'])

/-! ## Strings are read back -/

/-- A code point that is no surrogate. -/
def IsScalar (n : Nat) : Prop := n < 0xD800 ∨ (0xE000 ≤ n ∧ n < 0x110000)

theorem hexValue_hexChar {n : Nat} (h : n < 16) : hexValue (hexChar n) = some n := by
  have hall : ∀ n, n < 16 → hexValue (hexChar n) = some n := by decide
  exact hall n h

theorem unit_hexEscape {u : Nat} (h : u < 0x10000) :
    unit (hexChar (u / 4096)) (hexChar (u / 256 % 16)) (hexChar (u / 16 % 16))
      (hexChar (u % 16)) = some u := by
  unfold unit
  rw [hexValue_hexChar (by omega), hexValue_hexChar (by omega), hexValue_hexChar (by omega),
    hexValue_hexChar (by omega)]
  show some _ = some u
  congr 1
  omega

theorem stringBody_hexEscape {u : Nat} (h : u < 0x10000) (rest : List Char) :
    stringBody (hexEscape u ++ rest) =
      (stringBody rest).map fun p => (u :: p.1, p.2) := by
  show stringBody ('\\' :: 'u' :: _ :: _ :: _ :: _ :: rest) = _
  rw [stringBody, unit_hexEscape h]
  cases stringBody rest <;> rfl

theorem stringBody_unescape {c : Char} {u : Nat} (h : unescape c = some u) (rest : List Char) :
    stringBody ('\\' :: c :: rest) = (stringBody rest).map fun p => (u :: p.1, p.2) := by
  have hu : c ≠ 'u' := by
    rintro rfl
    cases h
  rw [stringBody.eq_4 _ _ (fun a b c' d cs he => absurd he hu), h]
  cases stringBody rest <;> rfl

theorem stringBody_plain {c : Char} (hq : c ≠ '"') (hb : c ≠ '\\') (h : 32 ≤ c.toNat)
    (rest : List Char) :
    stringBody (c :: rest) = (stringBody rest).map fun p => (c.toNat :: p.1, p.2) := by
  rw [stringBody.eq_5 _ _ (fun he => hq he) (fun a b c' d cs he => absurd he hb)
    (fun c' cs he => absurd he hb), if_neg (by simp [hb]; omega)]
  cases stringBody rest <;> rfl

theorem toNat_ofNat {n : Nat} (h : n ≤ 126) : (Char.ofNat n).toNat = n := by
  have hall : ∀ n, n < 127 → (Char.ofNat n).toNat = n := by decide
  exact hall n (by omega)

theorem ofNat_ne {n m : Nat} (hn : n ≤ 126) (hm : m ≤ 126) (h : n ≠ m) :
    Char.ofNat n ≠ Char.ofNat m := by
  intro he
  apply h
  rw [← toNat_ofNat hn, he, toNat_ofNat hm]

/-- Every code point is written as something that reads as its units. -/
theorem stringBody_escapeChar {n : Nat} (h : n < 0x110000) (rest : List Char) :
    stringBody (escapeChar n ++ rest) =
      (stringBody rest).map fun p => (units n ++ p.1, p.2) := by
  have hunits (hn : n < 0x10000) : units n = [n] := if_pos hn
  unfold escapeChar
  -- the seven short escapes
  iterate 7
    split
    · subst n
      exact stringBody_unescape rfl rest
  split
  · rename_i hq hb _ _ _ _ _ hplain
    have htoNat := toNat_ofNat hplain.2
    rw [hunits (by omega), List.singleton_append, stringBody_plain
      (ofNat_ne (m := 34) hplain.2 (by omega) hq) (ofNat_ne (m := 92) hplain.2 (by omega) hb)
      (by omega), htoNat]
    rfl
  · unfold units
    split
    · rename_i hn
      rw [List.flatMap_singleton, stringBody_hexEscape hn]
      rfl
    · rw [List.flatMap_cons, List.flatMap_singleton, List.append_assoc,
        stringBody_hexEscape (by omega), stringBody_hexEscape (by omega), Option.map_map]
      rfl

theorem stringBody_escaped {t : Text} (h : ∀ n ∈ t, n < 0x110000) (rest : List Char) :
    stringBody (t.flatMap escapeChar ++ '"' :: rest) = some (t.flatMap units, rest) := by
  induction t with
  | nil => rfl
  | cons n t ih =>
    rw [List.flatMap_cons, List.append_assoc, stringBody_escapeChar (h n List.mem_cons_self),
      ih fun m hm => h m (List.mem_cons_of_mem n hm)]
    rfl

theorem join_cons {n : Nat} (h : isHigh n = false) (us : Text) : join (n :: us) = n :: join us := by
  cases us with
  | nil => rfl
  | cons u us => simp [join, h]

theorem join_pair {u v : Nat} (hu : isHigh u = true) (hv : isLow v = true) (us : Text) :
    join (u :: v :: us) = (0x10000 + (u - 0xD800) * 0x400 + (v - 0xDC00)) :: join us := by
  simp only [join, hu, hv, Bool.and_self, if_true]

theorem join_units {t : Text} (h : ∀ n ∈ t, IsScalar n) : join (t.flatMap units) = t := by
  induction t with
  | nil => rfl
  | cons n t ih =>
    have hn := h n List.mem_cons_self
    have ht := ih fun m hm => h m (List.mem_cons_of_mem n hm)
    unfold IsScalar at hn
    rw [List.flatMap_cons]
    by_cases hs : n < 0x10000
    · have hh : isHigh n = false := by
        simp only [isHigh, Bool.decide_and, Bool.and_eq_false_iff, decide_eq_false_iff_not]
        omega
      rw [units, if_pos hs, List.singleton_append, join_cons hh, ht]
    · have hh : isHigh (0xD800 + (n - 0x10000) / 0x400) = true := by
        simp only [isHigh, decide_eq_true_eq]
        omega
      have hl : isLow (0xDC00 + (n - 0x10000) % 0x400) = true := by
        simp only [isLow, decide_eq_true_eq]
        omega
      have hsum : 0x10000 + (0xD800 + (n - 0x10000) / 0x400 - 0xD800) * 0x400 +
          (0xDC00 + (n - 0x10000) % 0x400 - 0xDC00) = n := by omega
      rw [units, if_neg hs, List.cons_append, List.singleton_append, join_pair hh hl, hsum, ht]

theorem scanString_dumps {t : Text} (h : ∀ n ∈ t, IsScalar n) (rest : List Char) :
    scanString (t.flatMap escapeChar ++ '"' :: rest) = .ok (t, rest) := by
  have hlt : ∀ n ∈ t, n < 0x110000 := by
    intro n hn
    have := h n hn
    unfold IsScalar at this
    omega
  unfold scanString
  rw [stringBody_escaped hlt]
  simp only [join_units h]

/-! ## Numbers are read back -/

theorem isDigit_ofNat {d : Nat} (h : d < 10) : isDigit (Char.ofNat (48 + d)) = true := by
  have hall : ∀ d, d < 10 → isDigit (Char.ofNat (48 + d)) = true := by decide
  exact hall d h

theorem decimal_digits (n : Nat) : ∀ c ∈ decimal n, isDigit c = true := by
  intro c hc
  unfold decimal at hc
  split at hc
  · rw [List.mem_singleton.mp hc]
    rfl
  · obtain ⟨d, hd, rfl⟩ := List.mem_map.mp hc
    exact isDigit_ofNat (Nat.digits_lt_base (by omega) (List.mem_reverse.mp hd))

theorem ofDigits_map (ds : List Nat) (h : ∀ d ∈ ds, d < 10) :
    ofDigits (ds.reverse.map fun d => Char.ofNat (48 + d)) = Nat.ofDigits 10 ds := by
  induction ds with
  | nil => rfl
  | cons d ds ih =>
    have hd := h d List.mem_cons_self
    have htoNat := toNat_ofNat (n := 48 + d) (by omega)
    have ih' := ih fun e he => h e (List.mem_cons_of_mem d he)
    unfold ofDigits at ih' ⊢
    rw [List.reverse_cons, List.map_append, List.foldl_append, ih', List.map_singleton,
      List.foldl_cons, List.foldl_nil, htoNat, Nat.ofDigits_cons]
    omega

theorem ofDigits_decimal (n : Nat) : ofDigits (decimal n) = n := by
  unfold decimal
  split
  · subst n
    rfl
  · rw [ofDigits_map _ fun d hd => Nat.digits_lt_base (by omega) hd, Nat.ofDigits_digits]

/-- A number that is not zero starts with another digit than zero. -/
theorem decimal_cons {n : Nat} (h : n ≠ 0) :
    ∃ d ds, 0 < d ∧ d < 10 ∧ decimal n = Char.ofNat (48 + d) :: ds := by
  have hne : Nat.digits 10 n ≠ [] := Nat.digits_ne_nil_iff_ne_zero.mpr h
  have hlast := Nat.getLast_digit_ne_zero 10 h
  have hrev : (Nat.digits 10 n).reverse =
      (Nat.digits 10 n).getLast hne :: (Nat.digits 10 n).dropLast.reverse := by
    conv_lhs => rw [← List.dropLast_append_getLast hne]
    rw [List.reverse_append]
    rfl
  refine ⟨(Nat.digits 10 n).getLast hne,
    (Nat.digits 10 n).dropLast.reverse.map fun d => Char.ofNat (48 + d),
    Nat.pos_of_ne_zero hlast, Nat.digits_lt_base (by omega) (List.getLast_mem hne), ?_⟩
  unfold decimal
  rw [if_neg h, hrev, List.map_cons]

/-- A text that does not go on with a number: it starts with a comma or a brace. -/
def Follows (rest : List Char) : Prop := ∃ c cs, rest = c :: cs ∧ (c = ',' ∨ c = '}')

theorem takeWhile_digits {ds rest : List Char} (hd : ∀ c ∈ ds, isDigit c = true)
    (hr : Follows rest) :
    (ds ++ rest).takeWhile isDigit = ds ∧ (ds ++ rest).dropWhile isDigit = rest := by
  obtain ⟨c, cs, rfl, hc⟩ := hr
  have hc' : isDigit c = false := by rcases hc with rfl | rfl <;> rfl
  constructor
  · rw [List.takeWhile_append_of_pos hd, List.takeWhile_cons_of_neg (by simp [hc']),
      List.append_nil]
  · rw [List.dropWhile_append_of_pos hd, List.dropWhile_cons_of_neg (by simp [hc'])]

theorem integerPart_decimal (n : Nat) {rest : List Char} (hr : Follows rest) :
    integerPart (decimal n ++ rest) = some (decimal n, rest) := by
  by_cases h : n = 0
  · subst n
    rfl
  · obtain ⟨d, ds, hpos, hlt, he⟩ := decimal_cons h
    have hds : ∀ c ∈ ds, isDigit c = true := by
      intro c hc
      apply decimal_digits n
      rw [he]
      exact List.mem_cons_of_mem _ hc
    obtain ⟨htake, hdrop⟩ := takeWhile_digits hds hr
    have hzero : Char.ofNat (48 + d) ≠ '0' :=
      ofNat_ne (n := 48 + d) (m := 48) (by omega) (by omega) (by omega)
    rw [he, List.cons_append]
    simp only [integerPart, if_neg hzero, if_pos (isDigit_ofNat hlt), htake, hdrop]

theorem scanUnsigned_decimal (negative : Bool) {n : Nat} {rest : List Char}
    (hlen : (decimal n).length ≤ maxStrDigits) (hr : Follows rest) :
    scanUnsigned negative (decimal n ++ rest) =
      .ok (.int (if negative then -(n : Int) else n), rest) := by
  have hfraction : fraction rest = ([], rest) := by
    obtain ⟨c, cs, rfl, rfl | rfl⟩ := hr <;> rfl
  have hexponent : exponent rest = ([], rest) := by
    obtain ⟨c, cs, rfl, rfl | rfl⟩ := hr <;> cases cs <;> rfl
  unfold scanUnsigned
  rw [integerPart_decimal n hr]
  simp only [hfraction, hexponent, List.isEmpty_nil, Bool.and_self, if_true, ofDigits_decimal]
  rw [if_neg (by omega)]

/-! ## Dictionaries are read back -/

theorem skip_cons {c : Char} (h : isSpace c = false) (cs : List Char) :
    skip (c :: cs) = c :: cs := by
  unfold skip
  rw [List.dropWhile_cons_of_neg (by simp [h])]

theorem scan_text (depth : Nat) {t : Text} (h : ∀ n ∈ t, IsScalar n) (rest : List Char) :
    scan depth (dumpsText t ++ rest) = .ok (.text t, rest) := by
  have htext : dumpsText t ++ rest = '"' :: (t.flatMap escapeChar ++ '"' :: rest) := by
    simp [dumpsText]
  rw [htext]
  unfold scan
  simp only [scanString_dumps h]
  rfl

/-- What starts with a digit is read as a number. -/
theorem scan_digit (depth : Nat) {d : Nat} (hd : d < 10) (cs : List Char) :
    scan depth (Char.ofNat (48 + d) :: cs) =
      scanUnsigned false (Char.ofNat (48 + d) :: cs) := by
  interval_cases d <;> cases depth <;> rfl

theorem scan_minus (depth : Nat) {d : Nat} (hd : d < 10) (cs : List Char) :
    scan depth ('-' :: Char.ofNat (48 + d) :: cs) =
      scanUnsigned true (Char.ofNat (48 + d) :: cs) := by
  interval_cases d <;> cases depth <;> rfl

theorem decimal_head (n : Nat) : ∃ d ds, d < 10 ∧ decimal n = Char.ofNat (48 + d) :: ds := by
  by_cases h : n = 0
  · subst n
    exact ⟨0, [], by omega, rfl⟩
  · obtain ⟨d, ds, -, hlt, he⟩ := decimal_cons h
    exact ⟨d, ds, hlt, he⟩

theorem scan_int (depth : Nat) {n : Int} {cs rest : List Char} (h : dumpsInt n = some cs)
    (hr : Follows rest) : scan depth (cs ++ rest) = .ok (.int n, rest) := by
  unfold dumpsInt at h
  split at h
  · cases h
  · rename_i hlen
    obtain ⟨d, ds, hd, he⟩ := decimal_head n.natAbs
    cases h
    by_cases hneg : n < 0
    · have hscan := scanUnsigned_decimal true (Nat.le_of_not_lt hlen) hr
      rw [if_pos hneg, List.singleton_append, List.cons_append, he, List.cons_append,
        scan_minus depth hd, ← List.cons_append, ← he, hscan]
      have habs : -(n.natAbs : Int) = n := by omega
      rw [if_pos rfl, habs]
    · have hscan := scanUnsigned_decimal false (Nat.le_of_not_lt hlen) hr
      rw [if_neg hneg, List.nil_append, he, List.cons_append, scan_digit depth hd,
        ← List.cons_append, ← he, hscan]
      have habs : (n.natAbs : Int) = n := by omega
      rw [if_neg (by simp), habs]

/-- The key and the text of an item have no surrogates. -/
def Written (item : Text × Scalar) : Prop :=
  (∀ n ∈ item.1, IsScalar n) ∧ ∀ t, item.2 = .text t → ∀ n ∈ t, IsScalar n

theorem scan_scalar (depth : Nat) {s : Scalar} {cs rest : List Char} (h : s.dumps = some cs)
    (hs : ∀ t, s = .text t → ∀ n ∈ t, IsScalar n) (hr : Follows rest) :
    scan depth (cs ++ rest) = .ok (s.value, rest) ∧ skip (cs ++ rest) = cs ++ rest := by
  cases s with
  | int n =>
    refine ⟨scan_int depth h hr, ?_⟩
    have h' : dumpsInt n = some cs := h
    unfold dumpsInt at h'
    split at h'
    · cases h'
    · obtain ⟨d, ds, hd, he⟩ := decimal_head n.natAbs
      cases h'
      have hspace : isSpace (Char.ofNat (48 + d)) = false := by
        interval_cases d <;> rfl
      split
      · exact skip_cons rfl _
      · rw [List.nil_append, he]
        exact skip_cons hspace _
  | text t =>
    cases h
    exact ⟨scan_text depth (hs t rfl) rest, skip_cons rfl _⟩

/-- An item of a dictionary, read up to the comma or the brace after it. -/
theorem dumpsItem_append {item : Text × Scalar} {cs : List Char} (h : dumpsItem item = some cs)
    (rest : List Char) :
    ∃ value, item.2.dumps = some value ∧
      cs ++ rest = '"' :: (item.1.flatMap escapeChar ++ '"' :: ':' :: (value ++ rest)) := by
  obtain ⟨value, hv, rfl⟩ := Option.map_eq_some_iff.mp h
  exact ⟨value, hv, by simp [dumpsText]⟩

theorem members_last (depth fuel : Nat) {item : Text × Scalar} {cs : List Char}
    (h : dumpsItem item = some cs) (hw : Written item) (rest : List Char) :
    members (scan depth) (fuel + 1) (cs ++ '}' :: rest) =
      .ok ([(item.1, item.2.value)], rest) := by
  obtain ⟨value, hv, hcs⟩ := dumpsItem_append h ('}' :: rest)
  obtain ⟨hscan, hskip⟩ := scan_scalar depth hv hw.2 ⟨'}', rest, rfl, .inr rfl⟩
  have hcolon : skip (':' :: (value ++ '}' :: rest)) = ':' :: (value ++ '}' :: rest) :=
    skip_cons rfl _
  have hbrace : skip ('}' :: rest) = '}' :: rest := skip_cons rfl _
  rw [hcs, members]
  simp only [scanString_dumps hw.1, bind, Except.bind, hcolon, hskip, hscan, hbrace]

theorem members_next (depth fuel : Nat) {item : Text × Scalar} {cs : List Char}
    (h : dumpsItem item = some cs) (hw : Written item) {tail rest : List Char}
    {items : List (Text × Value)} (htail : skip tail = tail)
    (hitems : members (scan depth) fuel tail = .ok (items, rest)) :
    members (scan depth) (fuel + 1) (cs ++ ',' :: tail) =
      .ok ((item.1, item.2.value) :: items, rest) := by
  obtain ⟨value, hv, hcs⟩ := dumpsItem_append h (',' :: tail)
  obtain ⟨hscan, hskip⟩ := scan_scalar depth hv hw.2 ⟨',', tail, rfl, .inl rfl⟩
  have hcolon : skip (':' :: (value ++ ',' :: tail)) = ':' :: (value ++ ',' :: tail) :=
    skip_cons rfl _
  have hcomma : skip (',' :: tail) = ',' :: tail := skip_cons rfl _
  rw [hcs, members]
  simp only [scanString_dumps hw.1, bind, Except.bind, hcolon, hskip, hscan, hcomma, htail,
    hitems]

theorem dumpsItems_head {item : Text × Scalar} {items : List (Text × Scalar)} {cs : List Char}
    (h : dumpsItems (item :: items) = some cs) : ∃ cs', cs = '"' :: cs' := by
  have hitem : ∀ {i : Text × Scalar} {c : List Char}, dumpsItem i = some c →
      ∃ c', c = '"' :: c' := by
    intro i c hc
    obtain ⟨value, -, rfl⟩ := Option.map_eq_some_iff.mp hc
    exact ⟨_, rfl⟩
  cases items with
  | nil => exact hitem h
  | cons next items =>
    obtain ⟨head, hhead, h⟩ := Option.bind_eq_some_iff.mp h
    obtain ⟨rest, -, h⟩ := Option.bind_eq_some_iff.mp h
    cases h
    obtain ⟨c', rfl⟩ := hitem hhead
    exact ⟨_, rfl⟩

theorem members_dumps (depth : Nat) {item : Text × Scalar} {items : List (Text × Scalar)}
    {cs : List Char} (h : dumpsItems (item :: items) = some cs)
    (hw : ∀ i ∈ item :: items, Written i) {fuel : Nat} (hfuel : items.length < fuel)
    (rest : List Char) :
    members (scan depth) fuel (cs ++ '}' :: rest) =
      .ok ((item :: items).map fun i => (i.1, i.2.value), rest) := by
  induction items generalizing item cs fuel with
  | nil =>
    obtain ⟨fuel, rfl⟩ : ∃ k, fuel = k + 1 := ⟨fuel - 1, by simp at hfuel; omega⟩
    exact members_last depth fuel h (hw item List.mem_cons_self) rest
  | cons next items ih =>
    obtain ⟨fuel, rfl⟩ : ∃ k, fuel = k + 1 := ⟨fuel - 1, by simp at hfuel; omega⟩
    obtain ⟨head, hhead, h⟩ := Option.bind_eq_some_iff.mp h
    obtain ⟨tail, htail, h⟩ := Option.bind_eq_some_iff.mp h
    cases h
    obtain ⟨tail', rfl⟩ := dumpsItems_head htail
    have hmembers := ih htail (fun i hi => hw i (List.mem_cons_of_mem item hi))
      (show items.length + 1 ≤ fuel by simp at hfuel; omega)
    have hnext := members_next depth fuel hhead (hw item List.mem_cons_self)
      (skip_cons rfl (tail' ++ '}' :: rest)) hmembers
    rw [List.append_assoc]
    exact hnext

theorem length_dumpsItems {items : List (Text × Scalar)} {cs : List Char}
    (h : dumpsItems items = some cs) : items.length ≤ cs.length := by
  have hitem : ∀ {i : Text × Scalar} {c : List Char}, dumpsItem i = some c → 1 ≤ c.length := by
    intro i c hc
    obtain ⟨value, -, rfl⟩ := Option.map_eq_some_iff.mp hc
    simp [dumpsText]
  induction items generalizing cs with
  | nil => exact Nat.zero_le _
  | cons item items ih =>
    cases items with
    | nil => exact hitem h
    | cons next items =>
      obtain ⟨head, hhead, h⟩ := Option.bind_eq_some_iff.mp h
      obtain ⟨tail, htail, h⟩ := Option.bind_eq_some_iff.mp h
      cases h
      have h₁ := hitem hhead
      have h₂ := ih htail
      simp only [List.length_append, List.length_cons] at h₁ h₂ ⊢
      omega

/-- A dictionary of texts without surrogates and of integers is read back as it was written,
at any depth that allows one dictionary. -/
theorem loads_dumps (depth : Nat) {items : List (Text × Scalar)} {cs : List Char}
    (h : dumps items = some cs) (hw : ∀ i ∈ items, Written i) :
    loads (depth + 1) cs = .ok (.dict (items.map fun i => (i.1, i.2.value))) := by
  obtain ⟨body, hbody, rfl⟩ := Option.map_eq_some_iff.mp h
  have hscan : scan (depth + 1) ('\x7b' :: (body ++ ['}'])) =
      .ok (.dict (items.map fun i => (i.1, i.2.value)), []) := by
    cases items with
    | nil =>
      cases hbody
      rfl
    | cons item items =>
      obtain ⟨cs, rfl⟩ := dumpsItems_head hbody
      have hlen := length_dumpsItems hbody
      have hfuel : items.length < ('"' :: cs ++ ['}']).length := by
        simp only [List.length_append, List.length_cons] at hlen ⊢
        omega
      have hmembers := members_dumps depth hbody hw hfuel []
      have hskip : skip ('"' :: (cs ++ ['}'])) = '"' :: (cs ++ ['}']) := skip_cons rfl _
      rw [List.cons_append] at hmembers ⊢
      rw [scan, hskip]
      show (members (scan depth) _ _ >>= _) = _
      rw [hmembers]
      rfl
  have hskip : skip ('\x7b' :: (body ++ ['}'])) = '\x7b' :: (body ++ ['}']) := skip_cons rfl _
  unfold loads
  rw [hskip, hscan]
  rfl

/-! ## What is written

Only ASCII characters, and nothing at all if and only if an integer has too many digits. -/

theorem hexChar_ascii {n : Nat} (h : n < 16) : (hexChar n).toNat < 128 := by
  have hall : ∀ n, n < 16 → (hexChar n).toNat < 128 := by decide
  exact hall n h

theorem hexEscape_ascii {u : Nat} (h : u < 0x10000) : ∀ c ∈ hexEscape u, c.toNat < 128 := by
  intro c hc
  simp only [hexEscape, List.mem_cons, List.not_mem_nil, or_false] at hc
  rcases hc with rfl | rfl | rfl | rfl | rfl | rfl
  · decide
  · decide
  all_goals exact hexChar_ascii (by omega)

theorem escapeChar_ascii {n : Nat} (h : n < 0x110000) : ∀ c ∈ escapeChar n, c.toNat < 128 := by
  have hshort : ∀ c ∈ ['\\', '"', 'n', 'r', 't', 'f', 'b'], c.toNat < 128 := by
    intro c hc
    have hall : ['\\', '"', 'n', 'r', 't', 'f', 'b'].all (fun c => c.toNat < 128) = true := by
      decide
    exact of_decide_eq_true (List.all_eq_true.mp hall c hc)
  intro c hc
  unfold escapeChar at hc
  iterate 7
    split at hc
    · exact hshort c (by grind)
  split at hc
  · rename_i hplain
    rw [List.mem_singleton.mp hc, toNat_ofNat hplain.2]
    omega
  · obtain ⟨u, hu, hc⟩ := List.mem_flatMap.mp hc
    apply hexEscape_ascii _ c hc
    unfold units at hu
    split at hu <;> simp at hu <;> omega

theorem dumpsText_ascii {t : Text} (h : ∀ n ∈ t, IsScalar n) :
    ∀ c ∈ dumpsText t, c.toNat < 128 := by
  have hquote : '"'.toNat < 128 := by decide
  intro c hc
  unfold dumpsText at hc
  rcases List.mem_cons.mp hc with rfl | hc
  · exact hquote
  rcases List.mem_append.mp hc with hc | hc
  · obtain ⟨n, hn, hc⟩ := List.mem_flatMap.mp hc
    have hscalar := h n hn
    unfold IsScalar at hscalar
    exact escapeChar_ascii (by omega) c hc
  · rw [List.mem_singleton.mp hc]
    exact hquote

theorem decimal_ascii (n : Nat) : ∀ c ∈ decimal n, c.toNat < 128 := by
  intro c hc
  have hdigit := decimal_digits n c hc
  have hle : c ≤ '9' := (of_decide_eq_true hdigit).2
  have hnat : c.toNat ≤ '9'.toNat := UInt32.le_iff_toNat_le.mp hle
  exact lt_of_le_of_lt hnat (by decide)

theorem scalar_ascii {s : Scalar} {cs : List Char} (h : s.dumps = some cs)
    (hs : ∀ t, s = .text t → ∀ n ∈ t, IsScalar n) : ∀ c ∈ cs, c.toNat < 128 := by
  cases s with
  | text t =>
    cases h
    exact dumpsText_ascii (hs t rfl)
  | int n =>
    have h' : dumpsInt n = some cs := h
    unfold dumpsInt at h'
    split at h'
    · cases h'
    cases h'
    intro c hc
    rcases List.mem_append.mp hc with hsign | hdigit
    · split at hsign
      · rw [List.mem_singleton.mp hsign]
        decide
      · cases hsign
    · exact decimal_ascii _ c hdigit

theorem dumpsItem_ascii {item : Text × Scalar} {cs : List Char} (h : dumpsItem item = some cs)
    (hw : Written item) : ∀ c ∈ cs, c.toNat < 128 := by
  obtain ⟨value, hv, rfl⟩ := Option.map_eq_some_iff.mp h
  intro c hc
  rcases List.mem_append.mp hc with hkey | htail
  · exact dumpsText_ascii hw.1 c hkey
  rcases List.mem_cons.mp htail with rfl | hvalue
  · decide
  · exact scalar_ascii hv hw.2 c hvalue

theorem dumpsItems_ascii {items : List (Text × Scalar)} {cs : List Char}
    (h : dumpsItems items = some cs) (hw : ∀ i ∈ items, Written i) :
    ∀ c ∈ cs, c.toNat < 128 := by
  induction items generalizing cs with
  | nil =>
    cases h
    intro c hc
    cases hc
  | cons item items ih =>
    cases items with
    | nil => exact dumpsItem_ascii h (hw item List.mem_cons_self)
    | cons next items =>
      obtain ⟨head, hhead, h⟩ := Option.bind_eq_some_iff.mp h
      obtain ⟨tail, htail, h⟩ := Option.bind_eq_some_iff.mp h
      cases h
      intro c hc
      rcases List.mem_append.mp hc with hc | hc
      · exact dumpsItem_ascii hhead (hw item List.mem_cons_self) c hc
      rcases List.mem_cons.mp hc with rfl | hc
      · decide
      · exact ih htail (fun i hi => hw i (List.mem_cons_of_mem item hi)) c hc

theorem dumps_ascii {items : List (Text × Scalar)} {cs : List Char} (h : dumps items = some cs)
    (hw : ∀ i ∈ items, Written i) : ∀ c ∈ cs, c.toNat < 128 := by
  obtain ⟨body, hbody, rfl⟩ := Option.map_eq_some_iff.mp h
  intro c hc
  rcases List.mem_cons.mp hc with rfl | hc
  · decide
  rcases List.mem_append.mp hc with hc | hc
  · exact dumpsItems_ascii hbody hw c hc
  · rw [List.mem_singleton.mp hc]
    decide

theorem decimal_length_le {n k : Nat} (hk : 0 < k) : (decimal n).length ≤ k ↔ n < 10 ^ k := by
  unfold decimal
  split
  · rename_i hzero
    subst hzero
    simp only [List.length_singleton]
    constructor
    · intro _
      exact Nat.pow_pos (by omega)
    · intro _
      exact hk
  · rw [List.length_map, List.length_reverse]
    exact Nat.digits_length_le_iff (by omega) n

theorem dumpsInt_eq_none {n : Int} : dumpsInt n = none ↔ 10 ^ maxStrDigits ≤ n.natAbs := by
  have hlen := decimal_length_le (n := n.natAbs) (k := maxStrDigits) (by decide)
  unfold dumpsInt
  split
  · rename_i hlt
    constructor
    · intro _
      exact Nat.le_of_not_lt fun h => absurd (hlen.mpr h) (by omega)
    · intro _
      rfl
  · rename_i hle
    constructor
    · intro h
      cases h
    · intro h
      exact absurd (hlen.mp (Nat.le_of_not_lt hle)) (Nat.not_lt.mpr h)

theorem dumpsItem_eq_none {item : Text × Scalar} :
    dumpsItem item = none ↔ item.2.dumps = none := Option.map_eq_none_iff

theorem dumpsItems_eq_none {items : List (Text × Scalar)} :
    dumpsItems items = none ↔ ∃ i ∈ items, i.2.dumps = none := by
  induction items with
  | nil => simp [dumpsItems]
  | cons item items ih =>
    cases items with
    | nil => simp [dumpsItems, dumpsItem_eq_none]
    | cons next items =>
      rw [List.exists_mem_cons_iff, ← ih, ← dumpsItem_eq_none, dumpsItems]
      cases dumpsItem item <;> cases dumpsItems (next :: items) <;> simp

theorem dumps_eq_none {items : List (Text × Scalar)} :
    dumps items = none ↔ ∃ i ∈ items, i.2.dumps = none :=
  Option.map_eq_none_iff.trans dumpsItems_eq_none

end PyJson

import SwitchTrade.Transition.Fallible

/-!
# JSON as Python reads it

`loads` is `json.loads` of a text of ASCII characters: the grammar of its scanner, with the
constants `NaN`, `Infinity` and `-Infinity`, two halves of a surrogate pair joined, a single
half kept, the last of several equal keys winning, and the two limits of the interpreter: the
depth it may nest to and the number of digits an integer may have. The loops over the items
of a container have fuel, and it is enough (`members_fuel`, `elements_fuel`).
-/

namespace PyJson

open Fallible

/-- A `str`: its code points, which may be surrogates. -/
abbrev Text := List Nat

/-- A value `json.loads` returns; a float by its literal. -/
inductive Value where
  | null
  | bool (b : Bool)
  | int (n : Int)
  | float (literal : List Char)
  | text (t : Text)
  | list (items : List Value)
  | dict (items : List (Text × Value))

/-- The two ways a scan ends without a value: a `ValueError` and a `RecursionError`. -/
inductive Failure where
  | invalid
  | tooDeep
  deriving DecidableEq, Repr

/-- A scan from a place in the text: what it read, and what is left. -/
abbrev Scanner (α : Type) := List Char → Except Failure (α × List Char)

/-- `sys.int_info.default_max_str_digits`. -/
def maxStrDigits : Nat := 4300

def isSpace (c : Char) : Bool := c = ' ' || c = '\t' || c = '\n' || c = '\r'

def skip (cs : List Char) : List Char := cs.dropWhile isSpace

/-! ## Strings -/

def hexValue (c : Char) : Option Nat :=
  if '0' ≤ c ∧ c ≤ '9' then some (c.toNat - 48)
  else if 'a' ≤ c ∧ c ≤ 'f' then some (c.toNat - 87)
  else if 'A' ≤ c ∧ c ≤ 'F' then some (c.toNat - 55)
  else none

/-- The number four hexadecimal digits write. -/
def unit (a b c d : Char) : Option Nat := do
  let a ← hexValue a
  let b ← hexValue b
  let c ← hexValue c
  let d ← hexValue d
  return 4096 * a + 256 * b + 16 * c + d

/-- The character after a backslash. -/
def unescape (c : Char) : Option Nat :=
  if c = '"' ∨ c = '\\' ∨ c = '/' then some c.toNat
  else if c = 'b' then some 8
  else if c = 'f' then some 12
  else if c = 'n' then some 10
  else if c = 'r' then some 13
  else if c = 't' then some 9
  else none

def isHigh (u : Nat) : Bool := 0xD800 ≤ u ∧ u ≤ 0xDBFF

def isLow (u : Nat) : Bool := 0xDC00 ≤ u ∧ u ≤ 0xDFFF

/-- A high surrogate and the low one right after it are one character. -/
def join : Text → Text
  | [] => []
  | [u] => [u]
  | u :: v :: us =>
    if isHigh u && isLow v then (0x10000 + (u - 0xD800) * 0x400 + (v - 0xDC00)) :: join us
    else u :: join (v :: us)

/-- The rest of a string, up to its closing quote. -/
def stringBody : List Char → Option (Text × List Char)
  | [] => none
  | '"' :: cs => some ([], cs)
  | '\\' :: 'u' :: a :: b :: c :: d :: cs => do
    let u ← unit a b c d
    let (us, cs) ← stringBody cs
    return (u :: us, cs)
  | '\\' :: c :: cs => do
    let u ← unescape c
    let (us, cs) ← stringBody cs
    return (u :: us, cs)
  | c :: cs =>
    if c.toNat < 32 ∨ c = '\\' then none
    else do
      let (us, cs) ← stringBody cs
      return (c.toNat :: us, cs)

/-- A string, after its opening quote. -/
def scanString (cs : List Char) : Except Failure (Text × List Char) :=
  match stringBody cs with
  | some (us, cs) => .ok (join us, cs)
  | none => .error .invalid

/-! ## Numbers -/

def isDigit (c : Char) : Bool := '0' ≤ c ∧ c ≤ '9'

/-- The number decimal digits write. -/
def ofDigits (cs : List Char) : Nat := cs.foldl (fun n c => 10 * n + (c.toNat - 48)) 0

/-- The integer part of a number. -/
def integerPart : List Char → Option (List Char × List Char)
  | [] => none
  | c :: cs =>
    if c = '0' then some (['0'], cs)
    else if isDigit c then some (c :: cs.takeWhile isDigit, cs.dropWhile isDigit)
    else none

/-- The fraction of a number, if there is one. -/
def fraction : List Char → List Char × List Char
  | '.' :: c :: cs =>
    if isDigit c then ('.' :: c :: cs.takeWhile isDigit, cs.dropWhile isDigit)
    else ([], '.' :: c :: cs)
  | cs => ([], cs)

/-- The digits of an exponent, after its letter and sign. -/
def exponentDigits (head cs : List Char) : Option (List Char × List Char) :=
  if (cs.takeWhile isDigit).isEmpty then none
  else some (head ++ cs.takeWhile isDigit, cs.dropWhile isDigit)

/-- The exponent of a number, if there is one. -/
def exponent (cs : List Char) : List Char × List Char :=
  (match cs with
    | e :: sign :: rest =>
      if e = 'e' ∨ e = 'E' then
        if sign = '+' ∨ sign = '-' then exponentDigits [e, sign] rest
        else exponentDigits [e] (sign :: rest)
      else none
    | _ => none).getD ([], cs)

/-- `_match_number_unicode`, after the sign. -/
def scanUnsigned (negative : Bool) (cs : List Char) : Except Failure (Value × List Char) :=
  match integerPart cs with
  | none => .error .invalid
  | some (digits, cs) =>
    let (frac, cs) := fraction cs
    let (exp, cs) := exponent cs
    if frac.isEmpty && exp.isEmpty then
      if maxStrDigits < digits.length then .error .invalid
      else .ok (.int (if negative then -(ofDigits digits : Int) else ofDigits digits), cs)
    else .ok (.float ((if negative then ['-'] else []) ++ digits ++ frac ++ exp), cs)

/-! ## Values -/

/-- The items of an object, from the first key on; the fuel bounds their number. -/
def members (value : Scanner Value) : Nat → Scanner (List (Text × Value))
  | 0, _ => .error .invalid
  | fuel + 1, '"' :: cs => do
    let (key, cs) ← scanString cs
    match skip cs with
    | ':' :: cs => do
      let (item, cs) ← value (skip cs)
      match skip cs with
      | '}' :: cs => .ok ([(key, item)], cs)
      | ',' :: cs => do
        let (items, cs) ← members value fuel (skip cs)
        .ok ((key, item) :: items, cs)
      | _ => .error .invalid
    | _ => .error .invalid
  | _ + 1, _ => .error .invalid

/-- The items of an array, from the first on. -/
def elements (value : Scanner Value) : Nat → Scanner (List Value)
  | 0, _ => .error .invalid
  | fuel + 1, cs => do
    let (item, cs) ← value cs
    match skip cs with
    | ']' :: cs => .ok ([item], cs)
    | ',' :: cs => do
      let (items, cs) ← elements value fuel (skip cs)
      .ok (item :: items, cs)
    | _ => .error .invalid

/-- What is neither a string nor a container. -/
def scanAtom : Scanner Value
  | 'n' :: 'u' :: 'l' :: 'l' :: cs => .ok (.null, cs)
  | 't' :: 'r' :: 'u' :: 'e' :: cs => .ok (.bool true, cs)
  | 'f' :: 'a' :: 'l' :: 's' :: 'e' :: cs => .ok (.bool false, cs)
  | 'N' :: 'a' :: 'N' :: cs => .ok (.float "NaN".toList, cs)
  | 'I' :: 'n' :: 'f' :: 'i' :: 'n' :: 'i' :: 't' :: 'y' :: cs =>
    .ok (.float "Infinity".toList, cs)
  | '-' :: 'I' :: 'n' :: 'f' :: 'i' :: 'n' :: 'i' :: 't' :: 'y' :: cs =>
    .ok (.float "-Infinity".toList, cs)
  | '-' :: cs => scanUnsigned true cs
  | cs => scanUnsigned false cs

/-- `scan_once`, with what is left of the interpreter's depth. -/
def scan : Nat → Scanner Value
  | _, '"' :: cs => do
    let (t, cs) ← scanString cs
    .ok (.text t, cs)
  | 0, '\x7b' :: _ => .error .tooDeep
  | 0, '[' :: _ => .error .tooDeep
  | depth + 1, '\x7b' :: cs =>
    match skip cs with
    | '}' :: cs => .ok (.dict [], cs)
    | cs => do
      let (items, cs) ← members (scan depth) cs.length cs
      .ok (.dict items, cs)
  | depth + 1, '[' :: cs =>
    match skip cs with
    | ']' :: cs => .ok (.list [], cs)
    | cs => do
      let (items, cs) ← elements (scan depth) cs.length cs
      .ok (.list items, cs)
  | _, cs => scanAtom cs

/-- `json.loads`. -/
def loads (depth : Nat) (cs : List Char) : Except Failure Value := do
  let (value, cs) ← scan depth (skip cs)
  if (skip cs).isEmpty then .ok value else .error .invalid

/-- `items.get(key)`: the last item of the key. -/
def lookup (items : List (Text × Value)) (key : Text) : Option Value :=
  (items.reverse.find? fun item => item.1 = key).map Prod.snd

/-! ## The fuel does not run out

Every scanner consumes a character, so the length of the text bounds the items in it. -/

def Shortens {α : Type} (f : Scanner α) : Prop :=
  ∀ cs a rest, f cs = .ok (a, rest) → rest.length < cs.length

theorem skip_length (cs : List Char) : (skip cs).length ≤ cs.length :=
  (List.dropWhile_sublist _).length_le

theorem bind_congr_ok {α β : Type} {x : Except Failure α} {f g : α → Except Failure β}
    (h : ∀ a, x = .ok a → f a = g a) : (x >>= f) = x >>= g := by
  cases x with
  | error e => rfl
  | ok a => exact h a rfl

theorem stringBody_shortens {cs rest : List Char} {us : Text}
    (h : stringBody cs = some (us, rest)) : rest.length < cs.length := by
  induction cs using stringBody.induct generalizing us with
  | case1 => cases h
  | case2 cs =>
    cases h
    exact Nat.lt_succ_self _
  | case3 a b c d cs ih =>
    rw [stringBody.eq_3] at h
    obtain ⟨u, -, h⟩ := Option.bind_eq_some_iff.mp h
    obtain ⟨⟨vs, tail⟩, htail, h⟩ := Option.bind_eq_some_iff.mp h
    cases h
    have := ih htail
    simp only [List.length_cons]
    omega
  | case4 c cs hu ih =>
    rw [stringBody.eq_4 _ _ hu] at h
    obtain ⟨u, -, h⟩ := Option.bind_eq_some_iff.mp h
    obtain ⟨⟨vs, tail⟩, htail, h⟩ := Option.bind_eq_some_iff.mp h
    cases h
    have := ih htail
    simp only [List.length_cons]
    omega
  | case5 c cs hq hu hb hc =>
    rw [stringBody.eq_5 _ _ hq hu hb, if_pos hc] at h
    cases h
  | case6 c cs hq hu hb hc ih =>
    rw [stringBody.eq_5 _ _ hq hu hb, if_neg hc] at h
    obtain ⟨⟨vs, tail⟩, htail, h⟩ := Option.bind_eq_some_iff.mp h
    cases h
    have := ih htail
    simp only [List.length_cons]
    omega

theorem scanString_shortens : Shortens scanString := by
  intro cs t rest h
  unfold scanString at h
  split at h
  · rename_i us tail hbody
    cases h
    exact stringBody_shortens hbody
  · cases h

theorem length_of_skip {cs tail : List Char} {c : Char} (h : skip cs = c :: tail) :
    tail.length < cs.length := by
  have hle := skip_length cs
  rw [h, List.length_cons] at hle
  omega

theorem members_shortens {value : Scanner Value} (hv : Shortens value) (fuel : Nat) :
    Shortens (members value fuel) := by
  induction fuel with
  | zero =>
    intro cs items rest h
    cases h
  | succ fuel ih =>
    intro cs items rest h
    unfold members at h
    split at h
    · cases h
    · rename_i fuel' cs₀ heq
      cases heq
      obtain ⟨⟨key, cs₁⟩, h₁, h⟩ := bind_eq_ok.mp h
      have l₁ := scanString_shortens _ _ _ h₁
      dsimp only at h
      split at h
      · rename_i cs₂ h₂
        have l₂ := length_of_skip h₂
        obtain ⟨⟨item, cs₃⟩, h₃, h⟩ := bind_eq_ok.mp h
        have l₃ := hv _ _ _ h₃
        have l₃' := skip_length cs₂
        dsimp only at h
        split at h
        · rename_i cs₄ h₄
          have l₄ := length_of_skip h₄
          cases h
          simp only [List.length_cons]
          omega
        · rename_i cs₄ h₄
          have l₄ := length_of_skip h₄
          obtain ⟨⟨others, cs₅⟩, h₅, h⟩ := bind_eq_ok.mp h
          have l₅ := ih _ _ _ h₅
          have l₅' := skip_length cs₄
          cases h
          simp only [List.length_cons]
          omega
        · cases h
      · cases h
    · cases h

theorem elements_shortens {value : Scanner Value} (hv : Shortens value) (fuel : Nat) :
    Shortens (elements value fuel) := by
  induction fuel with
  | zero =>
    intro cs items rest h
    cases h
  | succ fuel ih =>
    intro cs items rest h
    unfold elements at h
    obtain ⟨⟨item, cs₁⟩, h₁, h⟩ := bind_eq_ok.mp h
    have l₁ := hv _ _ _ h₁
    dsimp only at h
    split at h
    · rename_i cs₂ h₂
      have l₂ := length_of_skip h₂
      cases h
      omega
    · rename_i cs₂ h₂
      have l₂ := length_of_skip h₂
      obtain ⟨⟨others, cs₃⟩, h₃, h⟩ := bind_eq_ok.mp h
      have l₃ := ih _ _ _ h₃
      have l₃' := skip_length cs₂
      cases h
      show cs₃.length < cs.length
      omega
    · cases h

theorem fraction_length (cs : List Char) : (fraction cs).2.length ≤ cs.length := by
  unfold fraction
  split
  · rename_i c cs
    split
    · have := (List.dropWhile_sublist isDigit (l := cs)).length_le
      simp only [List.length_cons]
      omega
    · exact Nat.le_refl _
  · exact Nat.le_refl _

theorem exponentDigits_length {head cs ds rest : List Char}
    (h : exponentDigits head cs = some (ds, rest)) : rest.length ≤ cs.length := by
  unfold exponentDigits at h
  split at h
  · cases h
  · cases h
    exact (List.dropWhile_sublist isDigit).length_le

theorem exponent_length (cs : List Char) : (exponent cs).2.length ≤ cs.length := by
  unfold exponent
  split
  · rename_i e sign rest
    split
    · split
      · cases h : exponentDigits [e, sign] rest with
        | none => exact Nat.le_refl _
        | some p =>
          have := exponentDigits_length h
          simp only [Option.getD_some, List.length_cons]
          omega
      · cases h : exponentDigits [e] (sign :: rest) with
        | none => exact Nat.le_refl _
        | some p =>
          have := exponentDigits_length h
          simp only [Option.getD_some, List.length_cons] at this ⊢
          omega
    · exact Nat.le_refl _
  · exact Nat.le_refl _

theorem integerPart_shortens {cs ds rest : List Char} (h : integerPart cs = some (ds, rest)) :
    rest.length < cs.length := by
  unfold integerPart at h
  split at h
  · cases h
  · rename_i c cs
    split at h
    · cases h
      exact Nat.lt_succ_self _
    · split at h
      · cases h
        have := (List.dropWhile_sublist isDigit (l := cs)).length_le
        simp only [List.length_cons]
        omega
      · cases h

theorem scanUnsigned_shortens (negative : Bool) : Shortens (scanUnsigned negative) := by
  intro cs value rest h
  unfold scanUnsigned at h
  split at h
  · cases h
  · rename_i digits cs₁ h₁
    dsimp only at h
    have l₁ := integerPart_shortens h₁
    have l₂ := fraction_length cs₁
    have l₃ := exponent_length (fraction cs₁).2
    have hrest : rest = (exponent (fraction cs₁).2).2 := by
      split at h
      · split at h <;> cases h
        rfl
      · cases h
        rfl
    rw [hrest]
    omega

theorem scanAtom_shortens : Shortens scanAtom := by
  intro cs value rest h
  unfold scanAtom at h
  split at h
  all_goals first
    | (cases h; simp only [List.length_cons]; omega)
    | skip
  · have := scanUnsigned_shortens true _ _ _ h
    simp only [List.length_cons]
    omega
  · exact scanUnsigned_shortens false _ _ _ h

theorem scan_shortens (depth : Nat) : Shortens (scan depth) := by
  induction depth with
  | zero =>
    intro cs value rest h
    unfold scan at h
    split at h
    · obtain ⟨⟨t, cs₁⟩, h₁, h⟩ := bind_eq_ok.mp h
      have l₁ := scanString_shortens _ _ _ h₁
      cases h
      simp only [List.length_cons]
      omega
    all_goals first
      | exact scanAtom_shortens _ _ _ h
      | contradiction
  | succ depth ih =>
    intro cs value rest h
    unfold scan at h
    split at h
    · obtain ⟨⟨t, cs₁⟩, h₁, h⟩ := bind_eq_ok.mp h
      have l₁ := scanString_shortens _ _ _ h₁
      cases h
      simp only [List.length_cons]
      omega
    · contradiction
    · contradiction
    · rename_i depth' cs₀ heq
      cases heq
      split at h
      · rename_i cs₁ h₁
        have l₁ := length_of_skip h₁
        cases h
        simp only [List.length_cons]
        omega
      · obtain ⟨⟨items, cs₂⟩, h₂, h⟩ := bind_eq_ok.mp h
        have l₂ := members_shortens ih _ _ _ _ h₂
        have l₁ := skip_length cs₀
        cases h
        simp only [List.length_cons]
        omega
    · rename_i depth' cs₀ heq
      cases heq
      split at h
      · rename_i cs₁ h₁
        have l₁ := length_of_skip h₁
        cases h
        simp only [List.length_cons]
        omega
      · obtain ⟨⟨items, cs₂⟩, h₂, h⟩ := bind_eq_ok.mp h
        have l₂ := elements_shortens ih _ _ _ _ h₂
        have l₁ := skip_length cs₀
        cases h
        simp only [List.length_cons]
        omega
    · exact scanAtom_shortens _ _ _ h

/-- With as much fuel as there are characters, more of it makes no difference. -/
theorem members_fuel {value : Scanner Value} (hv : Shortens value) {n m : Nat} {cs : List Char}
    (hn : cs.length ≤ n) (hm : cs.length ≤ m) : members value n cs = members value m cs := by
  induction n generalizing m cs with
  | zero =>
    have hnil : cs = [] := List.length_eq_zero_iff.mp (by omega)
    subst hnil
    cases m <;> rfl
  | succ n ih =>
    cases m with
    | zero =>
      have hnil : cs = [] := List.length_eq_zero_iff.mp (by omega)
      subst hnil
      rfl
    | succ m =>
      cases cs with
      | nil => rfl
      | cons c cs =>
        by_cases hc : c = '"'
        · subst hc
          simp only [List.length_cons] at hn hm
          rw [members, members]
          apply bind_congr_ok
          rintro ⟨key, cs₁⟩ h₁
          have l₁ := scanString_shortens _ _ _ h₁
          dsimp only
          split
          · rename_i cs₂ h₂
            have l₂ := length_of_skip h₂
            apply bind_congr_ok
            rintro ⟨item, cs₃⟩ h₃
            have l₃ := hv _ _ _ h₃
            have l₃' := skip_length cs₂
            dsimp only
            split
            · rfl
            · rename_i cs₄ h₄
              have l₄ := length_of_skip h₄
              have l₄' := skip_length cs₄
              rw [ih (m := m) (by omega) (by omega)]
            · rfl
          · rfl
        · rw [members.eq_3 _ _ _ (fun cs' he => hc (List.cons.inj he).1),
            members.eq_3 _ _ _ (fun cs' he => hc (List.cons.inj he).1)]

theorem elements_fuel {value : Scanner Value} (hv : Shortens value) {n m : Nat} {cs : List Char}
    (hn : cs.length ≤ n) (hm : cs.length ≤ m) (hcs : cs ≠ []) :
    elements value n cs = elements value m cs := by
  induction n generalizing m cs with
  | zero => exact absurd (List.length_eq_zero_iff.mp (by omega)) hcs
  | succ n ih =>
    cases m with
    | zero => exact absurd (List.length_eq_zero_iff.mp (by omega)) hcs
    | succ m =>
      rw [elements, elements]
      apply bind_congr_ok
      rintro ⟨item, cs₁⟩ h₁
      have l₁ := hv _ _ _ h₁
      dsimp only
      split
      · rfl
      · rename_i cs₂ h₂
        have l₂ := length_of_skip h₂
        have l₂' := skip_length cs₂
        by_cases hnil : skip cs₂ = []
        · -- a comma at the end of the text: no value follows it
          obtain ⟨n, rfl⟩ : ∃ k, n = k + 1 := ⟨n - 1, by omega⟩
          obtain ⟨m, rfl⟩ : ∃ k, m = k + 1 := ⟨m - 1, by omega⟩
          have hempty : elements value (n + 1) (skip cs₂) = elements value (m + 1) (skip cs₂) := by
            rw [hnil, elements, elements]
            apply bind_congr_ok
            rintro ⟨item', rest⟩ hv'
            exact absurd (hv _ _ _ hv') (Nat.not_lt_zero _)
          rw [hempty]
        · rw [ih (m := m) (by omega) (by omega) hnil]
      · rfl

end PyJson

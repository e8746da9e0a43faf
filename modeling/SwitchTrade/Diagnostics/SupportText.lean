import SwitchTrade.Diagnostics.Redaction
import SwitchTrade.Pia.Texts

/-!
# The bounded tail of a support text

`_bounded_support_text` takes the last bytes of a file, decodes them and redacts what it got. The
redaction of the whole file is never made, so a secret whose label is cut off is not one any more.

Marks say which bytes of the file a letter of the output stands for. A byte is hidden if redacting
the whole text removes it. For a limit that `read` takes and a length of file the bounded text keeps
every hidden byte back, and says nothing about them, only if nothing is cut off, nothing is shown,
or the file is too short for any secret.
-/

namespace SwitchTrade.Diagnostics

abbrev Bytes := List UInt8

/-- A letter of a decoded text with the bytes it stands for. -/
abbrev Marked := Char × List Nat

/-- `data.decode("utf-8", errors="replace")` with the bytes of each letter; `offset` is the place of
the first byte in the file. -/
def decodeMarkedFuel : Nat → Nat → Bytes → List Marked
  | 0, _, _ => []
  | _ + 1, _, [] => []
  | fuel + 1, offset, lead :: rest =>
    let step := Pia.utf8Step lead rest
    (step.1, List.range' offset (step.2 + 1)) ::
      decodeMarkedFuel fuel (offset + (step.2 + 1)) (rest.drop step.2)

def decodeMarked (offset : Nat) (raw : Bytes) : List Marked :=
  decodeMarkedFuel raw.length offset raw

/-- The bytes a text stands for. -/
def marks (text : List Marked) : List Nat := text.flatMap Prod.snd

/-- Where the tail begins: `max(0, size - limit)`. -/
def tailStart (size : Nat) (limit : Int) : Nat := (max 0 ((size : Int) - limit)).toNat

/-- What is read from there: `-1` reads to the end, and below that `read` raises `ValueError`, which
the handler for `OSError` lets through. -/
def tailData (raw : Bytes) (limit : Int) : Option Bytes :=
  let rest := raw.drop (tailStart raw.length limit)
  if limit < -1 then none
  else if limit < 0 then some rest
  else some (rest.take limit.toNat)

/-- The line that says how much was cut off. -/
def truncatedLine (size read : Nat) : List Char :=
  if read < size then
    "[truncated ".toList ++ Nat.toDigits 10 (size - read) ++ " bytes]\n".toList
  else []

variable (alnum : Char → Bool)

/-- `_bounded_support_text` of a file that can be read; `none` if the read raises `ValueError`. -/
def boundedSupportText (raw : Bytes) (limit : Int) : Option (List Char) :=
  (tailData raw limit).map fun data =>
    redactText id id alnum (truncatedLine raw.length data.length ++ Pia.decodeUtf8 data)

/-- The same with the bytes each letter stands for. -/
def boundedMarked (raw : Bytes) (limit : Int) : Option (List Marked) :=
  (tailData raw limit).map fun data =>
    redactText Prod.fst (fun c => (c, [])) alnum
      ((truncatedLine raw.length data.length).map (fun c => (c, [])) ++
        decodeMarked (tailStart raw.length limit) data)

/-- The redaction of the whole file. -/
def wholeMarked (raw : Bytes) : List Marked :=
  redactText Prod.fst (fun c => (c, [])) alnum (decodeMarked 0 raw)

/-- Redacting the whole text removes the byte. -/
def Hidden (raw : Bytes) (k : Nat) : Prop := k < raw.length ∧ k ∉ marks (wholeMarked alnum raw)

/-- The two contents differ only in bytes that the redaction of the whole text removes. -/
structure DifferInSecrets (a b : Bytes) : Prop where
  length : a.length = b.length
  outside : ∀ k, ¬ (Hidden alnum a k ∧ Hidden alnum b k) → a[k]? = b[k]?
  redacted : redactText id id alnum (Pia.decodeUtf8 a) = redactText id id alnum (Pia.decodeUtf8 b)

/-! ## Decoding with marks -/

variable {alnum} {a b raw : Bytes} {limit : Int} {offset fuel n : Nat}

theorem utf8Tail_length_le (low high : UInt8) (more : Nat) (rest : Bytes) :
    (Pia.utf8Tail low high more rest).length ≤ rest.length := by
  induction more generalizing low high rest with
  | zero => exact Nat.zero_le _
  | succ more ih =>
    cases rest with
    | nil => exact Nat.le_refl 0
    | cons byte rest =>
      rw [Pia.utf8Tail]
      split
      · exact Nat.succ_le_succ (ih _ _ rest)
      · exact Nat.zero_le _

theorem utf8Step_le (lead : UInt8) (rest : Bytes) : (Pia.utf8Step lead rest).2 ≤ rest.length := by
  unfold Pia.utf8Step
  split
  · exact Nat.zero_le _
  · exact utf8Tail_length_le _ _ _ _

theorem decodeMarked_fst : (decodeMarked offset raw).map Prod.fst = Pia.decodeUtf8 raw := by
  have hall : ∀ fuel offset raw,
      (decodeMarkedFuel fuel offset raw).map Prod.fst = Pia.decodeUtf8Fuel fuel raw := by
    intro fuel
    induction fuel with
    | zero =>
      intro offset raw
      rfl
    | succ fuel ih =>
      intro offset raw
      cases raw with
      | nil => rfl
      | cons lead rest =>
        show (Pia.utf8Step lead rest).1 :: List.map Prod.fst _ = _
        rw [ih]
        rfl
  exact hall raw.length offset raw

/-- The letters stand for the bytes, one after the other. -/
theorem marks_decodeMarked : marks (decodeMarked offset raw) = List.range' offset raw.length := by
  have hall : ∀ fuel offset raw, raw.length ≤ fuel →
      marks (decodeMarkedFuel fuel offset raw) = List.range' offset raw.length := by
    intro fuel
    induction fuel with
    | zero =>
      intro offset raw hle
      cases List.eq_nil_of_length_eq_zero (Nat.le_zero.mp hle)
      rfl
    | succ fuel ih =>
      intro offset raw hle
      cases raw with
      | nil => rfl
      | cons lead rest =>
        have hstep := utf8Step_le lead rest
        rw [List.length_cons] at hle
        show List.range' offset ((Pia.utf8Step lead rest).2 + 1) ++ marks _ = _
        rw [ih _ _ (by rw [List.length_drop]; omega), List.length_drop, List.range'_append_1]
        congr 1
        rw [List.length_cons]
        omega
  exact hall raw.length offset raw (Nat.le_refl _)

theorem length_decodeMarked_le : (decodeMarked offset raw).length ≤ raw.length := by
  have hall : ∀ fuel offset raw, (decodeMarkedFuel fuel offset raw).length ≤ fuel := by
    intro fuel
    induction fuel with
    | zero =>
      intro offset raw
      exact Nat.le_refl 0
    | succ fuel ih =>
      intro offset raw
      cases raw with
      | nil => exact Nat.zero_le _
      | cons lead rest => exact Nat.succ_le_succ (ih _ _)
  exact hall raw.length offset raw

/-- The marks are beside the text: what the letters of the marked output are is the output. -/
theorem boundedMarked_fst :
    (boundedMarked alnum raw limit).map (List.map Prod.fst) =
      boundedSupportText alnum raw limit := by
  unfold boundedMarked boundedSupportText
  cases tailData raw limit with
  | none => rfl
  | some data =>
    have hmap := @redactText_map Marked Char Prod.fst (fun c => (c, [])) alnum
      ((truncatedLine raw.length data.length).map (fun c => (c, [])) ++
        decodeMarked (tailStart raw.length limit) data) Prod.fst id (fun _ => rfl)
    rw [List.map_append, decodeMarked_fst, List.map_map] at hmap
    have hline : ∀ line : List Char, line.map (Prod.fst ∘ fun c => ((c, []) : Marked)) = line := by
      intro line
      exact List.map_id line
    rw [hline] at hmap
    exact congrArg some hmap.symm

theorem marks_append (xs ys : List Marked) : marks (xs ++ ys) = marks xs ++ marks ys :=
  List.flatMap_append

theorem marks_unmarked (line : List Char) : marks (line.map fun c => (c, [])) = [] := by
  induction line with
  | nil => rfl
  | cons c line ih => exact ih

/-- A mark of a redacted text is one of the text. -/
theorem marks_redactText_subset {text : List Marked} :
    marks (redactText Prod.fst (fun c => (c, [])) alnum text) ⊆ marks text := by
  intro k hk
  obtain ⟨letter, hletter, hk⟩ := List.mem_flatMap.mp hk
  rcases mem_redactText hletter with hletter | ⟨c, rfl⟩
  · exact List.mem_flatMap.mpr ⟨letter, hletter, hk⟩
  · cases hk

/-! ## Where nothing leaks -/

/-- A file that fits the limit is redacted as a whole. -/
theorem boundedMarked_of_le (h : (raw.length : Int) ≤ limit) :
    boundedMarked alnum raw limit = some (wholeMarked alnum raw) := by
  have hstart : tailStart raw.length limit = 0 := by
    unfold tailStart
    omega
  have hdata : tailData raw limit = some raw := by
    unfold tailData
    rw [hstart]
    dsimp only
    rw [if_neg (by omega), if_neg (by omega), List.drop_zero, List.take_of_length_le (by omega)]
  unfold boundedMarked wholeMarked
  rw [hdata, hstart, Option.map_some, truncatedLine, if_neg (Nat.lt_irrefl _)]
  rfl

theorem boundedSupportText_of_le (h : (raw.length : Int) ≤ limit) :
    boundedSupportText alnum raw limit = some (redactText id id alnum (Pia.decodeUtf8 raw)) := by
  have hwhole := @redactText_map Marked Char Prod.fst (fun c => (c, [])) alnum
    (decodeMarked 0 raw) Prod.fst id (fun _ => rfl)
  rw [decodeMarked_fst] at hwhole
  rw [← boundedMarked_fst, boundedMarked_of_le h]
  exact congrArg some hwhole.symm

/-- With no room nothing of the file is read. -/
theorem tailData_of_nonpos (hlow : -1 ≤ limit) (h : limit ≤ 0) : tailData raw limit = some [] := by
  unfold tailData
  dsimp only
  rw [if_neg (by omega)]
  by_cases hneg : limit < 0
  · rw [if_pos hneg, Option.some_inj, List.drop_eq_nil_iff]
    unfold tailStart
    omega
  · rw [if_neg hneg, Option.some_inj, List.take_eq_nil_iff]
    left
    omega

/-- Below `-1` every file raises. -/
theorem boundedSupportText_of_lt (h : limit < -1) : boundedSupportText alnum raw limit = none := by
  unfold boundedSupportText tailData
  dsimp only
  rw [if_pos h, Option.map_none]

theorem exists_tailData (h : -1 ≤ limit) (raw : Bytes) :
    ∃ data, tailData raw limit = some data := by
  unfold tailData
  dsimp only
  rw [if_neg (by omega)]
  split
  · exact ⟨_, rfl⟩
  · exact ⟨_, rfl⟩

/-- A file too short for a secret has none. -/
theorem not_hidden_of_short (h : raw.length < 7) (k : Nat) : ¬ Hidden alnum raw k := by
  rintro ⟨hk, hnot⟩
  apply hnot
  have hlen := @length_decodeMarked_le raw 0
  rw [wholeMarked, redactText_of_short (by omega), marks_decodeMarked, List.mem_range'_1]
  omega

theorem eq_of_short (h : DifferInSecrets alnum a b) (ha : a.length < 7) : a = b := by
  apply List.ext_getElem?
  intro k
  apply h.outside
  rintro ⟨hhidden, -⟩
  exact not_hidden_of_short ha k hhidden

/-! ## Where the label is cut off -/

/-- The bytes of an ASCII text. -/
def ascii (s : List Char) : Bytes := s.map fun c => UInt8.ofNat c.toNat

/-- A file that is one secret. -/
def secretText (v : Char) (m : Nat) : List Char :=
  ['t', 'o', 'k', 'e', 'n', '='] ++ List.replicate m v

theorem utf8Step_ascii {c : Char} (h : c.toNat < 128) (rest : Bytes) :
    Pia.utf8Step (UInt8.ofNat c.toNat) rest = (c, 0) := by
  have hbyte : (UInt8.ofNat c.toNat).toNat = c.toNat := by
    rw [UInt8.toNat_ofNat']
    omega
  have hlt : UInt8.ofNat c.toNat < 0x80 := by
    rw [UInt8.lt_iff_toNat_lt, hbyte]
    exact h
  unfold Pia.utf8Step Pia.utf8Lead
  rw [if_pos hlt]
  show (Char.ofNat ((UInt8.ofNat c.toNat).toNat % 128), 0) = (c, 0)
  rw [hbyte, Nat.mod_eq_of_lt h, Char.ofNat_toNat]

theorem decodeMarked_ascii_cons {c : Char} {s : List Char} (h : c.toNat < 128) :
    decodeMarked offset (ascii (c :: s)) =
      (c, [offset]) :: decodeMarked (offset + 1) (ascii s) := by
  unfold decodeMarked ascii
  rw [List.map_cons, List.length_cons, decodeMarkedFuel, utf8Step_ascii h]
  rfl

theorem decodeUtf8_ascii {s : List Char} (h : ∀ c ∈ s, c.toNat < 128) :
    Pia.decodeUtf8 (ascii s) = s := by
  have hall : ∀ offset, (decodeMarked offset (ascii s)).map Prod.fst = s := by
    induction s with
    | nil =>
      intro offset
      rfl
    | cons c s ih =>
      intro offset
      rw [decodeMarked_ascii_cons (h c List.mem_cons_self), List.map_cons,
        ih fun d hd => h d (List.mem_cons_of_mem c hd)]
  rw [← @decodeMarked_fst (ascii s) 0, hall 0]

variable {v : Char} {m : Nat}

theorem secretText_ascii (hv : v = 'x' ∨ v = 'y') : ∀ c ∈ secretText v m, c.toNat < 128 := by
  intro c hc
  rcases List.mem_append.mp hc with hc | hc
  · have hlabel : ∀ c ∈ ['t', 'o', 'k', 'e', 'n', '='], c.toNat < 128 :=
      forall_of_all (by decide)
    exact hlabel c hc
  · rw [(List.mem_replicate.mp hc).2]
    rcases hv with rfl | rfl
    · decide
    · decide

theorem length_secretText : (ascii (secretText v m)).length = m + 6 := by
  rw [ascii, List.length_map, secretText, List.length_append, List.length_replicate]
  show 6 + m = m + 6
  omega

/-- The redaction of the whole file leaves the label. -/
theorem marks_secretText (hv : v = 'x' ∨ v = 'y') :
    marks (wholeMarked alnum (ascii (secretText v (m + 1)))) = [0, 1, 2, 3, 4] := by
  have htext : (decodeMarked 0 (ascii (secretText v (m + 1)))).map Prod.fst =
      ['t', 'o', 'k', 'e', 'n', '='] ++ List.replicate (m + 1) v := by
    rw [decodeMarked_fst, decodeUtf8_ascii (secretText_ascii hv)]
    rfl
  have hlabel : ∀ rest, (decodeMarked 0 (ascii ('t' :: 'o' :: 'k' :: 'e' :: 'n' :: rest))).take 5 =
      [('t', [0]), ('o', [1]), ('k', [2]), ('e', [3]), ('n', [4])] := by
    intro rest
    rw [decodeMarked_ascii_cons (by decide), decodeMarked_ascii_cons (by decide),
      decodeMarked_ascii_cons (by decide), decodeMarked_ascii_cons (by decide),
      decodeMarked_ascii_cons (by decide)]
    rfl
  rw [wholeMarked, redactText_assignment hv (fun _ => rfl) htext, marks_append, marks_unmarked]
  show marks ((decodeMarked 0 (ascii ('t' :: 'o' :: 'k' :: 'e' :: 'n' :: _))).take 5) ++ [] = _
  rw [hlabel]
  rfl

theorem redactText_secretText (hv : v = 'x' ∨ v = 'y') :
    redactText id id alnum (Pia.decodeUtf8 (ascii (secretText v (m + 1)))) =
      "token=<redacted>".toList := by
  have htext : (secretText v (m + 1)).map id =
      ['t', 'o', 'k', 'e', 'n', '='] ++ List.replicate (m + 1) v := List.map_id _
  have hlit : ∀ c : Char, id (id c) = c := fun _ => rfl
  rw [decodeUtf8_ascii (secretText_ascii hv), redactText_assignment hv hlit htext]
  rfl

/-- Two such files differ only in the secret. -/
theorem secrets_differ :
    DifferInSecrets alnum (ascii (secretText 'x' (m + 1))) (ascii (secretText 'y' (m + 1))) where
  length := by
    rw [length_secretText, length_secretText]
  outside := by
    intro k hvisible
    by_cases hlabel : k < 6
    · have hread : ∀ v, (ascii (secretText v (m + 1)))[k]? =
          (ascii ['t', 'o', 'k', 'e', 'n', '='])[k]? := by
        intro v
        rw [ascii, secretText, List.map_append]
        exact List.getElem?_append_left hlabel
      rw [hread, hread]
    · by_cases hk : k < m + 1 + 6
      · exfalso
        apply hvisible
        have hnot : k ∉ [0, 1, 2, 3, 4] := by
          intro hmem
          simp only [List.mem_cons, List.not_mem_nil, or_false] at hmem
          omega
        constructor
        · exact ⟨by rwa [length_secretText], by rwa [marks_secretText (.inl rfl)]⟩
        · exact ⟨by rwa [length_secretText], by rwa [marks_secretText (.inr rfl)]⟩
      · rw [List.getElem?_eq_none (by rw [length_secretText]; omega),
          List.getElem?_eq_none (by rw [length_secretText]; omega)]
  redacted := by
    rw [redactText_secretText (.inl rfl), redactText_secretText (.inr rfl)]

/-- Without its first letter the secret shows nothing that tells. -/
theorem quiet_of_cut {line : List Char} {d : Nat} (hd : 0 < d) (hv : v = 'x' ∨ v = 'y')
    (hline : line.IsChain fun a b => ¬ Telling a b) (hlast : ∀ c ∈ line.getLast?, c = '\n') :
    (line ++ (secretText v m).drop d).IsChain fun a b => ¬ Telling a b := by
  have hvalue : ¬ Telling v v ∧ ¬ Telling '=' v ∧ ¬ Telling '\n' v := by
    rcases hv with rfl | rfl
    · decide
    · decide
  have hcut : (['o', 'k', 'e', 'n', '='] ++ List.replicate m v).IsChain
      fun a b => ¬ Telling a b := by
    rw [List.isChain_append]
    refine ⟨by decide, ?_, ?_⟩
    · apply isChain_of_mem
      intro a ha b hb
      rw [(List.mem_replicate.mp ha).2, (List.mem_replicate.mp hb).2]
      exact hvalue.1
    · intro a ha b hb
      cases ha
      rw [(List.mem_replicate.mp (List.mem_of_mem_head? hb)).2]
      exact hvalue.2.1
  have htail : (secretText v m).drop d <:+ ['o', 'k', 'e', 'n', '='] ++ List.replicate m v := by
    obtain ⟨d, rfl⟩ := Nat.exists_eq_add_of_lt hd
    rw [Nat.zero_add]
    exact List.drop_suffix d _
  rw [List.isChain_append]
  refine ⟨hline, hcut.suffix htail, ?_⟩
  intro a ha b hb
  rw [hlast a ha]
  have hmem := htail.subset (List.mem_of_mem_head? hb)
  rcases List.mem_append.mp hmem with hmem | hmem
  · have hlabel : ∀ c ∈ ['o', 'k', 'e', 'n', '='], ¬ Telling '\n' c := forall_of_all (by decide)
    exact hlabel b hmem
  · rw [(List.mem_replicate.mp hmem).2]
    exact hvalue.2.2

theorem not_telling {x y : Char} (hx : fold x ∉ ['a', 'b', 'p', 't', 's'])
    (hy : fold y ≠ '_' ∧ fold y ≠ ':') : ¬ Telling x y := by
  rintro (hpair | hunderscore | hcolon)
  · apply hx
    simp only [List.mem_cons, Prod.mk.injEq, List.not_mem_nil, or_false] at hpair ⊢
    tauto
  · exact hy.1 hunderscore
  · exact hy.2 hcolon

theorem fold_digit {c : Char} (h : c.isDigit = true) :
    fold c ∉ ['a', 'b', 'p', 't', 's'] ∧ fold c ≠ '_' ∧ fold c ≠ ':' := by
  have hall : ∀ n < 10, fold (Char.ofNat (48 + n)) ∉ ['a', 'b', 'p', 't', 's'] ∧
      fold (Char.ofNat (48 + n)) ≠ '_' ∧ fold (Char.ofNat (48 + n)) ≠ ':' := by
    decide
  have hrange : 48 ≤ c.toNat ∧ c.toNat ≤ 57 := by
    simpa [Char.isDigit, UInt32.le_iff_toNat_le] using h
  have hc : c = Char.ofNat (48 + (c.toNat - 48)) := by
    rw [Nat.add_sub_cancel' hrange.1, Char.ofNat_toNat]
  rw [hc]
  exact hall _ (by omega)

/-- The line that says how much was cut off tells nothing either. -/
theorem truncatedLine_quiet (size read : Nat) :
    ((truncatedLine size read).IsChain fun a b => ¬ Telling a b) ∧
      ∀ c ∈ (truncatedLine size read).getLast?, c = '\n' := by
  unfold truncatedLine
  split
  · have hdigits : ∀ c ∈ Nat.toDigits 10 (size - read), fold c ∉ ['a', 'b', 'p', 't', 's'] ∧
        fold c ≠ '_' ∧ fold c ≠ ':' := by
      intro c hc
      exact fold_digit (Nat.isDigit_of_mem_toDigits (by omega) (by omega) hc)
    have hhead : ("[truncated ".toList ++ Nat.toDigits 10 (size - read)).IsChain
        fun a b => ¬ Telling a b := by
      rw [List.isChain_append]
      refine ⟨by decide, ?_, ?_⟩
      · apply isChain_of_mem
        intro a ha b hb
        exact not_telling (hdigits a ha).1 (hdigits b hb).2
      · intro a ha b hb
        have hspace : a = ' ' := by
          cases ha
          rfl
        subst hspace
        exact not_telling (by decide) (hdigits b (List.mem_of_mem_head? hb)).2
    constructor
    · rw [List.isChain_append]
      refine ⟨hhead, by decide, ?_⟩
      intro a ha b hb
      have hspace : b = ' ' := by
        cases hb
        rfl
      subst hspace
      rcases List.mem_append.mp (List.mem_of_mem_getLast? ha) with ha | ha
      · have hletters : ∀ c ∈ "[truncated ".toList, ¬ Telling c ' ' := forall_of_all (by decide)
        exact hletters a ha
      · exact not_telling (hdigits a ha).1 (by decide)
    · intro c hc
      rw [List.getLast?_append_of_ne_nil _ (by decide)] at hc
      cases hc
      rfl
  · exact ⟨List.IsChain.nil, fun c hc => by cases hc⟩

/-- What is shown of a file that is one secret and does not fit the limit. -/
theorem boundedSupportText_secretText {limit : Nat} (hv : v = 'x' ∨ v = 'y')
    (hcut : limit < m + 6) :
    boundedSupportText alnum (ascii (secretText v m)) limit =
      some (truncatedLine (m + 6) limit ++ (secretText v m).drop (m + 6 - limit)) := by
  have hstart : tailStart (ascii (secretText v m)).length limit = m + 6 - limit := by
    rw [length_secretText]
    unfold tailStart
    omega
  have hwhole := @length_secretText v m
  rw [ascii, List.length_map] at hwhole
  have hlen : (ascii ((secretText v m).drop (m + 6 - limit))).length = limit := by
    rw [ascii, List.length_map, List.length_drop]
    omega
  have hdata : tailData (ascii (secretText v m)) limit =
      some (ascii ((secretText v m).drop (m + 6 - limit))) := by
    unfold tailData
    dsimp only
    rw [hstart, if_neg (by omega), if_neg (by omega), ascii, ascii, ← List.map_drop,
      Int.toNat_natCast, List.take_of_length_le]
    rw [List.length_map, List.length_drop]
    omega
  have hquiet := truncatedLine_quiet (m + 6) limit
  unfold boundedSupportText
  rw [hdata, Option.map_some, hlen, length_secretText, decodeUtf8_ascii]
  · rw [redactText_of_quiet]
    exact quiet_of_cut (by omega) hv hquiet.1 hquiet.2
  · intro c hc
    exact secretText_ascii hv c (List.mem_of_mem_drop hc)

/-- The last byte shown is one of the secret. -/
theorem getLast?_boundedSupportText {limit : Nat} (hv : v = 'x' ∨ v = 'y') (hshown : 0 < limit)
    (hcut : limit < m + 1 + 6) :
    (boundedSupportText alnum (ascii (secretText v (m + 1))) limit).bind List.getLast? =
      some v := by
  have hlen := @length_secretText v (m + 1)
  rw [ascii, List.length_map] at hlen
  have hne : (secretText v (m + 1)).drop (m + 1 + 6 - limit) ≠ [] := by
    rw [Ne, List.drop_eq_nil_iff]
    omega
  rw [boundedSupportText_secretText hv hcut, Option.bind_some, List.getLast?_append_of_ne_nil _ hne,
    List.getLast?_drop, if_neg (by omega), secretText, List.replicate_succ', ← List.append_assoc,
    List.getLast?_concat]

/-- For a limit and a length of file: two contents that differ only in bytes that redacting the
whole text removes give the same bounded text, and none of these bytes is shown, exactly when the
read does not raise and nothing is cut off, nothing is shown, or the file is too short to hold a
secret. -/
theorem bounded_redaction_iff (alnum : Char → Bool) (limit : Int) (n : Nat) :
    ((∀ a b, a.length = n → b.length = n → DifferInSecrets alnum a b →
        ∃ text, boundedSupportText alnum a limit = some text ∧
          boundedSupportText alnum b limit = some text) ∧
      ∀ a, a.length = n → ∀ text, boundedMarked alnum a limit = some text →
        ∀ k ∈ marks text, ¬ Hidden alnum a k) ↔
    (-1 ≤ limit ∧ (limit ≤ 0 ∨ n ≤ limit ∨ n < 7)) := by
  constructor
  · rintro ⟨hsame, -⟩
    by_contra hcut
    by_cases hlow : limit < -1
    · -- Even a file and itself: the read raises.
      obtain ⟨text, htext, -⟩ := hsame (List.replicate n 0) _ List.length_replicate
        List.length_replicate ⟨rfl, fun _ _ => rfl, rfl⟩
      rw [boundedSupportText_of_lt hlow] at htext
      cases htext
    · have hn : 7 ≤ n ∧ 0 < limit ∧ limit < n := by omega
      obtain ⟨m, rfl⟩ : ∃ m, n = m + 1 + 6 := ⟨n - 7, by omega⟩
      obtain ⟨size, rfl⟩ := Int.eq_ofNat_of_zero_le (Int.le_of_lt hn.2.1)
      obtain ⟨text, ha, hb⟩ :=
        hsame _ _ length_secretText length_secretText (secrets_differ (m := m))
      have hx := @getLast?_boundedSupportText alnum 'x' m size (.inl rfl) (by omega) (by omega)
      have hy := @getLast?_boundedSupportText alnum 'y' m size (.inr rfl) (by omega) (by omega)
      rw [ha, ← hb, hy] at hx
      cases hx
  · rintro ⟨hlow, hcond⟩
    constructor
    · intro a b ha hb hdiffer
      rcases hcond with hnone | hfits | hshort
      · unfold boundedSupportText
        rw [tailData_of_nonpos hlow hnone, tailData_of_nonpos hlow hnone, ha, hb]
        exact ⟨_, rfl, rfl⟩
      · rw [boundedSupportText_of_le (by omega), boundedSupportText_of_le (by omega)]
        exact ⟨_, rfl, congrArg some hdiffer.redacted.symm⟩
      · obtain ⟨data, hdata⟩ := exists_tailData hlow b
        rw [eq_of_short hdiffer (by omega)]
        unfold boundedSupportText
        rw [hdata]
        exact ⟨_, rfl, rfl⟩
    · intro a ha text htext k hk hhidden
      rcases hcond with hnone | hfits | hshort
      · unfold boundedMarked at htext
        rw [tailData_of_nonpos hlow hnone] at htext
        cases htext
        have hsub := marks_redactText_subset hk
        rw [marks_append, marks_unmarked] at hsub
        cases hsub
      · rw [boundedMarked_of_le (by omega)] at htext
        cases htext
        exact hhidden.2 hk
      · exact not_hidden_of_short (by omega) k hhidden

/-- Of `token=` and seven letters the last seven bytes are shown as they are. -/
theorem cut_label_shows_secret :
    ∃ a b : Bytes, DifferInSecrets (fun _ => false) a b ∧
      boundedSupportText (fun _ => false) a 7 = some "[truncated 6 bytes]\nxxxxxxx".toList ∧
      boundedSupportText (fun _ => false) b 7 = some "[truncated 6 bytes]\nyyyyyyy".toList ∧
      boundedSupportText (fun _ => false) a 7 ≠ boundedSupportText (fun _ => false) b 7 := by
  refine ⟨ascii (secretText 'x' 7), ascii (secretText 'y' 7), secrets_differ, ?_⟩
  decide +kernel

end SwitchTrade.Diagnostics

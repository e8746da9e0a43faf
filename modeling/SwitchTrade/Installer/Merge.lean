import SwitchTrade.Installer.WslConfig

/-!
# What a merged `.wslconfig` says

`firstValue` reads the value of a name from lines, `endsIn` says whether they end in the section
`[wsl2]`; both go through appended lines. The loop of `Merge` keeps `Merging.Sound`: a name to
merge has its value among the lines written exactly when it was seen. The text that is read back
then gives every merged name its value (`values_merge`).
-/

namespace SwitchTrade.Installer.WslConfig

open Lines

variable {casing : Casing}

/-! ## One line -/

/-- The name of a setting is one or more key characters, and its value is trimmed. -/
theorem setting_key {line key value : Text} (h : setting line = some (key, value)) :
    key ≠ [] ∧ (∀ c ∈ key, isKeyChar c = true) ∧ trim isSpace value = value := by
  unfold setting at h
  simp only at h
  split at h
  · split at h
    · next hne =>
        cases h
        refine ⟨hne, fun c hc => ?_, trim_trim _⟩
        exact List.mem_takeWhile_imp hc
    · cases h
  · cases h

/-- Name and value are made of the letters of the line. -/
theorem mem_line_of_mem_setting {line key value : Text} (h : setting line = some (key, value)) :
    (∀ c ∈ key, c ∈ line) ∧ ∀ c ∈ value, c ∈ line := by
  unfold setting at h
  simp only at h
  split at h
  · next rest hrest =>
      split at h
      · cases h
        have hbody : ∀ c ∈ line.dropWhile isSpace, c ∈ line :=
          fun c hc => (List.dropWhile_suffix isSpace).subset hc
        constructor
        · intro c hc
          exact hbody c ((List.takeWhile_prefix isKeyChar).subset hc)
        · intro c hc
          apply hbody
          apply (List.dropWhile_suffix isKeyChar).subset
          apply (List.dropWhile_suffix isSpace).subset
          rw [hrest]
          exact List.mem_cons_of_mem _ (mem_of_mem_trim hc)
      · cases h
  · cases h

theorem isSpace_of_isKeyChar {c : Char} (h : isKeyChar c = true) : isSpace c = false := by
  unfold isKeyChar at h
  simp only [Bool.and_eq_true] at h
  simpa using h.2

/-- The setting that `Merge` writes is read back. -/
theorem setting_written {key value : Text} (hne : key ≠ [])
    (hkey : ∀ c ∈ key, isKeyChar c = true) (hvalue : trim isSpace value = value) :
    setting (key ++ '=' :: value) = some (key, value) := by
  have hbody : (key ++ '=' :: value).dropWhile isSpace = key ++ '=' :: value := by
    apply dropWhile_eq_self
    intro c hc
    cases key with
    | nil => exact absurd rfl hne
    | cons d ds =>
      cases hc
      exact isSpace_of_isKeyChar (hkey c List.mem_cons_self)
  have heq : isKeyChar '=' = false := by decide
  have htake : (key ++ '=' :: value).takeWhile isKeyChar = key := by
    rw [List.takeWhile_append_of_pos hkey, List.takeWhile_cons, heq]
    exact List.append_nil key
  have hdrop : (key ++ '=' :: value).dropWhile isKeyChar = '=' :: value := by
    rw [List.dropWhile_append_of_pos hkey, List.dropWhile_cons, heq]
    rfl
  have hspace : ('=' :: value).dropWhile isSpace = '=' :: value := by
    apply dropWhile_eq_self
    intro c hc
    cases hc
    decide
  unfold setting
  simp only [hbody, htake, hdrop, hspace]
  rw [if_pos hne, hvalue]

/-- A line that starts with neither a blank nor a bracket names no section. -/
theorem sectionName_eq_none {line : Text}
    (h : ∀ c, line.head? = some c → isSpace c = false ∧ c ≠ '[') :
    sectionName line = none := by
  have hbody : line.dropWhile isSpace = line := dropWhile_eq_self fun c hc => (h c hc).1
  unfold sectionName
  rw [hbody]
  split
  · next rest => exact absurd rfl (h '[' rfl).2
  · rfl

/-- A blank at the end of a line changes neither reading. -/
theorem sectionName_append_blank {c : Char} (hc : isSpace c = true) (hb : c ≠ ']') (line : Text) :
    sectionName (line ++ [c]) = sectionName line := by
  have hclosing : (c != ']') = true := by simpa using hb
  unfold sectionName
  rw [List.dropWhile_append]
  by_cases hempty : (line.dropWhile isSpace).isEmpty = true
  · rw [if_pos hempty, List.isEmpty_iff.mp hempty]
    simp [hc]
  · rw [if_neg hempty]
    cases hline : line.dropWhile isSpace with
    | nil =>
      rw [hline] at hempty
      exact absurd rfl hempty
    | cons d rest =>
      by_cases hd : d = '['
      · rw [hd]
        simp only [List.cons_append]
        cases htail : rest.dropWhile (· != ']') with
        | nil =>
          have hall : ∀ x ∈ rest, (x != ']') = true := List.dropWhile_eq_nil_iff.mp htail
          rw [List.dropWhile_append, htail]
          simp [hclosing]
        | cons e tail =>
          have htake : (rest ++ [c]).takeWhile (· != ']') = rest.takeWhile (· != ']') := by
            rw [List.takeWhile_append, if_neg]
            intro hlen
            have hwhole := List.takeWhile_append_dropWhile (p := (· != ']')) (l := rest)
            have hl := congrArg List.length hwhole
            rw [htail, List.length_append, hlen] at hl
            simp at hl
          rw [List.dropWhile_append, htail, htake]
          have he : e = ']' := by
            have hhead := @head_dropWhile _ (· != ']') rest e (by rw [htail]; rfl)
            simpa using hhead
          rw [he]
          simp [hc]
      · simp only [List.cons_append]
        split
        · next heq =>
            cases heq
            exact absurd rfl hd
        · split
          · next heq =>
              cases heq
              exact absurd rfl hd
          · rfl

/-- Trimming the value takes the blank away again. -/
theorem setting_append_blank {c : Char} (hc : isSpace c = true) (line : Text) :
    setting (line ++ [c]) = setting line := by
  have hkey : isKeyChar c = false := by
    cases h : isKeyChar c with
    | false => rfl
    | true =>
      rw [isSpace_of_isKeyChar h] at hc
      cases hc
  have hneq : c ≠ '=' := by
    rintro rfl
    exact absurd hc (by decide)
  unfold setting
  simp only
  rw [List.dropWhile_append]
  by_cases hempty : (line.dropWhile isSpace).isEmpty = true
  · rw [if_pos hempty, List.isEmpty_iff.mp hempty]
    simp [hc]
  · rw [if_neg hempty]
    generalize line.dropWhile isSpace = body
    have htake : (body ++ [c]).takeWhile isKeyChar = body.takeWhile isKeyChar := by
      rw [List.takeWhile_append]
      split
      · rw [List.takeWhile_cons, hkey]
        next hlen =>
          rw [List.takeWhile_prefix isKeyChar |>.eq_of_length hlen]
          exact List.append_nil body
      · rfl
    rw [htake]
    have hdrop : ((body ++ [c]).dropWhile isKeyChar).dropWhile isSpace =
        if ((body.dropWhile isKeyChar).dropWhile isSpace).isEmpty then []
        else (body.dropWhile isKeyChar).dropWhile isSpace ++ [c] := by
      rw [List.dropWhile_append]
      by_cases hnil : (body.dropWhile isKeyChar).isEmpty = true
      · rw [if_pos hnil, List.isEmpty_iff.mp hnil]
        simp [hkey, hc]
      · rw [if_neg hnil, List.dropWhile_append]
        split
        · simp [hc]
        · rfl
    rw [hdrop]
    cases (body.dropWhile isKeyChar).dropWhile isSpace with
    | nil => rfl
    | cons d rest =>
      rw [List.isEmpty_cons, if_neg Bool.false_ne_true, List.cons_append]
      by_cases hd : d = '='
      · rw [hd]
        simp only [trim_append_blank hc]
      · split
        · next heq =>
            cases heq
            exact absurd rfl hd
        · split
          · next heq =>
              cases heq
              exact absurd rfl hd
          · rfl

/-- `chomp` takes at most one carriage return. -/
theorem chomp_eq_or (line : Text) : chomp line = line ∨ line = chomp line ++ ['\r'] := by
  unfold chomp
  split
  · next h =>
      right
      obtain ⟨init, rfl⟩ := List.getLast?_eq_some_iff.mp h
      rw [List.dropLast_concat]
  · exact .inl rfl

/-- A line that is read back names the same section. -/
theorem sectionName_read (nl : NewLine) (line : Text) :
    sectionName (nl.read line) = sectionName line := by
  cases nl with
  | crlf => rfl
  | lf =>
    rcases chomp_eq_or line with h | h
    · exact congrArg sectionName h
    · exact (sectionName_append_blank (by decide) (by decide) _).symm.trans
        (congrArg sectionName h.symm)

/-- And it is the same setting. -/
theorem setting_read (nl : NewLine) (line : Text) : setting (nl.read line) = setting line := by
  cases nl with
  | crlf => rfl
  | lf =>
    rcases chomp_eq_or line with h | h
    · exact congrArg setting h
    · exact (setting_append_blank (by decide) _).symm.trans (congrArg setting h.symm)

/-! ## The value of a name -/

variable (casing)

/-- The value of `key` in lines that follow a line of `[wsl2]` or not. -/
def firstValue (key : Text) : Bool → List Text → Option Text
  | _, [] => none
  | inWsl2, line :: rest =>
    match sectionName line with
    | some name => firstValue key (decide (casing.Same name wsl2)) rest
    | none =>
      match setting line with
      | some (k, value) =>
        if inWsl2 = true ∧ casing.Same k key then some value else firstValue key inWsl2 rest
      | none => firstValue key inWsl2 rest

/-- The lines end in a section `[wsl2]`. -/
def endsIn : Bool → List Text → Bool
  | inWsl2, [] => inWsl2
  | inWsl2, line :: rest =>
    match sectionName line with
    | some name => endsIn (decide (casing.Same name wsl2)) rest
    | none => endsIn inWsl2 rest

variable {casing}

/-- The value is that of the first lines, and where these have none, that of the rest, which begin
in the section where the first lines end. -/
theorem firstValue_append (key : Text) (b : Bool) (xs ys : List Text) :
    firstValue casing key b (xs ++ ys) =
      (firstValue casing key b xs).or (firstValue casing key (endsIn casing b xs) ys) := by
  induction xs generalizing b with
  | nil => rfl
  | cons x xs ih =>
    simp only [List.cons_append, firstValue, endsIn]
    cases sectionName x with
    | some name => exact ih _
    | none =>
      cases setting x with
      | none => exact ih _
      | some kv =>
        simp only
        split
        · rfl
        · exact ih _

theorem endsIn_append (b : Bool) (xs ys : List Text) :
    endsIn casing b (xs ++ ys) = endsIn casing (endsIn casing b xs) ys := by
  induction xs generalizing b with
  | nil => rfl
  | cons x xs ih =>
    simp only [List.cons_append, endsIn]
    cases sectionName x with
    | some name => exact ih _
    | none => exact ih _

/-- A line that says nothing at the end of the lines. -/
theorem firstValue_append_nil (key : Text) (b : Bool) (xs : List Text) :
    firstValue casing key b (xs ++ [[]]) = firstValue casing key b xs := by
  rw [firstValue_append]
  exact Option.or_none

/-- A line that is read back says what it said. -/
theorem firstValue_read_cons (nl : NewLine) (key : Text) (b : Bool) (line : Text)
    (xs ys : List Text) (h : ∀ b, firstValue casing key b xs = firstValue casing key b ys) :
    firstValue casing key b (nl.read line :: xs) = firstValue casing key b (line :: ys) := by
  simp only [firstValue, sectionName_read, setting_read, h]

/-- Lines that are joined are read back with the values they have. -/
theorem firstValue_join (nl : NewLine) (key : Text) {lines : List Text}
    (h : ∀ l ∈ lines, '\n' ∉ l) (final : Bool) (b : Bool) :
    firstValue casing key b
        (splitLines (joinLines nl lines ++ if final then nl.text else [])) =
      firstValue casing key b lines := by
  induction lines generalizing b with
  | nil =>
    cases final with
    | false => rfl
    | true =>
      cases nl with
      | lf => rfl
      | crlf => rfl
  | cons l ls ih =>
    have hl := h l List.mem_cons_self
    have hls : ∀ l' ∈ ls, '\n' ∉ l' := fun l' hm => h l' (List.mem_cons_of_mem _ hm)
    cases ls with
    | nil =>
      cases final with
      | false =>
        show firstValue casing key b (splitLines (l ++ [])) = _
        rw [List.append_nil, splitLines_single hl]
      | true =>
        have hsplit := splitLines_line nl hl []
        rw [List.append_nil] at hsplit
        show firstValue casing key b (splitLines (l ++ nl.text)) = _
        rw [hsplit]
        exact firstValue_read_cons nl key b l _ _ fun b => rfl
    | cons l' rest =>
      show firstValue casing key b
        (splitLines ((l ++ nl.text ++ joinLines nl (l' :: rest)) ++ _)) = _
      rw [List.append_assoc, splitLines_line nl hl]
      exact firstValue_read_cons nl key b l _ _ fun b => ih hls b

/-- An entry at the end counts where no other has its name. -/
theorem tryGetValue_append (entries : List (Text × Text)) (key : Text) (entry : Text × Text) :
    tryGetValue casing (entries ++ [entry]) key =
      (tryGetValue casing entries key).or
        (if casing.Same entry.1 key then some entry.2 else none) := by
  unfold tryGetValue
  rw [List.find?_append]
  cases entries.find? fun e => casing.Same e.1 key with
  | some e => rfl
  | none =>
    by_cases h : casing.Same entry.1 key
    · simp [h]
    · simp [h]

/-- Names that are the same are looked up alike. -/
theorem tryGetValue_same (entries : List (Text × Text)) {k key : Text} (h : casing.Same k key) :
    tryGetValue casing entries k = tryGetValue casing entries key := by
  unfold tryGetValue
  have he : (fun entry : Text × Text => decide (casing.Same entry.1 k)) =
      fun entry => decide (casing.Same entry.1 key) := by
    funext entry
    rw [decide_eq_decide]
    exact ⟨fun hs => hs.trans h, fun hs => hs.trans h.symm⟩
  rw [he]

/-- `TryAdd` keeps the entry that is there. -/
theorem tryGetValue_tryAdd (entries : List (Text × Text)) (k value key : Text) :
    tryGetValue casing (tryAdd casing entries k value) key =
      (tryGetValue casing entries key).or (if casing.Same k key then some value else none) := by
  unfold tryAdd
  split
  · next h =>
      by_cases hs : casing.Same k key
      · rw [tryGetValue_same entries hs] at h
        obtain ⟨v, hv⟩ := Option.isSome_iff_exists.mp h
        rw [hv]
        rfl
      · rw [if_neg hs, Option.or_none]
  · exact tryGetValue_append entries key (k, value)

/-- `Values` maps a name to its first value. -/
theorem tryGetValue_values (text key : Text) :
    tryGetValue casing (values casing text) key =
      firstValue casing key false (splitLines text) := by
  -- The entries read so far come before the lines that are left.
  have hloop : ∀ (lines : List Text) (r : Reading),
      tryGetValue casing (lines.foldl (readLine casing) r).result key =
        (tryGetValue casing r.result key).or
          (firstValue casing key (decide (casing.Same r.currentSection wsl2)) lines) := by
    intro lines
    induction lines with
    | nil =>
      intro r
      exact Option.or_none.symm
    | cons line rest ih =>
      intro r
      rw [List.foldl_cons, ih]
      unfold readLine
      simp only [firstValue]
      cases sectionName line with
      | some name => rfl
      | none =>
        cases setting line with
        | none => rfl
        | some kv =>
          obtain ⟨k, value⟩ := kv
          by_cases hs : casing.Same r.currentSection wsl2
          · simp only [hs, if_true, decide_true, true_and, tryGetValue_tryAdd]
            rw [Option.or_assoc]
            split
            · rfl
            · rfl
          · simp only [hs, if_false, decide_false, Bool.false_eq_true, false_and]
  -- No section is open at the start.
  have hstart : casing.Same [] wsl2 = False := by
    rw [eq_iff_iff, iff_false]
    intro h
    have hl := h.length
    exact absurd hl (by decide)
  unfold values
  rw [hloop]
  simp only [hstart, decide_false]
  rfl

/-! ## The loop of `Merge` -/

/-- Values that `Merge` can write: names as settings have them, no two of them the same, and
values that a line can hold. -/
structure Mergeable (casing : Casing) (entries : List (Text × Option Text)) : Prop where
  named : ∀ e ∈ entries, e.1 ≠ []
  keyChars : ∀ e ∈ entries, ∀ c ∈ e.1, isKeyChar c = true
  bracket : ∀ e ∈ entries, (e.1.head?.map casing.upper) ≠ some (casing.upper '[')
  distinct : entries.Pairwise fun a b => ¬ casing.Same a.1 b.1
  trimmed : ∀ e ∈ entries, ∀ v, e.2 = some v → trim isSpace v = v
  oneLine : ∀ e ∈ entries, ∀ v, e.2 = some v → '\n' ∉ v

variable {entries : List (Text × Option Text)}

theorem isKeyChar_lf : isKeyChar '\n' = false := by decide

/-- A setting that `Merge` writes for an entry, under a name that is the same. -/
structure Writable (casing : Casing) (key value : Text) : Prop where
  named : key ≠ []
  keyChars : ∀ c ∈ key, isKeyChar c = true
  bracket : key.head? ≠ some '['
  trimmed : trim isSpace value = value
  oneLine : '\n' ∉ value

/-- Under a name of the file that is the same as its own, an entry with a value is a setting. -/
theorem Mergeable.writable (h : Mergeable casing entries) {e : Text × Option Text}
    (he : e ∈ entries) {key v : Text} (hv : e.2 = some v) (hsame : casing.Same e.1 key)
    (hchars : ∀ c ∈ key, isKeyChar c = true) : Writable casing key v := by
  have hne : key ≠ [] := by
    intro hnil
    rw [hnil] at hsame
    have hl := hsame.length
    exact h.named e he (List.length_eq_zero_iff.mp hl)
  refine ⟨hne, hchars, ?_, h.trimmed e he v hv, h.oneLine e he v hv⟩
  intro hhead
  apply h.bracket e he
  have heads := congrArg List.head? hsame
  rw [List.head?_map, List.head?_map, hhead] at heads
  exact heads

namespace Writable

variable {key value : Text}

theorem sectionName (h : Writable casing key value) :
    sectionName (key ++ '=' :: value) = none := by
  apply sectionName_eq_none
  intro c hc
  cases hk : key with
  | nil => exact absurd hk h.named
  | cons d ds =>
    rw [hk] at hc
    cases hc
    have hmem : c ∈ key := by
      rw [hk]
      exact List.mem_cons_self
    refine ⟨isSpace_of_isKeyChar (h.keyChars c hmem), ?_⟩
    rintro rfl
    exact h.bracket (by rw [hk]; rfl)

theorem setting (h : Writable casing key value) :
    setting (key ++ '=' :: value) = some (key, value) :=
  setting_written h.named h.keyChars h.trimmed

/-- It is one line. -/
theorem lf_not_mem (h : Writable casing key value) : '\n' ∉ key ++ '=' :: value := by
  intro hm
  rcases List.mem_append.mp hm with hm | hm
  · have hc := h.keyChars _ hm
    rw [isKeyChar_lf] at hc
    cases hc
  · rcases List.mem_cons.mp hm with hm | hm
    · exact absurd hm (by decide)
    · exact h.oneLine hm

theorem firstValue (h : Writable casing key value) (k : Text) (rest : List Text) :
    firstValue casing k true ((key ++ '=' :: value) :: rest) =
      if casing.Same key k then some value else WslConfig.firstValue casing k true rest := by
  simp only [WslConfig.firstValue, h.sectionName, h.setting, true_and]

theorem endsIn (h : Writable casing key value) (b : Bool) :
    endsIn casing b [key ++ '=' :: value] = b := by
  simp only [WslConfig.endsIn, h.sectionName]

end Writable

/-- What the lines written so far say: a name to merge has its value among them if it was seen
and none otherwise; `inWsl2` tells their last section; and once a section `[wsl2]` has ended
every name with a value was seen. -/
structure Merging.Sound (casing : Casing) (entries : List (Text × Option Text)) (m : Merging) :
    Prop where
  valued : ∀ e ∈ entries, firstValue casing e.1 false m.result =
    if Seen casing m.seen e.1 then e.2 else none
  section_eq : endsIn casing false m.result = m.inWsl2
  found : m.inWsl2 = true → m.foundWsl2 = true
  closed : m.foundWsl2 = true → m.inWsl2 = false → ∀ e ∈ entries, e.2 ≠ none →
    Seen casing m.seen e.1
  unfound : m.foundWsl2 = false → m.seen = []
  oneLine : ∀ l ∈ m.result, '\n' ∉ l

/-- One more name is seen. -/
theorem seen_append (seen : List Text) (key k : Text) :
    Seen casing (seen ++ [key]) k ↔ Seen casing seen k ∨ casing.Same key k := by
  unfold Seen
  simp only [List.mem_append, List.mem_singleton, or_and_right, exists_or, exists_eq_left]

/-- Names that are the same are seen together. -/
theorem seen_same {seen : List Text} {k key : Text} (h : casing.Same k key) :
    Seen casing seen k ↔ Seen casing seen key := by
  constructor
  · rintro ⟨s, hs, hsame⟩
    exact ⟨s, hs, hsame.trans h⟩
  · rintro ⟨s, hs, hsame⟩
    exact ⟨s, hs, hsame.trans h.symm⟩

/-- Two entries of the same name are one. -/
theorem Mergeable.eq_of_same (h : Mergeable casing entries) {e e' : Text × Option Text}
    (he : e ∈ entries) (he' : e' ∈ entries) (hs : casing.Same e.1 e'.1) : e = e' := by
  by_contra hne
  have hpair : entries.Pairwise fun a b => a ≠ b → ¬ casing.Same a.1 b.1 := by
    apply h.distinct.imp
    intro a b hn _
    exact hn
  have hflip : entries.Pairwise (flip fun a b => a ≠ b → ¬ casing.Same a.1 b.1) := by
    apply h.distinct.imp
    intro a b hn _ hs
    exact hn hs.symm
  exact hpair.forall_of_forall_of_flip (fun x _ hc => absurd rfl hc) hflip he he' hne hs

/-- A replacement is that of an entry of this name. -/
theorem mem_of_tryGetValue {key : Text} {replacement : Option Text}
    (h : tryGetValue casing entries key = some replacement) :
    ∃ e ∈ entries, e.2 = replacement ∧ casing.Same e.1 key := by
  unfold tryGetValue at h
  obtain ⟨e, he, hvalue⟩ := Option.map_eq_some_iff.mp h
  refine ⟨e, List.mem_of_find?_eq_some he, hvalue, ?_⟩
  have hs := List.find?_some he
  simpa using hs

/-- Where none is found no entry has the name. -/
theorem not_same_of_tryGetValue {key : Text} (h : tryGetValue casing entries key = none) :
    ∀ e ∈ entries, ¬ casing.Same key e.1 := by
  intro e he hs
  unfold tryGetValue at h
  rw [Option.map_eq_none_iff, List.find?_eq_none] at h
  have hn := h e he
  rw [decide_eq_true_eq] at hn
  exact hn hs.symm

namespace Merging.Sound

variable {m : Merging}

/-- A name is met for the first time in a section `[wsl2]`. -/
theorem write (h : m.Sound casing entries) (hentries : Mergeable casing entries)
    (hin : m.inWsl2 = true) {e : Text × Option Text} (he : e ∈ entries) {key : Text}
    (hsame : casing.Same e.1 key) (hchars : ∀ c ∈ key, isKeyChar c = true)
    (hunseen : ¬ Seen casing m.seen key) {result : List Text}
    (hresult : result = match e.2 with
      | some value => m.result ++ [key ++ '=' :: value]
      | none => m.result) :
    Sound casing entries { m with seen := m.seen ++ [key], result := result } := by
  have hnotseen : ¬ Seen casing m.seen e.1 := by
    rw [seen_same hsame]
    exact hunseen
  -- The names are distinct, so the new line speaks of one entry only.
  have hother : ∀ e' ∈ entries, e' ≠ e → ¬ casing.Same key e'.1 := by
    intro e' he' hne hs
    exact hne (hentries.eq_of_same he he' (hsame.trans hs)).symm
  have hseen : ∀ e' ∈ entries, Seen casing (m.seen ++ [key]) e'.1 ↔
      Seen casing m.seen e'.1 ∨ e' = e := by
    intro e' he'
    rw [seen_append]
    constructor
    · rintro (hs | hs)
      · exact .inl hs
      · by_cases heq : e' = e
        · exact .inr heq
        · exact absurd hs (hother e' he' heq)
    · rintro (hs | rfl)
      · exact .inl hs
      · exact .inr hsame.symm
  have hvalued : ∀ e' ∈ entries, firstValue casing e'.1 false result =
      if Seen casing (m.seen ++ [key]) e'.1 then e'.2 else none := by
    intro e' he'
    rw [hresult]
    cases hv : e.2 with
    | none =>
      simp only [h.valued e' he', hseen e' he']
      by_cases heq : e' = e
      · rw [if_neg (heq ▸ hnotseen), if_pos (.inr heq), heq, hv]
      · simp only [heq, or_false]
    | some value =>
      have hw : Writable casing key value := hentries.writable he hv hsame hchars
      simp only [hseen e' he']
      rw [firstValue_append, h.section_eq, hin, hw.firstValue, h.valued e' he']
      by_cases heq : e' = e
      · rw [if_neg (heq ▸ hnotseen), if_pos (heq ▸ hsame.symm), if_pos (.inr heq), heq, hv]
        rfl
      · rw [if_neg (hother e' he' heq)]
        simp only [heq, or_false]
        exact Option.or_none
  refine ⟨hvalued, ?_, h.found, ?_, ?_, ?_⟩
  · show endsIn casing false result = m.inWsl2
    rw [hresult]
    cases hv : e.2 with
    | none => exact h.section_eq
    | some value =>
      have hw : Writable casing key value := hentries.writable he hv hsame hchars
      show endsIn casing false (m.result ++ _) = _
      rw [endsIn_append, hw.endsIn]
      exact h.section_eq
  · -- The section has not ended.
    intro _ hout
    have hc : m.inWsl2 = false := hout
    rw [hin] at hc
    cases hc
  · intro hfound
    have hc : m.foundWsl2 = false := hfound
    rw [h.found hin] at hc
    cases hc
  · intro l hl
    have hmem : l ∈ result := hl
    rw [hresult] at hmem
    cases hv : e.2 with
    | none =>
      rw [hv] at hmem
      exact h.oneLine l hmem
    | some value =>
      rw [hv] at hmem
      rcases List.mem_append.mp hmem with hm | hm
      · exact h.oneLine l hm
      · rw [List.mem_singleton.mp hm]
        exact (hentries.writable he hv hsame hchars).lf_not_mem

/-- A line that says nothing of the names to merge is written as it is. -/
theorem keep (h : m.Sound casing entries) {line : Text} (hline : '\n' ∉ line)
    (hsection : sectionName line = none)
    (hsilent : m.inWsl2 = true → ∀ e ∈ entries, firstValue casing e.1 true [line] = none) :
    Sound casing entries { m with result := m.result ++ [line] } := by
  refine ⟨?_, ?_, h.found, h.closed, h.unfound, ?_⟩
  · intro e he
    show firstValue casing e.1 false (m.result ++ [line]) = _
    rw [firstValue_append, h.valued e he, h.section_eq]
    have hnone : firstValue casing e.1 m.inWsl2 [line] = none := by
      cases hin : m.inWsl2 with
      | true => exact hsilent hin e he
      | false =>
        simp only [firstValue, hsection]
        split
        · rw [if_neg]
          rintro ⟨hc, -⟩
          cases hc
        · rfl
    rw [hnone, Option.or_none]
  · show endsIn casing false (m.result ++ [line]) = _
    rw [endsIn_append, h.section_eq]
    simp only [endsIn, hsection]
  · intro l hl
    rcases List.mem_append.mp hl with hl | hl
    · exact h.oneLine l hl
    · rw [List.mem_singleton.mp hl]
      exact hline

/-- Before the first line. -/
theorem init : Sound casing entries ⟨[], [], false, false⟩ := by
  constructor
  · intro e _
    show none = _
    rw [if_neg]
    rintro ⟨k, hk, -⟩
    cases hk
  · rfl
  · intro h
    cases h
  · intro h
    cases h
  · intro _
    rfl
  · intro l hl
    cases hl

/-- A setting that `AppendMissing` may add at the end of a section `[wsl2]`; afterwards its name was
seen, and what was seen stays so. -/
theorem addMissing (h : m.Sound casing entries) (hentries : Mergeable casing entries)
    (hin : m.inWsl2 = true) {e : Text × Option Text} (he : e ∈ entries) :
    (addMissing casing m e).Sound casing entries ∧ (addMissing casing m e).inWsl2 = true ∧
      (addMissing casing m e).foundWsl2 = m.foundWsl2 ∧
      (e.2 ≠ none → Seen casing (addMissing casing m e).seen e.1) ∧
      ∀ k, Seen casing m.seen k → Seen casing (addMissing casing m e).seen k := by
  unfold WslConfig.addMissing
  cases hv : e.2 with
  | none => exact ⟨h, hin, rfl, fun hc => absurd rfl hc, fun _ hs => hs⟩
  | some value =>
    simp only
    by_cases hseen : Seen casing m.seen e.1
    · rw [if_pos hseen]
      exact ⟨h, hin, rfl, fun _ => hseen, fun _ hs => hs⟩
    · rw [if_neg hseen]
      refine ⟨?_, hin, rfl, ?_, ?_⟩
      · apply h.write hentries hin he (.refl casing e.1) (hentries.keyChars e he) hseen
        rw [hv]
      · intro _
        exact (seen_append _ _ _).mpr (.inr (.refl casing e.1))
      · intro k hs
        exact (seen_append _ _ _).mpr (.inl hs)

/-- All of them, by induction on the entries. -/
theorem addAllMissing (hentries : Mergeable casing entries) (es : List (Text × Option Text))
    (hes : ∀ e ∈ es, e ∈ entries) (h : m.Sound casing entries) (hin : m.inWsl2 = true) :
    (es.foldl (WslConfig.addMissing casing) m).Sound casing entries ∧
      (es.foldl (WslConfig.addMissing casing) m).foundWsl2 = m.foundWsl2 ∧
      (∀ e ∈ es, e.2 ≠ none → Seen casing (es.foldl (WslConfig.addMissing casing) m).seen e.1) ∧
      ∀ k, Seen casing m.seen k →
        Seen casing (es.foldl (WslConfig.addMissing casing) m).seen k := by
  induction es generalizing m with
  | nil => exact ⟨h, rfl, fun e he => (by cases he), fun _ hs => hs⟩
  | cons e es ih =>
    obtain ⟨hs, hin', hfound, hadded, hmono⟩ :=
      h.addMissing hentries hin (hes e List.mem_cons_self)
    obtain ⟨hs', hfound', hadded', hmono'⟩ :=
      ih (fun e' he' => hes e' (List.mem_cons_of_mem _ he')) hs hin'
    rw [List.foldl_cons]
    refine ⟨hs', hfound'.trans hfound, ?_, fun k hk => hmono' k (hmono k hk)⟩
    intro e' he' hvalue
    rcases List.mem_cons.mp he' with rfl | he'
    · exact hmono' _ (hadded hvalue)
    · exact hadded' e' he' hvalue

/-- After `AppendMissing` every name with a value was seen if a section `[wsl2]` was. -/
theorem appendMissing (h : m.Sound casing entries) (hentries : Mergeable casing entries) :
    let m' := appendMissing casing entries m
    (∀ e ∈ entries, firstValue casing e.1 false m'.result =
      if Seen casing m'.seen e.1 then e.2 else none) ∧
    m'.foundWsl2 = m.foundWsl2 ∧
    (m'.foundWsl2 = true → ∀ e ∈ entries, e.2 ≠ none → Seen casing m'.seen e.1) ∧
    (m'.foundWsl2 = false → m'.seen = []) ∧
    ∀ l ∈ m'.result, '\n' ∉ l := by
  unfold WslConfig.appendMissing
  cases hin : m.inWsl2 with
  | false =>
    exact ⟨h.valued, rfl, fun hf => h.closed hf hin, h.unfound, h.oneLine⟩
  | true =>
    obtain ⟨hs, hfound, hadded, -⟩ := addAllMissing hentries entries (fun e he => he) h hin
    exact ⟨hs.valued, hfound, fun _ => hadded, hs.unfound, hs.oneLine⟩

/-- The line of a section has no value. -/
theorem firstValue_section {line name : Text} (hn : sectionName line = some name) (key : Text)
    (b : Bool) : firstValue casing key b [line] = none := by
  simp only [firstValue, hn]

/-- One line of the file: the line of a section closes the one before; in `[wsl2]` a setting of a
name to merge is replaced the first time and left out afterwards; all else is kept. -/
theorem mergeLine (h : m.Sound casing entries) (hentries : Mergeable casing entries) {line : Text}
    (hline : '\n' ∉ line) : (mergeLine casing entries m line).Sound casing entries := by
  unfold WslConfig.mergeLine
  cases hsection : sectionName line with
  | some name =>
    -- What is missing is written before the line of the next section.
    obtain ⟨hvalued, hfound, hclosed, hunfound, honeLine⟩ := h.appendMissing hentries
    simp only
    refine ⟨?_, ?_, ?_, ?_, ?_, ?_⟩
    · intro e he
      show firstValue casing e.1 false (_ ++ [line]) = _
      rw [firstValue_append, firstValue_section hsection, Option.or_none]
      exact hvalued e he
    · show endsIn casing false (_ ++ [line]) = _
      rw [endsIn_append]
      simp only [endsIn, hsection]
    · intro hin
      have hd : decide (casing.Same name wsl2) = true := hin
      simp only [hd, Bool.or_true]
    · intro hf hin e he hvalue
      have hd : decide (casing.Same name wsl2) = false := hin
      simp only [hd, Bool.or_false] at hf
      exact hclosed hf e he hvalue
    · intro hf
      simp only [Bool.or_eq_false_iff] at hf
      exact hunfound hf.1
    · intro l hl
      rcases List.mem_append.mp hl with hl | hl
      · exact honeLine l hl
      · rw [List.mem_singleton.mp hl]
        exact hline
  | none =>
    simp only
    cases hsetting : setting line with
    | none =>
      apply h.keep hline hsection
      intro _ e _
      simp only [firstValue, hsection, hsetting]
    | some kv =>
      obtain ⟨key, value⟩ := kv
      simp only
      by_cases hin : m.inWsl2 = true
      · rw [if_pos hin]
        cases hfind : tryGetValue casing entries key with
        | none =>
          apply h.keep hline hsection
          intro _ e he
          simp only [firstValue, hsection, hsetting, true_and]
          rw [if_neg (not_same_of_tryGetValue hfind e he)]
        | some replacement =>
          obtain ⟨e, he, hreplacement, hsame⟩ := mem_of_tryGetValue hfind
          simp only [replaceSetting]
          by_cases hseen : Seen casing m.seen key
          · -- It was replaced before: the line is left out.
            rw [if_pos hseen]
            exact h
          · rw [if_neg hseen]
            apply h.write hentries hin he hsame (setting_key hsetting).2.1 hseen
            cases replacement with
            | none => simp only [hreplacement]
            | some value => simp only [hreplacement]
      · rw [if_neg hin]
        apply h.keep hline hsection
        intro hc
        exact absurd hc hin

/-- The whole loop, by induction on the lines. -/
theorem mergeLines (hentries : Mergeable casing entries) (lines : List Text)
    (hlines : ∀ l ∈ lines, '\n' ∉ l) (h : m.Sound casing entries) :
    (lines.foldl (WslConfig.mergeLine casing entries) m).Sound casing entries := by
  induction lines generalizing m with
  | nil => exact h
  | cons line rest ih =>
    rw [List.foldl_cons]
    apply ih
    · intro l hl
      exact hlines l (List.mem_cons_of_mem _ hl)
    · exact h.mergeLine hentries (hlines line List.mem_cons_self)

end Merging.Sound

/-! ## The text that is read back -/

/-- The settings of a new section are the entries that have a value. -/
theorem writable_of_mem_settings (hentries : Mergeable casing entries)
    {es : List (Text × Option Text)} (hes : es.Sublist entries) {l : Text} (h : l ∈ settings es) :
    ∃ e ∈ es, ∃ v, e.2 = some v ∧ l = e.1 ++ '=' :: v ∧ Writable casing e.1 v := by
  obtain ⟨e, he, hl⟩ := List.mem_filterMap.mp h
  obtain ⟨v, hv, rfl⟩ := Option.map_eq_some_iff.mp hl
  have hmem := hes.subset he
  exact ⟨e, he, v, hv, rfl,
    hentries.writable hmem hv (.refl casing e.1) (hentries.keyChars e hmem)⟩

/-- A name none of the settings is about. -/
theorem firstValue_settings_none (hentries : Mergeable casing entries) {key : Text}
    (es : List (Text × Option Text)) (hes : es.Sublist entries)
    (hkey : ∀ e ∈ es, ¬ casing.Same e.1 key) : firstValue casing key true (settings es) = none := by
  induction es with
  | nil => rfl
  | cons e es ih =>
    have hes' : es.Sublist entries := (List.sublist_cons_self e es).trans hes
    have hrest := ih hes' fun e' he' => hkey e' (List.mem_cons_of_mem _ he')
    unfold settings at hrest ⊢
    rw [List.filterMap_cons]
    cases hv : e.2 with
    | none => exact hrest
    | some value =>
      have hmem : e ∈ entries := hes.subset List.mem_cons_self
      have hw : Writable casing e.1 value :=
        hentries.writable hmem hv (.refl casing e.1) (hentries.keyChars e hmem)
      simp only [Option.map_some]
      rw [hw.firstValue, if_neg (hkey e List.mem_cons_self)]
      exact hrest

/-- The settings of a new section `[wsl2]`. -/
theorem firstValue_settings (hentries : Mergeable casing entries) (es : List (Text × Option Text))
    (hes : es.Sublist entries) {e : Text × Option Text} (he : e ∈ es) :
    firstValue casing e.1 true (settings es) = e.2 := by
  induction es with
  | nil => cases he
  | cons e' es ih =>
    have hmem : e' ∈ entries := hes.subset List.mem_cons_self
    have hes' : es.Sublist entries := (List.sublist_cons_self e' es).trans hes
    have hother : ∀ e'' ∈ es, ¬ casing.Same e'.1 e''.1 :=
      (List.pairwise_cons.mp (hentries.distinct.sublist hes)).1
    have hnone := @firstValue_settings_none _ _ hentries e'.1 es hes'
      fun e'' he'' hs => hother e'' he'' hs.symm
    unfold settings at ih hnone ⊢
    rw [List.filterMap_cons]
    cases hv : e'.2 with
    | none =>
      simp only [Option.map_none]
      rcases List.mem_cons.mp he with rfl | he
      · rw [hv]
        exact hnone
      · exact ih hes' he
    | some value =>
      have hw : Writable casing e'.1 value :=
        hentries.writable hmem hv (.refl casing e'.1) (hentries.keyChars e' hmem)
      simp only [Option.map_some]
      rw [hw.firstValue]
      rcases List.mem_cons.mp he with rfl | he
      · rw [if_pos (.refl casing _), hv]
      · rw [if_neg (hother e he)]
        exact ih hes' he

/-- The lines of a text hold no line feed. -/
theorem lf_not_mem_of_mem_dropEmptyLast {text l : Text}
    (h : l ∈ dropEmptyLast (splitLines text)) : '\n' ∉ l := by
  refine @lf_not_mem_of_mem_splitLines text _ ?_
  unfold dropEmptyLast at h
  split at h
  · exact (List.dropLast_subset _) h
  · exact h

/-- The lines that are written give every name to merge its value: those of the sections `[wsl2]`,
or, where there is none, those of a new section at the end. -/
theorem mergedLines_values (hentries : Mergeable casing entries) (document : TextDocument) :
    (∀ e ∈ entries, firstValue casing e.1 false (mergedLines casing document entries) = e.2) ∧
      ∀ l ∈ mergedLines casing document entries, '\n' ∉ l := by
  have hloop := Merging.Sound.mergeLines hentries (dropEmptyLast (splitLines document.text))
    (fun l hl => lf_not_mem_of_mem_dropEmptyLast hl) Merging.Sound.init
  obtain ⟨hvalued, -, hclosed, hunfound, honeLine⟩ := hloop.appendMissing hentries
  unfold mergedLines
  simp only
  generalize appendMissing casing entries _ = m at hvalued hclosed hunfound honeLine ⊢
  cases hfound : m.foundWsl2 with
  | true =>
    simp only [if_true]
    refine ⟨?_, honeLine⟩
    intro e he
    rw [hvalued e he]
    split
    · rfl
    · next hunseen =>
        by_contra hne
        exact hunseen (hclosed hfound e he fun hc => hne hc.symm)
  | false =>
    simp only [Bool.false_eq_true, if_false]
    have hunseen := hunfound hfound
    have hspaced : ∀ b key, firstValue casing key b
        (if m.result.getLast?.any fun line => !line.isEmpty then m.result ++ [[]] else m.result) =
          firstValue casing key b m.result := by
      intro b key
      split
      · exact firstValue_append_nil key b m.result
      · rfl
    constructor
    · intro e he
      unfold appendSection
      simp only
      rw [firstValue_append, hspaced, hvalued e he, hunseen, if_neg]
      · have hsection : sectionName "[wsl2]".toList = some wsl2 := by decide
        simp only [Option.none_or, firstValue, hsection]
        have hsame : decide (casing.Same wsl2 wsl2) = true := decide_eq_true (.refl casing wsl2)
        rw [hsame]
        exact firstValue_settings hentries entries (List.Sublist.refl entries) he
      · rintro ⟨k, hk, -⟩
        cases hk
    · intro l hl
      unfold appendSection at hl
      rcases List.mem_append.mp hl with hl | hl
      · split at hl
        · rcases List.mem_append.mp hl with hl | hl
          · exact honeLine l hl
          · rw [List.mem_singleton.mp hl]
            exact List.not_mem_nil
        · exact honeLine l hl
      · rcases List.mem_cons.mp hl with rfl | hl
        · decide
        · obtain ⟨e, -, v, -, rfl, hw⟩ :=
            writable_of_mem_settings hentries (List.Sublist.refl entries) hl
          exact hw.lf_not_mem

/-- What is merged into a text is what `Values` reads from it. -/
theorem tryGetValue_values_merge (hentries : Mergeable casing entries) (document : TextDocument)
    {e : Text × Option Text} (he : e ∈ entries) :
    tryGetValue casing (values casing (merge casing document entries)) e.1 = e.2 := by
  obtain ⟨hvalues, honeLine⟩ := mergedLines_values hentries document
  have hjoin := @firstValue_join casing document.newLine e.1 _ honeLine
    (document.finalNewLine || document.text.isEmpty) false
  rw [tryGetValue_values, ← hvalues e he, ← hjoin]
  unfold merge
  simp only
  split
  · rfl
  · rw [List.append_nil]

end SwitchTrade.Installer.WslConfig

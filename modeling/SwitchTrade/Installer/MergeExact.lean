import SwitchTrade.Installer.Merge

/-!
# What a merged `.wslconfig` keeps

Two invariants of the loop of `Merge` stand beside `Merging.Sound`. `Follows` compares the lines
written with the lines read: the names that are not merged keep their values, and the lines that
are not settings of merged names are there in order. `Settled` says that the loop, run over the
lines it wrote, writes them again. The second holds of the text as well when its line endings are
read as they were written (`merge_merged`), which a text whose only carriage return is its last
character spoils.
-/

namespace SwitchTrade.Installer.WslConfig

open Lines

variable {casing : Casing} {entries : List (Text × Option Text)}

/-! ## One line of the loop -/

/-- A line is a section header, a line that stays, or a setting of `[wsl2]` to merge. -/
theorem mergeLine_cases (casing : Casing) (entries : List (Text × Option Text)) (m : Merging)
    (line : Text) :
    (∃ name, sectionName line = some name ∧ mergeLine casing entries m line =
      { appendMissing casing entries m with
        inWsl2 := decide (casing.Same name wsl2)
        foundWsl2 := (appendMissing casing entries m).foundWsl2 ||
          decide (casing.Same name wsl2)
        result := (appendMissing casing entries m).result ++ [line] }) ∨
    (sectionName line = none ∧
      (∀ key value, setting line = some (key, value) → m.inWsl2 = true →
        tryGetValue casing entries key = none) ∧
      mergeLine casing entries m line = { m with result := m.result ++ [line] }) ∨
    (sectionName line = none ∧ ∃ key value replacement, setting line = some (key, value) ∧
      m.inWsl2 = true ∧ tryGetValue casing entries key = some replacement ∧
      mergeLine casing entries m line = replaceSetting casing m key replacement) := by
  unfold mergeLine
  cases hsection : sectionName line with
  | some name => exact .inl ⟨name, rfl, rfl⟩
  | none =>
    right
    cases hsetting : setting line with
    | none => exact .inl ⟨rfl, fun key value h => (by cases h), rfl⟩
    | some kv =>
      obtain ⟨key, value⟩ := kv
      by_cases hin : m.inWsl2 = true
      · simp only [if_pos hin]
        cases hfind : tryGetValue casing entries key with
        | some replacement => exact .inr ⟨trivial, key, value, replacement, rfl, hin, hfind, rfl⟩
        | none =>
          refine .inl ⟨trivial, ?_, rfl⟩
          intro k v hkv _
          cases hkv
          exact hfind
      · simp only [if_neg hin]
        exact .inl ⟨trivial, fun k v _ hc => absurd hc hin, trivial⟩

/-- A setting to merge is dropped when its name was seen or has no value, and rewritten
otherwise. -/
theorem replaceSetting_cases (casing : Casing) (m : Merging) (key : Text)
    (replacement : Option Text) :
    (Seen casing m.seen key ∧ replaceSetting casing m key replacement = m) ∨
    (¬ Seen casing m.seen key ∧ replacement = none ∧
      replaceSetting casing m key replacement = { m with seen := m.seen ++ [key] }) ∨
    (¬ Seen casing m.seen key ∧ ∃ value, replacement = some value ∧
      replaceSetting casing m key replacement =
        { m with seen := m.seen ++ [key], result := m.result ++ [key ++ '=' :: value] }) := by
  unfold replaceSetting
  by_cases hseen : Seen casing m.seen key
  · exact .inl ⟨hseen, if_pos hseen⟩
  · right
    rw [if_neg hseen]
    cases replacement with
    | none => exact .inl ⟨hseen, rfl, rfl⟩
    | some value => exact .inr ⟨hseen, value, rfl, rfl⟩

theorem addMissing_cases (casing : Casing) (m : Merging) (entry : Text × Option Text) :
    ((entry.2 = none ∨ Seen casing m.seen entry.1) ∧ addMissing casing m entry = m) ∨
    (¬ Seen casing m.seen entry.1 ∧ ∃ value, entry.2 = some value ∧
      addMissing casing m entry =
        { m with
          seen := m.seen ++ [entry.1]
          result := m.result ++ [entry.1 ++ '=' :: value] }) := by
  unfold addMissing
  cases hvalue : entry.2 with
  | none => exact .inl ⟨.inl rfl, rfl⟩
  | some value =>
    simp only
    by_cases hseen : Seen casing m.seen entry.1
    · exact .inl ⟨.inr hseen, if_pos hseen⟩
    · exact .inr ⟨hseen, value, rfl, if_neg hseen⟩

/-- `AppendMissing` adds settings of entries, none of another name. -/
theorem foldl_addMissing_result (casing : Casing) (es : List (Text × Option Text)) (m : Merging) :
    ∃ added : List (Text × Option Text), added.Sublist es ∧
      (es.foldl (addMissing casing) m).result = m.result ++ settings added ∧
      (es.foldl (addMissing casing) m).inWsl2 = m.inWsl2 ∧
      (es.foldl (addMissing casing) m).foundWsl2 = m.foundWsl2 := by
  induction es generalizing m with
  | nil => exact ⟨[], List.Sublist.refl [], (List.append_nil _).symm, rfl, rfl⟩
  | cons e es ih =>
    obtain ⟨added, hsub, hresult, hin, hfound⟩ := ih (addMissing casing m e)
    rw [List.foldl_cons, hresult, hin, hfound]
    rcases addMissing_cases casing m e with ⟨-, heq⟩ | ⟨-, value, hvalue, heq⟩
    · rw [heq]
      exact ⟨added, hsub.trans (List.sublist_cons_self e es), rfl, rfl, rfl⟩
    · rw [heq]
      refine ⟨e :: added, hsub.cons_cons e, ?_, rfl, rfl⟩
      unfold settings
      rw [List.filterMap_cons, hvalue]
      simp only [Option.map_some, List.append_assoc, List.singleton_append]

theorem appendMissing_result (casing : Casing) (entries : List (Text × Option Text))
    (m : Merging) :
    ∃ added : List (Text × Option Text), added.Sublist entries ∧
      (appendMissing casing entries m).result = m.result ++ settings added ∧
      (m.inWsl2 = false → added = []) ∧
      (appendMissing casing entries m).foundWsl2 = m.foundWsl2 := by
  unfold appendMissing
  cases hin : m.inWsl2 with
  | false => exact ⟨[], List.nil_sublist entries, (List.append_nil _).symm, fun _ => rfl, rfl⟩
  | true =>
    obtain ⟨added, hsub, hresult, -, hfound⟩ := foldl_addMissing_result casing entries m
    exact ⟨added, hsub, hresult, fun hc => (by cases hc), hfound⟩

/-! ## What stays -/

variable (casing entries) in
/-- The lines that are not settings of `[wsl2]` whose name is to merge. -/
def keptLines : Bool → List Text → List Text
  | _, [] => []
  | inWsl2, line :: rest =>
    match sectionName line with
    | some name => line :: keptLines (decide (casing.Same name wsl2)) rest
    | none =>
      match setting line with
      | some (key, _) =>
        if inWsl2 = true ∧ (tryGetValue casing entries key).isSome = true then keptLines inWsl2 rest
        else line :: keptLines inWsl2 rest
      | none => line :: keptLines inWsl2 rest

theorem keptLines_append (b : Bool) (xs ys : List Text) :
    keptLines casing entries b (xs ++ ys) =
      keptLines casing entries b xs ++ keptLines casing entries (endsIn casing b xs) ys := by
  induction xs generalizing b with
  | nil => rfl
  | cons x xs ih =>
    simp only [List.cons_append, keptLines, endsIn]
    cases sectionName x with
    | some name => exact congrArg (x :: ·) (ih _)
    | none =>
      cases setting x with
      | none => exact congrArg (x :: ·) (ih _)
      | some kv =>
        simp only
        split
        · exact ih _
        · exact congrArg (x :: ·) (ih _)

/-- What the lines written have of the lines read. -/
structure Merging.Follows (casing : Casing) (entries : List (Text × Option Text))
    (lines : List Text) (m : Merging) : Prop where
  others : ∀ key, tryGetValue casing entries key = none →
    firstValue casing key false m.result = firstValue casing key false lines
  kept : (keptLines casing entries false lines).Sublist m.result
  read_eq : endsIn casing false lines = m.inWsl2

/-- A name that is not merged is none of the entries. -/
theorem firstValue_settings_other (hentries : Mergeable casing entries) {key : Text}
    (hkey : tryGetValue casing entries key = none) {es : List (Text × Option Text)}
    (hes : es.Sublist entries) : firstValue casing key true (settings es) = none := by
  apply firstValue_settings_none hentries es hes
  intro e he hs
  exact not_same_of_tryGetValue hkey e (hes.subset he) hs.symm

namespace Merging.Follows

variable {m : Merging} {lines : List Text}

theorem init : Follows casing entries [] ⟨[], [], false, false⟩ :=
  ⟨fun _ _ => rfl, List.Sublist.refl [], rfl⟩

/-- Settings of entries at the end of a section `[wsl2]` are of no other name. -/
theorem appendMissing (h : m.Follows casing entries lines) (hs : m.Sound casing entries)
    (hentries : Mergeable casing entries) :
    (∀ key, tryGetValue casing entries key = none →
      firstValue casing key false (appendMissing casing entries m).result =
        firstValue casing key false lines) ∧
    (keptLines casing entries false lines).Sublist (appendMissing casing entries m).result := by
  obtain ⟨added, hsub, hresult, hclosed, -⟩ := appendMissing_result casing entries m
  rw [hresult]
  constructor
  · intro key hkey
    rw [firstValue_append, h.others key hkey, hs.section_eq]
    cases hin : m.inWsl2 with
    | false =>
      rw [hclosed hin]
      exact Option.or_none
    | true => rw [firstValue_settings_other hentries hkey hsub, Option.or_none]
  · exact h.kept.trans (List.sublist_append_left _ _)

theorem mergeLine (h : m.Follows casing entries lines) (hs : m.Sound casing entries)
    (hentries : Mergeable casing entries) (line : Text) :
    (mergeLine casing entries m line).Follows casing entries (lines ++ [line]) := by
  rcases mergeLine_cases casing entries m line with
    ⟨name, hsection, heq⟩ | ⟨hsection, hother, heq⟩ |
    ⟨hsection, key, value, replacement, hsetting, hin, hfind, heq⟩
  · rw [heq]
    obtain ⟨hothers, hkept⟩ := h.appendMissing hs hentries
    refine ⟨?_, ?_, ?_⟩
    · intro key hkey
      show firstValue casing key false (_ ++ [line]) = _
      rw [firstValue_append, firstValue_append, hothers key hkey]
      simp only [firstValue, hsection]
    · show (keptLines casing entries false (lines ++ [line])).Sublist (_ ++ [line])
      rw [keptLines_append]
      apply hkept.append
      simp only [keptLines, hsection]
      exact List.Sublist.refl _
    · rw [endsIn_append]
      simp only [endsIn, hsection]
  · rw [heq]
    refine ⟨?_, ?_, ?_⟩
    · intro key hkey
      show firstValue casing key false (m.result ++ [line]) = _
      rw [firstValue_append, firstValue_append, h.others key hkey, hs.section_eq, h.read_eq]
    · show (keptLines casing entries false (lines ++ [line])).Sublist (m.result ++ [line])
      rw [keptLines_append]
      apply h.kept.append
      simp only [keptLines, hsection]
      split
      · split
        · exact List.nil_sublist _
        · exact List.Sublist.refl _
      · exact List.Sublist.refl _
    · show endsIn casing false (lines ++ [line]) = m.inWsl2
      rw [endsIn_append, h.read_eq]
      simp only [endsIn, hsection]
  · -- the line is dropped or rewritten: no other name is in it, and it is not kept
    have hread : endsIn casing false (lines ++ [line]) = m.inWsl2 := by
      rw [endsIn_append, h.read_eq]
      simp only [endsIn, hsection]
    have hothers : ∀ k, tryGetValue casing entries k = none →
        firstValue casing k false (lines ++ [line]) = firstValue casing k false lines := by
      intro k hk
      obtain ⟨e, he, -, hsame⟩ := mem_of_tryGetValue hfind
      have hne : ¬ casing.Same key k := fun hc =>
        not_same_of_tryGetValue hk e he (hsame.trans hc).symm
      rw [firstValue_append]
      simp only [firstValue, hsection, hsetting, hne, and_false, if_false, Option.or_none]
    have hkept : keptLines casing entries false (lines ++ [line]) =
        keptLines casing entries false lines := by
      rw [keptLines_append, h.read_eq, hin]
      simp only [keptLines, hsection, hsetting, hfind, Option.isSome_some, and_self, if_true,
        List.append_nil]
    rw [heq]
    rcases replaceSetting_cases casing m key replacement with
      ⟨-, hm⟩ | ⟨-, -, hm⟩ | ⟨-, v, hv, hm⟩
    · rw [hm]
      exact ⟨fun k hk => (h.others k hk).trans (hothers k hk).symm, hkept ▸ h.kept, hread⟩
    · rw [hm]
      exact ⟨fun k hk => (h.others k hk).trans (hothers k hk).symm, hkept ▸ h.kept, hread⟩
    · rw [hm]
      refine ⟨?_, ?_, hread⟩
      · intro k hk
        obtain ⟨e, he, hvalue, hsame⟩ := mem_of_tryGetValue hfind
        have hw : Writable casing key v :=
          hentries.writable he (hvalue.trans hv) hsame (setting_key hsetting).2.1
        have hne : ¬ casing.Same key k := fun hc =>
          not_same_of_tryGetValue hk e he (hsame.trans hc).symm
        show firstValue casing k false (m.result ++ [key ++ '=' :: v]) = _
        rw [hothers k hk, firstValue_append, hs.section_eq, hin, hw.firstValue, if_neg hne,
          h.others k hk]
        exact Option.or_none
      · rw [hkept]
        exact h.kept.trans (List.sublist_append_left _ _)

theorem mergeLines (hentries : Mergeable casing entries) (rest : List Text)
    (hrest : ∀ l ∈ rest, '\n' ∉ l) (h : m.Follows casing entries lines)
    (hs : m.Sound casing entries) :
    (rest.foldl (WslConfig.mergeLine casing entries) m).Follows casing entries
      (lines ++ rest) := by
  induction rest generalizing m lines with
  | nil =>
    rw [List.append_nil]
    exact h
  | cons line rest ih =>
    have hnext := @ih _ (lines ++ [line]) (fun l hl => hrest l (List.mem_cons_of_mem _ hl))
      (h.mergeLine hs hentries line) (hs.mergeLine hentries (hrest line List.mem_cons_self))
    rw [List.append_assoc] at hnext
    exact hnext

end Merging.Follows

/-! ## The lines written, read again -/

theorem Mergeable.tryGetValue_eq (h : Mergeable casing entries) {e : Text × Option Text}
    (he : e ∈ entries) {key : Text} (hsame : casing.Same e.1 key) :
    tryGetValue casing entries key = some e.2 := by
  cases hfind : tryGetValue casing entries key with
  | none => exact absurd hsame.symm (not_same_of_tryGetValue hfind e he)
  | some replacement =>
    obtain ⟨e', he', hvalue, hsame'⟩ := mem_of_tryGetValue hfind
    have hee : e = e' := h.eq_of_same he he' (hsame.trans hsame'.symm)
    rw [hee, hvalue]

theorem mergeLine_keep {m : Merging} {line : Text} (hsection : sectionName line = none)
    (hother : ∀ key value, setting line = some (key, value) → m.inWsl2 = true →
      tryGetValue casing entries key = none) :
    mergeLine casing entries m line = { m with result := m.result ++ [line] } := by
  rcases mergeLine_cases casing entries m line with
    ⟨name, hname, -⟩ | ⟨-, -, heq⟩ | ⟨-, key, value, replacement, hsetting, hin, hfind, -⟩
  · rw [hsection] at hname
    cases hname
  · exact heq
  · rw [hother key value hsetting hin] at hfind
    cases hfind

theorem mergeLine_write {m : Merging} {key value : Text} (hw : Writable casing key value)
    (hin : m.inWsl2 = true) (hfind : tryGetValue casing entries key = some (some value))
    (hunseen : ¬ Seen casing m.seen key) :
    mergeLine casing entries m (key ++ '=' :: value) =
      { m with seen := m.seen ++ [key], result := m.result ++ [key ++ '=' :: value] } := by
  unfold mergeLine
  simp only [hw.sectionName, hw.setting, hin, if_true, hfind, replaceSetting]
  rw [if_neg hunseen]

/-- Nothing is missing once every name with a value was seen. -/
theorem foldl_addMissing_of_seen {es : List (Text × Option Text)} {m : Merging}
    (h : ∀ e ∈ es, e.2 ≠ none → Seen casing m.seen e.1) : es.foldl (addMissing casing) m = m := by
  induction es with
  | nil => rfl
  | cons e es ih =>
    rw [List.foldl_cons]
    rcases addMissing_cases casing m e with ⟨-, heq⟩ | ⟨hunseen, value, hvalue, -⟩
    · rw [heq]
      exact ih fun e' he' => h e' (List.mem_cons_of_mem _ he')
    · refine absurd (h e List.mem_cons_self ?_) hunseen
      rw [hvalue]
      exact Option.some_ne_none value

/-- What was missing is seen afterwards. -/
theorem foldl_addMissing_seen (es : List (Text × Option Text)) (m : Merging) :
    (∀ e ∈ es, e.2 ≠ none → Seen casing (es.foldl (addMissing casing) m).seen e.1) ∧
      (es.foldl (addMissing casing) m).foundWsl2 = m.foundWsl2 ∧
      ∀ k, Seen casing m.seen k → Seen casing (es.foldl (addMissing casing) m).seen k := by
  induction es generalizing m with
  | nil => exact ⟨fun e he => (by cases he), rfl, fun _ hk => hk⟩
  | cons e es ih =>
    obtain ⟨hadded, hfound, hmono⟩ := ih (addMissing casing m e)
    rw [List.foldl_cons, hfound]
    rcases addMissing_cases casing m e with ⟨hseen, heq⟩ | ⟨-, value, -, heq⟩
    · rw [heq] at hadded hmono ⊢
      refine ⟨?_, rfl, hmono⟩
      intro e' he' hne
      rcases List.mem_cons.mp he' with rfl | he'
      · exact hmono _ (hseen.resolve_left hne)
      · exact hadded e' he' hne
    · rw [heq] at hadded hmono ⊢
      refine ⟨?_, rfl, fun k hk => hmono k ((seen_append _ _ _).mpr (.inl hk))⟩
      intro e' he' hne
      rcases List.mem_cons.mp he' with rfl | he'
      · exact hmono _ ((seen_append _ _ _).mpr (.inr (.refl casing _)))
      · exact hadded e' he' hne

theorem appendMissing_of_seen {m : Merging}
    (h : m.inWsl2 = true → ∀ e ∈ entries, e.2 ≠ none → Seen casing m.seen e.1) :
    appendMissing casing entries m = { m with inWsl2 := false } := by
  unfold appendMissing
  cases hin : m.inWsl2 with
  | true =>
    rw [if_pos rfl, foldl_addMissing_of_seen (h hin)]
  | false =>
    rw [if_neg Bool.false_ne_true, ← hin]

theorem mergeLine_header {m : Merging} {line name : Text} (hsection : sectionName line = some name)
    (h : m.inWsl2 = true → ∀ e ∈ entries, e.2 ≠ none → Seen casing m.seen e.1) :
    mergeLine casing entries m line =
      { m with
        inWsl2 := decide (casing.Same name wsl2)
        foundWsl2 := m.foundWsl2 || decide (casing.Same name wsl2)
        result := m.result ++ [line] } := by
  unfold mergeLine
  simp only [hsection, appendMissing_of_seen h]

variable (casing entries) in
/-- The loop of `Merge` over lines. -/
def run (lines : List Text) : Merging :=
  lines.foldl (mergeLine casing entries) ⟨[], [], false, false⟩

theorem run_concat (lines : List Text) (line : Text) :
    run casing entries (lines ++ [line]) =
      mergeLine casing entries (run casing entries lines) line := by
  unfold run
  rw [List.foldl_append]
  rfl

/-- The lines written, read again, are written again, and leave the loop where it was. The names
without a value are not compared: no line of the result has them. -/
structure Merging.Settled (casing : Casing) (entries : List (Text × Option Text)) (m : Merging) :
    Prop where
  result_eq : (run casing entries m.result).result = m.result
  inWsl2_eq : (run casing entries m.result).inWsl2 = m.inWsl2
  foundWsl2_eq : (run casing entries m.result).foundWsl2 = m.foundWsl2
  seen_iff : ∀ e ∈ entries, e.2 ≠ none →
    (Seen casing (run casing entries m.result).seen e.1 ↔ Seen casing m.seen e.1)

namespace Merging.Settled

variable {m : Merging}

theorem init : Settled casing entries ⟨[], [], false, false⟩ :=
  ⟨rfl, rfl, rfl, fun _ _ _ => Iff.rfl⟩

theorem keep (h : m.Settled casing entries) {line : Text} (hsection : sectionName line = none)
    (hother : ∀ key value, setting line = some (key, value) → m.inWsl2 = true →
      tryGetValue casing entries key = none) :
    Settled casing entries { m with result := m.result ++ [line] } := by
  have hrun : run casing entries (m.result ++ [line]) =
      { run casing entries m.result with
        result := (run casing entries m.result).result ++ [line] } := by
    rw [run_concat]
    apply mergeLine_keep hsection
    intro key value hsetting hin
    exact hother key value hsetting (h.inWsl2_eq ▸ hin)
  constructor
  · simp only [hrun, h.result_eq]
  · simp only [hrun, h.inWsl2_eq]
  · simp only [hrun, h.foundWsl2_eq]
  · simp only [hrun]
    exact h.seen_iff

/-- A name with a value is written in a section `[wsl2]` that has not seen it. -/
theorem write (h : m.Settled casing entries) (hentries : Mergeable casing entries)
    (hin : m.inWsl2 = true) {e : Text × Option Text} (he : e ∈ entries) {key value : Text}
    (hvalue : e.2 = some value) (hsame : casing.Same e.1 key)
    (hchars : ∀ c ∈ key, isKeyChar c = true) (hunseen : ¬ Seen casing m.seen key) :
    Settled casing entries
      { m with seen := m.seen ++ [key], result := m.result ++ [key ++ '=' :: value] } := by
  have hne : e.2 ≠ none := by
    rw [hvalue]
    exact Option.some_ne_none value
  have hunseen' : ¬ Seen casing (run casing entries m.result).seen key := by
    intro hc
    apply hunseen
    rw [← seen_same hsame]
    rw [← seen_same hsame] at hc
    exact (h.seen_iff e he hne).mp hc
  have hrun : run casing entries (m.result ++ [key ++ '=' :: value]) =
      { run casing entries m.result with
        seen := (run casing entries m.result).seen ++ [key]
        result := (run casing entries m.result).result ++ [key ++ '=' :: value] } := by
    rw [run_concat]
    apply mergeLine_write (hentries.writable he hvalue hsame hchars) (h.inWsl2_eq.trans hin) _
      hunseen'
    rw [hentries.tryGetValue_eq he hsame, hvalue]
  constructor
  · simp only [hrun, h.result_eq]
  · simp only [hrun, h.inWsl2_eq]
  · simp only [hrun, h.foundWsl2_eq]
  · simp only [hrun]
    intro e' he' hne'
    rw [seen_append, seen_append, h.seen_iff e' he' hne']

/-- A name without a value is seen. -/
theorem skip (h : m.Settled casing entries) (hentries : Mergeable casing entries)
    {e : Text × Option Text} (he : e ∈ entries) {key : Text} (hvalue : e.2 = none)
    (hsame : casing.Same e.1 key) : Settled casing entries { m with seen := m.seen ++ [key] } := by
  refine ⟨h.result_eq, h.inWsl2_eq, h.foundWsl2_eq, ?_⟩
  intro e' he' hne'
  rw [seen_append, h.seen_iff e' he' hne', or_iff_left]
  intro hc
  rw [hentries.eq_of_same he he' (hsame.trans hc)] at hvalue
  exact hne' hvalue

theorem addMissing (h : m.Settled casing entries) (hentries : Mergeable casing entries)
    (hin : m.inWsl2 = true) {e : Text × Option Text} (he : e ∈ entries) :
    (addMissing casing m e).Settled casing entries := by
  rcases addMissing_cases casing m e with ⟨-, heq⟩ | ⟨hunseen, value, hvalue, heq⟩
  · rw [heq]
    exact h
  · rw [heq]
    exact h.write hentries hin he hvalue (.refl casing e.1) (hentries.keyChars e he) hunseen

theorem foldl_addMissing (hentries : Mergeable casing entries) (es : List (Text × Option Text))
    (hes : ∀ e ∈ es, e ∈ entries) (h : m.Settled casing entries) (hin : m.inWsl2 = true) :
    (es.foldl (WslConfig.addMissing casing) m).Settled casing entries := by
  induction es generalizing m with
  | nil => exact h
  | cons e es ih =>
    have hkeeps : (WslConfig.addMissing casing m e).inWsl2 = true := by
      rcases addMissing_cases casing m e with ⟨-, heq⟩ | ⟨-, value, -, heq⟩
      · rw [heq]
        exact hin
      · rw [heq]
        exact hin
    exact ih (fun e' he' => hes e' (List.mem_cons_of_mem _ he'))
      (h.addMissing hentries hin (hes e List.mem_cons_self)) hkeeps

/-- A header after lines that miss no name. -/
theorem header (h : m.Settled casing entries) {line name : Text}
    (hsection : sectionName line = some name)
    (hseen : m.inWsl2 = true → ∀ e ∈ entries, e.2 ≠ none → Seen casing m.seen e.1) :
    Settled casing entries
      { m with
        inWsl2 := decide (casing.Same name wsl2)
        foundWsl2 := m.foundWsl2 || decide (casing.Same name wsl2)
        result := m.result ++ [line] } := by
  have hrun : run casing entries (m.result ++ [line]) =
      { run casing entries m.result with
        inWsl2 := decide (casing.Same name wsl2)
        foundWsl2 := (run casing entries m.result).foundWsl2 || decide (casing.Same name wsl2)
        result := (run casing entries m.result).result ++ [line] } := by
    rw [run_concat]
    apply mergeLine_header hsection
    intro hin e he hne
    rw [h.inWsl2_eq] at hin
    exact (h.seen_iff e he hne).mpr (hseen hin e he hne)
  constructor
  · simp only [hrun, h.result_eq]
  · simp only [hrun]
  · simp only [hrun, h.foundWsl2_eq]
  · simp only [hrun]
    exact h.seen_iff

/-- `AppendMissing`, with the section still open. -/
theorem filled (h : m.Settled casing entries) (hentries : Mergeable casing entries) :
    ∃ m' : Merging, m'.Settled casing entries ∧ m'.inWsl2 = m.inWsl2 ∧
      appendMissing casing entries m = { m' with inWsl2 := false } ∧
      (m'.inWsl2 = true → ∀ e ∈ entries, e.2 ≠ none → Seen casing m'.seen e.1) := by
  unfold WslConfig.appendMissing
  cases hin : m.inWsl2 with
  | false =>
    refine ⟨m, h, hin, ?_, ?_⟩
    · rw [if_neg Bool.false_ne_true, ← hin]
    · intro hc
      rw [hin] at hc
      cases hc
  | true =>
    obtain ⟨-, -, -, hin', -⟩ := foldl_addMissing_result casing entries m
    exact ⟨entries.foldl (WslConfig.addMissing casing) m,
      foldl_addMissing hentries entries (fun e he => he) h hin, hin'.trans hin, if_pos rfl,
      fun _ => (foldl_addMissing_seen entries m).1⟩

theorem mergeLine (h : m.Settled casing entries) (hentries : Mergeable casing entries)
    (line : Text) : (mergeLine casing entries m line).Settled casing entries := by
  rcases mergeLine_cases casing entries m line with
    ⟨name, hsection, heq⟩ | ⟨hsection, hother, heq⟩ |
    ⟨hsection, key, value, replacement, hsetting, hin, hfind, heq⟩
  · obtain ⟨m', hm', -, hclosed, hseen⟩ := h.filled hentries
    rw [heq, hclosed]
    exact hm'.header hsection hseen
  · rw [heq]
    exact h.keep hsection hother
  · obtain ⟨e, he, hvalue, hsame⟩ := mem_of_tryGetValue hfind
    rw [heq]
    rcases replaceSetting_cases casing m key replacement with
      ⟨-, hm⟩ | ⟨-, hnone, hm⟩ | ⟨hunseen, v, hv, hm⟩
    · rw [hm]
      exact h
    · rw [hm]
      exact h.skip hentries he (hvalue.trans hnone) hsame
    · rw [hm]
      exact h.write hentries hin he (hvalue.trans hv) hsame (setting_key hsetting).2.1 hunseen

theorem mergeLines (hentries : Mergeable casing entries) (lines : List Text)
    (h : m.Settled casing entries) :
    (lines.foldl (WslConfig.mergeLine casing entries) m).Settled casing entries := by
  induction lines generalizing m with
  | nil => exact h
  | cons line rest ih => exact ih (h.mergeLine hentries line)

end Merging.Settled

/-! ## The lines of a merged text -/

variable (casing entries) in
/-- What `Merge` makes of lines. -/
def mergedOf (lines : List Text) : List Text :=
  let merged := appendMissing casing entries (run casing entries lines)
  if merged.foundWsl2 then merged.result else appendSection entries merged.result

theorem mergedLines_eq (document : TextDocument) :
    mergedLines casing document entries =
      mergedOf casing entries (dropEmptyLast (splitLines document.text)) := rfl

/-- Lines with a section `[wsl2]` that miss no name, and that the loop writes again. -/
structure Complete (casing : Casing) (entries : List (Text × Option Text)) (lines : List Text) :
    Prop where
  result_eq : (run casing entries lines).result = lines
  found : (run casing entries lines).foundWsl2 = true
  seen : (run casing entries lines).inWsl2 = true → ∀ e ∈ entries, e.2 ≠ none →
    Seen casing (run casing entries lines).seen e.1

theorem Complete.mergedOf {lines : List Text} (h : Complete casing entries lines) :
    mergedOf casing entries lines = lines := by
  unfold WslConfig.mergedOf
  simp only [appendMissing_of_seen h.seen, h.found, h.result_eq, if_true]

theorem Complete.ne_nil {lines : List Text} (h : Complete casing entries lines) : lines ≠ [] := by
  rintro rfl
  have hf := h.found
  cases hf

theorem sectionName_nil : sectionName [] = none := rfl

theorem setting_nil : setting [] = none := rfl

/-- An empty line at the end is not missed. -/
theorem Complete.of_concat {lines : List Text} (h : Complete casing entries (lines ++ [[]])) :
    Complete casing entries lines := by
  have hrun : run casing entries (lines ++ [[]]) =
      { run casing entries lines with result := (run casing entries lines).result ++ [[]] } := by
    rw [run_concat]
    apply mergeLine_keep sectionName_nil
    intro key value hsetting
    rw [setting_nil] at hsetting
    cases hsetting
  constructor
  · have heq := h.result_eq
    rw [hrun] at heq
    exact List.append_cancel_right heq
  · have hf := h.found
    rw [hrun] at hf
    exact hf
  · have hseen := h.seen
    rw [hrun] at hseen
    exact hseen

theorem Merging.Settled.complete {m : Merging} (h : m.Settled casing entries)
    (hfound : m.foundWsl2 = true)
    (hseen : m.inWsl2 = true → ∀ e ∈ entries, e.2 ≠ none → Seen casing m.seen e.1) :
    Complete casing entries m.result := by
  refine ⟨h.result_eq, h.foundWsl2_eq.trans hfound, ?_⟩
  intro hin e he hne
  rw [h.inWsl2_eq] at hin
  exact (h.seen_iff e he hne).mpr (hseen hin e he hne)

/-- Names that were not seen are all added. -/
theorem foldl_addMissing_unseen (es : List (Text × Option Text)) (m : Merging)
    (hdistinct : es.Pairwise fun a b => ¬ casing.Same a.1 b.1)
    (hunseen : ∀ e ∈ es, ¬ Seen casing m.seen e.1) :
    (es.foldl (addMissing casing) m).result = m.result ++ settings es := by
  induction es generalizing m with
  | nil => exact (List.append_nil _).symm
  | cons e es ih =>
    obtain ⟨hother, hdistinct'⟩ := List.pairwise_cons.mp hdistinct
    rw [List.foldl_cons]
    unfold settings
    rw [List.filterMap_cons]
    rcases addMissing_cases casing m e with ⟨hnone | hc, heq⟩ | ⟨-, value, hvalue, heq⟩
    · rw [heq, hnone]
      exact ih m hdistinct' fun e' he' => hunseen e' (List.mem_cons_of_mem _ he')
    · exact absurd hc (hunseen e List.mem_cons_self)
    · rw [heq, hvalue, ih _ hdistinct']
      · simp only [Option.map_some, List.append_assoc, List.singleton_append]
        rfl
      · intro e' he' hc
        rcases (seen_append _ _ _).mp hc with hc | hc
        · exact hunseen e' (List.mem_cons_of_mem _ he') hc
        · exact hother e' he' hc

theorem Merging.Settled.appendSection {m : Merging} (h : m.Settled casing entries)
    (hentries : Mergeable casing entries) (hin : m.inWsl2 = false) (hseen : m.seen = []) :
    Complete casing entries (appendSection entries m.result) := by
  have hspaced : Settled casing entries { m with
      result := if m.result.getLast?.any fun line => !line.isEmpty then m.result ++ [[]]
        else m.result } := by
    split
    · apply h.keep sectionName_nil
      intro key value hsetting
      rw [setting_nil] at hsetting
      cases hsetting
    · exact h
  have hsection : sectionName "[wsl2]".toList = some wsl2 := by decide
  have hheader := hspaced.header hsection fun hc => absurd (hin.symm.trans hc) Bool.false_ne_true
  have hopen : decide (casing.Same wsl2 wsl2) = true := decide_eq_true (.refl casing wsl2)
  simp only [hopen, Bool.or_true] at hheader
  have hfilled := foldl_addMissing hentries entries (fun e he => he) hheader rfl
  obtain ⟨hadded, hfound, -⟩ := foldl_addMissing_seen entries _
  have hcomplete := hfilled.complete hfound fun _ => hadded
  rw [foldl_addMissing_unseen entries _ hentries.distinct] at hcomplete
  · unfold WslConfig.appendSection
    rw [List.append_assoc] at hcomplete
    exact hcomplete
  · rintro e - ⟨k, hk, -⟩
    rw [hseen] at hk
    cases hk

/-- What `Merge` makes of lines misses no name. -/
theorem complete_mergedOf (hentries : Mergeable casing entries) {lines : List Text}
    (hlines : ∀ l ∈ lines, '\n' ∉ l) : Complete casing entries (mergedOf casing entries lines) := by
  have hsound : (run casing entries lines).Sound casing entries :=
    Merging.Sound.mergeLines hentries lines hlines Merging.Sound.init
  have hsettled : (run casing entries lines).Settled casing entries :=
    Merging.Settled.mergeLines hentries lines Merging.Settled.init
  obtain ⟨m', hm', -, hclosed, hseen⟩ := hsettled.filled hentries
  obtain ⟨added, -, hresult, hnone, hfound⟩ :=
    appendMissing_result casing entries (run casing entries lines)
  unfold mergedOf
  simp only
  split
  · next h =>
      rw [hclosed] at h ⊢
      exact hm'.complete h hseen
  · next h =>
      have hunfound : (run casing entries lines).foundWsl2 = false := by
        rw [← hfound]
        exact Bool.eq_false_iff.mpr h
      have hout : (run casing entries lines).inWsl2 = false := by
        cases hin : (run casing entries lines).inWsl2 with
        | false => rfl
        | true =>
          rw [hsound.found hin] at hunfound
          cases hunfound
      rw [hresult, hnone hout]
      show Complete casing entries (appendSection entries (_ ++ []))
      rw [List.append_nil]
      exact hsettled.appendSection hentries hout (hsound.unfound hunfound)

/-- What holds of the lines read, of an empty line, of a header and of every setting that is
written holds of the lines that are merged. -/
theorem forall_mem_mergedOf (hentries : Mergeable casing entries) {p : Text → Prop}
    (hnil : p []) (hheader : p "[wsl2]".toList)
    (hwritten : ∀ key value, Writable casing key value → p (key ++ '=' :: value))
    {lines : List Text} (hlines : ∀ l ∈ lines, p l) :
    ∀ l ∈ mergedOf casing entries lines, p l := by
  have hadded : ∀ added : List (Text × Option Text), added.Sublist entries →
      ∀ l ∈ settings added, p l := by
    intro added hsub l hl
    obtain ⟨e, -, v, -, rfl, hw⟩ := writable_of_mem_settings hentries hsub hl
    exact hwritten e.1 v hw
  have hmissing : ∀ m : Merging, (∀ l ∈ m.result, p l) →
      ∀ l ∈ (appendMissing casing entries m).result, p l := by
    intro m hm l hl
    obtain ⟨added, hsub, hresult, -, -⟩ := appendMissing_result casing entries m
    rw [hresult] at hl
    rcases List.mem_append.mp hl with hl | hl
    · exact hm l hl
    · exact hadded added hsub l hl
  have hconcat : ∀ (result : List Text) (line : Text), (∀ l ∈ result, p l) → p line →
      ∀ l ∈ result ++ [line], p l := by
    intro result line hresult hline l hl
    rcases List.mem_append.mp hl with hl | hl
    · exact hresult l hl
    · rw [List.mem_singleton.mp hl]
      exact hline
  have hloop : ∀ (rest : List Text) (m : Merging), (∀ l ∈ rest, p l) → (∀ l ∈ m.result, p l) →
      ∀ l ∈ (rest.foldl (mergeLine casing entries) m).result, p l := by
    intro rest
    induction rest with
    | nil => exact fun m _ hm => hm
    | cons line rest ih =>
      intro m hrest hm
      refine ih _ (fun l hl => hrest l (List.mem_cons_of_mem _ hl)) ?_
      have hline := hrest line List.mem_cons_self
      rcases mergeLine_cases casing entries m line with
        ⟨name, -, heq⟩ | ⟨-, -, heq⟩ | ⟨-, key, value, replacement, hsetting, -, hfind, heq⟩
      · rw [heq]
        exact hconcat _ line (hmissing m hm) hline
      · rw [heq]
        exact hconcat _ line hm hline
      · rw [heq]
        rcases replaceSetting_cases casing m key replacement with
          ⟨-, hr⟩ | ⟨-, -, hr⟩ | ⟨-, v, hv, hr⟩
        · rw [hr]
          exact hm
        · rw [hr]
          exact hm
        · rw [hr]
          obtain ⟨e, he, hvalue, hsame⟩ := mem_of_tryGetValue hfind
          exact hconcat _ _ hm (hwritten key v
            (hentries.writable he (hvalue.trans hv) hsame (setting_key hsetting).2.1))
  have hrun := hmissing _ (hloop lines ⟨[], [], false, false⟩ hlines fun l hl => (by cases hl))
  unfold mergedOf
  simp only
  split
  · exact hrun
  · intro l hl
    unfold appendSection at hl
    rcases List.mem_append.mp hl with hl | hl
    · split at hl
      · exact hconcat _ [] hrun hnil l hl
      · exact hrun l hl
    · rcases List.mem_cons.mp hl with rfl | hl
      · exact hheader
      · exact hadded entries (List.Sublist.refl entries) l hl

end SwitchTrade.Installer.WslConfig

/-! ## Line endings that are read as they were written -/

namespace SwitchTrade.Installer.TextDocument

open Lines

theorem containsCrlf_cons {c : Char} {cs : List Char} (h : c = '\r' → cs.head? ≠ some '\n') :
    containsCrlf (c :: cs) = containsCrlf cs := by
  rw [containsCrlf]
  intro cs' hc hcs
  rw [hcs] at h
  exact h hc rfl

theorem containsCrlf_of_append {xs ys : Text} (h : containsCrlf ys = true) :
    containsCrlf (xs ++ ys) = true := by
  induction xs with
  | nil => exact h
  | cons c cs ih =>
    by_cases hcr : c = '\r' ∧ (cs ++ ys).head? = some '\n'
    · obtain ⟨rest, hrest⟩ := List.head?_eq_some_iff.mp hcr.2
      rw [List.cons_append, hcr.1, hrest]
      rfl
    · rw [List.cons_append, containsCrlf_cons fun hc hn => hcr ⟨hc, hn⟩]
      exact ih

theorem containsCrlf_of_lf_not_mem {l : Text} (h : '\n' ∉ l) : containsCrlf l = false := by
  induction l with
  | nil => rfl
  | cons c cs ih =>
    have hcs : '\n' ∉ cs := fun hm => h (List.mem_cons_of_mem _ hm)
    rw [containsCrlf_cons fun _ hn => hcs (List.mem_of_mem_head? hn)]
    exact ih hcs

theorem containsCrlf_line {l : Text} (h : '\n' ∉ l) (hcr : l.getLast? ≠ some '\r') (rest : Text) :
    containsCrlf (l ++ '\n' :: rest) = containsCrlf rest := by
  induction l with
  | nil => exact containsCrlf_cons fun hc => absurd hc (by decide)
  | cons c cs ih =>
    have hcs : '\n' ∉ cs := fun hm => h (List.mem_cons_of_mem _ hm)
    cases cs with
    | nil =>
      have hc : c = '\r' → ('\n' :: rest).head? ≠ some '\n' := by
        rintro rfl
        exact absurd rfl hcr
      rw [List.cons_append, List.nil_append, containsCrlf_cons hc]
      exact ih hcs fun hc => (by cases hc)
    | cons d ds =>
      have hd : d ≠ '\n' := fun he => hcs (he ▸ List.mem_cons_self)
      rw [List.getLast?_cons_cons] at hcr
      have hc : c = '\r' → (d :: ds ++ '\n' :: rest).head? ≠ some '\n' :=
        fun _ hn => hd (Option.some.inj hn)
      rw [List.cons_append, containsCrlf_cons hc]
      exact ih hcs hcr

theorem containsCrlf_joinLines_lf {lines : List Text} (hlf : ∀ l ∈ lines, '\n' ∉ l)
    (hcr : ∀ l ∈ lines, l.getLast? ≠ some '\r') (final : Bool) :
    containsCrlf (joinLines .lf lines ++ if final then NewLine.text .lf else []) = false := by
  induction lines with
  | nil =>
    cases final with
    | false => rfl
    | true => rfl
  | cons l ls ih =>
    have hl := hlf l List.mem_cons_self
    have hc := hcr l List.mem_cons_self
    have hrest := ih (fun l' h' => hlf l' (List.mem_cons_of_mem _ h'))
      fun l' h' => hcr l' (List.mem_cons_of_mem _ h')
    by_cases hls : ls = []
    · rw [hls]
      cases final with
      | false =>
        show containsCrlf (l ++ []) = false
        rw [List.append_nil, containsCrlf_of_lf_not_mem hl]
      | true => exact (containsCrlf_line hl hc []).trans rfl
    · rw [joinLines_cons hls]
      simp only [NewLine.text, List.append_assoc, List.cons_append, List.nil_append] at hrest ⊢
      rw [containsCrlf_line hl hc]
      exact hrest

theorem containsCrlf_joinLines_crlf {lines : List Text} {final : Bool}
    (h : final = true ∨ 2 ≤ lines.length) :
    containsCrlf (joinLines .crlf lines ++ if final then NewLine.text .crlf else []) = true := by
  rcases h with rfl | h
  · exact containsCrlf_of_append rfl
  · cases lines with
    | nil => cases h
    | cons l ls =>
      have hls : ls ≠ [] := by
        rintro rfl
        rw [List.length_singleton] at h
        omega
      rw [joinLines_cons hls, List.append_assoc, List.append_assoc]
      exact containsCrlf_of_append rfl

/-- A text without CRLF whose last character is no carriage return has no line that ends in
one. -/
theorem getLast?_of_mem_splitLines {text : Text} (hcrlf : containsCrlf text = false)
    (hlast : text.getLast? ≠ some '\r') : ∀ l ∈ splitLines text, l.getLast? ≠ some '\r' := by
  induction text using splitLines.induct with
  | case1 =>
    intro l hl
    rw [List.mem_singleton.mp hl]
    exact fun hc => (by cases hc)
  | case2 cs ih =>
    rw [containsCrlf_cons fun hc => absurd hc (by decide)] at hcrlf
    intro l hl
    rcases List.mem_cons.mp hl with rfl | hl
    · exact fun hc => (by cases hc)
    · refine ih hcrlf ?_ l hl
      intro hc
      apply hlast
      rw [List.getLast?_cons, hc]
      rfl
  | case3 cs ih => cases hcrlf
  | case4 c cs hn hr ih =>
    have hhead : c = '\r' → cs.head? ≠ some '\n' := by
      intro hc hh
      obtain ⟨rest, hrest⟩ := List.head?_eq_some_iff.mp hh
      exact hr rest hc hrest
    rw [containsCrlf_cons hhead] at hcrlf
    have hcs : cs.getLast? ≠ some '\r' := by
      intro hc
      apply hlast
      rw [List.getLast?_cons, hc]
      rfl
    have hrest := ih hcrlf hcs
    rw [splitLines_cons hn hhead]
    cases hlines : splitLines cs with
    | nil => exact absurd hlines (splitLines_ne_nil cs)
    | cons l' ls =>
      rw [hlines] at hrest
      intro l hl
      rcases List.mem_cons.mp hl with rfl | hl
      · cases l' with
        | cons d ds =>
          rw [List.getLast?_cons_cons]
          exact hrest _ List.mem_cons_self
        | nil =>
          -- the carriage return stands alone in its line: at the end, or before a line feed
          intro hc
          cases hc
          cases cs with
          | nil => exact hlast rfl
          | cons d ds =>
            have hd : d ≠ '\n' := fun he => hhead rfl (congrArg some he)
            by_cases hdr : d = '\r' ∧ ds.head? = some '\n'
            · obtain ⟨rest, hds⟩ := List.head?_eq_some_iff.mp hdr.2
              rw [hdr.1, hds] at hcrlf
              cases hcrlf
            · rw [splitLines_cons hd fun h1 h2 => hdr ⟨h1, h2⟩] at hlines
              cases hds : splitLines ds with
              | nil => exact absurd hds (splitLines_ne_nil ds)
              | cons l ls =>
                rw [hds] at hlines
                cases hlines
      · exact hrest l (List.mem_cons_of_mem _ hl)

end SwitchTrade.Installer.TextDocument

/-! ## The merged text -/

namespace SwitchTrade.Installer.WslConfig

open Lines TextDocument

variable {casing : Casing} {entries : List (Text × Option Text)}

theorem merge_eq (document : TextDocument) :
    merge casing document entries =
      joinLines document.newLine (mergedLines casing document entries) ++
        if document.finalNewLine || document.text.isEmpty then document.newLine.text else [] := by
  unfold merge
  simp only
  split
  · rfl
  · exact (List.append_nil _).symm

/-- Complete lines that are written and read as they are are merged to the same text. -/
theorem merge_written {lines : List Text} (h : Complete casing entries lines) {nl : NewLine}
    (hlf : ∀ l ∈ lines, '\n' ∉ l) (hcr : nl = .crlf ∨ ∀ l ∈ lines, l.getLast? ≠ some '\r')
    (final : Bool) (hfinal : final = false → lines.getLast? ≠ some []) (encoding : Encoding) :
    let text := joinLines nl lines ++ if final then nl.text else []
    merge casing (read ⟨encoding, text⟩) entries = text := by
  intro text
  have hne := h.ne_nil
  have hread : ∀ l ∈ lines, nl.read l = l :=
    fun l hl => NewLine.read_eq (hcr.imp id fun hc => hc l hl)
  have hsplit : dropEmptyLast (splitLines text) = lines := by
    show dropEmptyLast (splitLines (joinLines nl lines ++ _)) = lines
    rw [splitLines_joinLines hne hlf hread]
    unfold dropEmptyLast
    cases final with
    | true =>
      simp only [if_true, List.getLast?_concat, List.dropLast_concat]
    | false =>
      simp only [Bool.false_eq_true, if_false, List.append_nil]
      rw [if_neg (hfinal rfl)]
  -- the text ends in a line feed exactly when the final line ending was written
  have hends : (decide (text.getLast? = some '\n') || text.isEmpty) = final := by
    cases final with
    | true =>
      have hlast : text.getLast? = some '\n' := by
        show (joinLines nl lines ++ nl.text).getLast? = some '\n'
        rw [List.getLast?_append]
        cases nl with
        | lf => rfl
        | crlf => rfl
      rw [hlast]
      rfl
    | false =>
      obtain ⟨l, hl⟩ : ∃ l, lines.getLast? = some l := ⟨_, List.getLast?_eq_some_getLast hne⟩
      have hlne : l ≠ [] := by
        rintro rfl
        exact hfinal rfl hl
      have hlast : text.getLast? = l.getLast? := by
        show (joinLines nl lines ++ []).getLast? = _
        rw [List.append_nil]
        exact getLast?_joinLines hl hlne
      have hlf' : '\n' ∉ l := hlf l (List.mem_of_getLast? hl)
      rw [Bool.or_eq_false_iff]
      constructor
      · rw [decide_eq_false_iff_not, hlast]
        intro hc
        exact hlf' (List.mem_of_getLast? hc)
      · cases htext : text with
        | cons c cs => rfl
        | nil =>
          rw [htext] at hlast
          exact absurd (List.getLast?_eq_none_iff.mp hlast.symm) hlne
  have hcrlf : containsCrlf text = decide (nl = .crlf) ∨ (final = false ∧ ∃ l, lines = [l]) := by
    cases nl with
    | lf =>
      left
      rcases hcr with hc | hcr
      · cases hc
      · exact containsCrlf_joinLines_lf hlf hcr final
    | crlf =>
      by_cases hlong : final = true ∨ 2 ≤ lines.length
      · exact .inl (containsCrlf_joinLines_crlf hlong)
      · right
        simp only [not_or, Bool.not_eq_true, Nat.not_le] at hlong
        refine ⟨hlong.1, ?_⟩
        have hpos : 0 < lines.length := List.length_pos_iff.mpr hne
        exact List.length_eq_one_iff.mp (by omega)
  have hlines : mergedLines casing (read ⟨encoding, text⟩) entries = lines := by
    rw [mergedLines_eq]
    show mergedOf casing entries (dropEmptyLast (splitLines text)) = lines
    rw [hsplit]
    exact h.mergedOf
  rw [merge_eq, hlines]
  show joinLines (if containsCrlf text then .crlf else .lf) lines ++
    (if (decide (text.getLast? = some '\n') || text.isEmpty) = true then
      NewLine.text (if containsCrlf text then .crlf else .lf) else []) = text
  rw [hends]
  rcases hcrlf with hc | ⟨hf, l, hl⟩
  · rw [hc]
    cases nl with
    | lf => rfl
    | crlf => rfl
  · show _ = joinLines nl lines ++ if final then nl.text else []
    rw [hf, hl]
    rfl

/-- A document as `TextDocument.Read` makes it, or the one of a missing file. -/
def IsDocument (document : TextDocument) : Prop :=
  document = TextDocument.empty ∨ ∃ content, document = TextDocument.read content

theorem lines_read {document : TextDocument} (hdocument : IsDocument document)
    (h : containsCrlf document.text = true ∨ document.text.getLast? ≠ some '\r') :
    document.newLine = .crlf ∨
      ∀ l ∈ splitLines document.text, l.getLast? ≠ some '\r' := by
  rcases hdocument with rfl | ⟨content, rfl⟩
  · exact .inl rfl
  · cases hc : containsCrlf content.text with
    | true =>
      left
      show (if containsCrlf content.text then NewLine.crlf else .lf) = .crlf
      rw [hc]
      rfl
    | false =>
      right
      have hlast := h.resolve_left (by rw [show (read content).text = content.text from rfl, hc]
                                       exact Bool.false_ne_true)
      exact getLast?_of_mem_splitLines hc hlast

theorem mem_of_mem_dropEmptyLast {lines : List Text} {l : Text} (h : l ∈ dropEmptyLast lines) :
    l ∈ lines := by
  unfold dropEmptyLast at h
  split at h
  · exact (List.dropLast_subset _) h
  · exact h

/-- The merged lines end in no carriage return that the text's line ending would take in. -/
theorem mergedLines_read (hentries : Mergeable casing entries) {document : TextDocument}
    (hdocument : IsDocument document)
    (h : containsCrlf document.text = true ∨ document.text.getLast? ≠ some '\r') :
    document.newLine = .crlf ∨
      ∀ l ∈ mergedLines casing document entries, l.getLast? ≠ some '\r' := by
  refine (lines_read hdocument h).imp id ?_
  intro hlines
  rw [mergedLines_eq]
  apply @forall_mem_mergedOf casing entries hentries fun l => l.getLast? ≠ some '\r'
  · exact fun hc => (by cases hc)
  · decide
  · intro key value hw hlast
    have hblank : isSpace '\r' = true := by decide
    cases hvalue : value with
    | nil =>
      rw [hvalue, List.getLast?_concat] at hlast
      cases hlast
    | cons c cs =>
      rw [hvalue, List.getLast?_append, List.getLast?_cons_cons] at hlast
      have hend : (c :: cs).getLast? = some '\r' := by
        rw [List.getLast?_eq_some_getLast (List.cons_ne_nil c cs)] at hlast ⊢
        exact hlast
      obtain ⟨init, hinit⟩ := List.getLast?_eq_some_iff.mp hend
      have htrim := hw.trimmed
      rw [hvalue, hinit, trim_append_blank hblank] at htrim
      have hlength : (trim isSpace init).length ≤ init.length :=
        ((List.rdropWhile_prefix isSpace _).length_le).trans
          (List.dropWhile_suffix isSpace).length_le
      rw [htrim, List.length_append, List.length_singleton] at hlength
      omega
  · exact fun l hl => hlines l (mem_of_mem_dropEmptyLast hl)

/-- Merging again into the merged text gives the merged text. -/
theorem merge_merged (hentries : Mergeable casing entries) {document : TextDocument}
    (hdocument : IsDocument document)
    (h : containsCrlf document.text = true ∨ document.text.getLast? ≠ some '\r') :
    let merged := merge casing document entries
    merge casing (read (document.bytes merged)) entries = merged := by
  intro merged
  have hcomplete : Complete casing entries (mergedLines casing document entries) := by
    rw [mergedLines_eq]
    exact complete_mergedOf hentries fun l hl => lf_not_mem_of_mem_dropEmptyLast hl
  have hlf := (mergedLines_values hentries document).2
  have hcr := mergedLines_read hentries hdocument h
  have hmerged : merged = _ := merge_eq document
  show merge casing (read ⟨document.encoding, merged⟩) entries = merged
  rw [hmerged]
  cases hfinal : document.finalNewLine || document.text.isEmpty with
  | true => exact merge_written hcomplete hlf hcr true (fun hc => (by cases hc)) _
  | false =>
    by_cases hlast : (mergedLines casing document entries).getLast? = some []
    · -- the empty last line is the line ending of the lines before it
      obtain ⟨lines, hlines⟩ := List.getLast?_eq_some_iff.mp hlast
      rw [hlines] at hcomplete hlf hcr ⊢
      have hinit := hcomplete.of_concat
      have hwritten := @merge_written _ _ _ hinit document.newLine
        (fun l hl => hlf l (List.mem_append_left _ hl))
        (hcr.imp id fun hc l hl => hc l (List.mem_append_left _ hl)) true
        (fun hc => (by cases hc)) document.encoding
      simp only [if_true] at hwritten
      rw [joinLines_concat_nil hinit.ne_nil]
      simp only [Bool.false_eq_true, if_false, List.append_nil]
      exact hwritten
    · exact merge_written hcomplete hlf hcr false (fun _ => hlast) _

theorem dropEmptyLast_append (lines : List Text) :
    dropEmptyLast lines ++ (if lines.getLast? = some [] then [[]] else []) = lines := by
  unfold dropEmptyLast
  by_cases h : lines.getLast? = some []
  · obtain ⟨init, rfl⟩ := List.getLast?_eq_some_iff.mp h
    rw [if_pos h, if_pos h, List.dropLast_concat]
  · rw [if_neg h, if_neg h, List.append_nil]

theorem follows_run (hentries : Mergeable casing entries) {lines : List Text}
    (hlines : ∀ l ∈ lines, '\n' ∉ l) :
    (run casing entries lines).Follows casing entries lines :=
  Merging.Follows.mergeLines hentries lines hlines Merging.Follows.init Merging.Sound.init

/-- What stays of lines is in the lines that `Merge` makes of them, and the names that are not
merged have the values they had. -/
theorem mergedOf_follows (hentries : Mergeable casing entries) {lines : List Text}
    (hlines : ∀ l ∈ lines, '\n' ∉ l) :
    (∀ key, tryGetValue casing entries key = none →
      firstValue casing key false (mergedOf casing entries lines) =
        firstValue casing key false lines) ∧
    (keptLines casing entries false lines).Sublist (mergedOf casing entries lines) := by
  have hsound : (run casing entries lines).Sound casing entries :=
    Merging.Sound.mergeLines hentries lines hlines Merging.Sound.init
  obtain ⟨hothers, hkept⟩ := (follows_run hentries hlines).appendMissing hsound hentries
  unfold mergedOf
  simp only
  generalize (appendMissing casing entries (run casing entries lines)).foundWsl2 = found
  generalize (appendMissing casing entries (run casing entries lines)).result = result
    at hothers hkept ⊢
  cases found with
  | true => exact ⟨hothers, hkept⟩
  | false =>
    unfold appendSection
    simp only [Bool.false_eq_true, if_false]
    constructor
    · intro key hkey
      have hsection : sectionName "[wsl2]".toList = some wsl2 := by decide
      have hopen : decide (casing.Same wsl2 wsl2) = true := decide_eq_true (.refl casing wsl2)
      have hspaced : firstValue casing key false
          (if result.getLast?.any fun line => !line.isEmpty then result ++ [[]] else result) =
            firstValue casing key false result := by
        split
        · exact firstValue_append_nil key false result
        · rfl
      rw [firstValue_append, hspaced, hothers key hkey]
      simp only [firstValue, hsection, hopen]
      rw [firstValue_settings_other hentries hkey (List.Sublist.refl entries)]
      exact Option.or_none
    · refine hkept.trans ?_
      split
      · rw [List.append_assoc]
        exact List.sublist_append_left _ _
      · exact List.sublist_append_left _ _

/-- A name that is not merged keeps its value. -/
theorem tryGetValue_values_merge_other (hentries : Mergeable casing entries)
    (document : TextDocument) {key : Text} (hkey : tryGetValue casing entries key = none) :
    tryGetValue casing (values casing (merge casing document entries)) key =
      tryGetValue casing (values casing document.text) key := by
  have hlines : ∀ l ∈ dropEmptyLast (splitLines document.text), '\n' ∉ l :=
    fun l hl => lf_not_mem_of_mem_dropEmptyLast hl
  have hdrop : firstValue casing key false (dropEmptyLast (splitLines document.text)) =
      firstValue casing key false (splitLines document.text) := by
    conv_rhs => rw [← dropEmptyLast_append (splitLines document.text)]
    split
    · exact (firstValue_append_nil key false _).symm
    · rw [List.append_nil]
  rw [tryGetValue_values, tryGetValue_values, merge_eq,
    firstValue_join _ _ (mergedLines_values hentries document).2, mergedLines_eq,
    (mergedOf_follows hentries hlines).1 key hkey, hdrop]

/-- The lines that are not settings to merge are lines of the merged text, in order. -/
theorem keptLines_merge (hentries : Mergeable casing entries) {document : TextDocument}
    (hdocument : IsDocument document)
    (h : containsCrlf document.text = true ∨ document.text.getLast? ≠ some '\r') :
    (keptLines casing entries false (splitLines document.text)).Sublist
      (splitLines (merge casing document entries)) := by
  have hlines : ∀ l ∈ dropEmptyLast (splitLines document.text), '\n' ∉ l :=
    fun l hl => lf_not_mem_of_mem_dropEmptyLast hl
  have hne : mergedLines casing document entries ≠ [] := by
    rw [mergedLines_eq]
    exact (complete_mergedOf hentries hlines).ne_nil
  have hread : ∀ l ∈ mergedLines casing document entries, document.newLine.read l = l :=
    fun l hl => NewLine.read_eq
      ((mergedLines_read hentries hdocument h).imp id fun hc => hc l hl)
  rw [merge_eq, splitLines_joinLines hne (mergedLines_values hentries document).2 hread]
  conv_lhs => rw [← dropEmptyLast_append (splitLines document.text)]
  rw [keptLines_append, mergedLines_eq]
  apply (mergedOf_follows hentries hlines).2.append
  split
  · next hlast =>
      have hfinal : (document.finalNewLine || document.text.isEmpty) = true := by
        rcases getLast?_of_splitLines hlast with hnil | hlf
        · rw [hnil]
          exact Bool.or_true _
        · rcases hdocument with rfl | ⟨content, rfl⟩
          · rfl
          · rw [Bool.or_eq_true]
            exact .inl (decide_eq_true hlf)
      rw [hfinal]
      exact List.Sublist.refl _
  · exact List.nil_sublist _

/-- `Merge` is exact: the names to merge have their values, the other names keep theirs, and of a
text whose line endings are read as they were written every other line stays, in order, and
merging again changes nothing. -/
theorem merge_exact (hentries : Mergeable casing entries) {document : TextDocument}
    (hdocument : IsDocument document) :
    let merged := merge casing document entries
    (∀ key replacement, tryGetValue casing entries key = some replacement →
      tryGetValue casing (values casing merged) key = replacement) ∧
    (∀ key, tryGetValue casing entries key = none →
      tryGetValue casing (values casing merged) key =
        tryGetValue casing (values casing document.text) key) ∧
    (containsCrlf document.text = true ∨ document.text.getLast? ≠ some '\r' →
      (keptLines casing entries false (splitLines document.text)).Sublist (splitLines merged) ∧
      merge casing (read (document.bytes merged)) entries = merged) := by
  intro merged
  refine ⟨?_, ?_, ?_⟩
  · intro key replacement hkey
    obtain ⟨e, he, hvalue, hsame⟩ := mem_of_tryGetValue hkey
    rw [← hvalue, ← tryGetValue_same _ hsame]
    exact tryGetValue_values_merge hentries document he
  · exact fun key hkey => tryGetValue_values_merge_other hentries document hkey
  · exact fun h => ⟨keptLines_merge hentries hdocument h, merge_merged hentries hdocument h⟩

/-- Two sections `[wsl2]`, a name in another case, a repeated name and one that is missing. -/
theorem merge_exact_repeated :
    let casing : Casing := ⟨Char.toUpper, fun _ _ => rfl⟩
    let entries := [("kernel".toList, some "k".toList), ("swap".toList, none),
      ("memory".toList, some "4GB".toList)]
    let document := read ⟨.utf8,
      "[wsl2]\r\nKernel=a\n# note\n[wsl2]\nswap=0\nkernel=b\ngui=1".toList⟩
    merge casing document entries =
      "[wsl2]\r\nKernel=k\r\n# note\r\nmemory=4GB\r\n[wsl2]\r\ngui=1".toList ∧
    tryGetValue casing (values casing (merge casing document entries)) "KERNEL".toList =
      some "k".toList ∧
    tryGetValue casing (values casing (merge casing document entries)) "gui".toList =
      tryGetValue casing (values casing document.text) "gui".toList ∧
    merge casing (read (document.bytes (merge casing document entries))) entries =
      merge casing document entries := by
  intro casing entries document
  have hchars : ∀ e ∈ entries, ∀ c ∈ e.1, isKeyChar c = true := fun e he =>
    List.all_eq_true.mp (List.all_eq_true.mp (by decide :
      (entries.all fun e => e.1.all isKeyChar) = true) e he)
  have hentries : Mergeable casing entries :=
    ⟨by decide, hchars, by decide, by decide, by decide, by decide⟩
  obtain ⟨hmapped, hother, hexact⟩ := merge_exact hentries (.inr ⟨_, rfl⟩ : IsDocument document)
  exact ⟨by decide +kernel, hmapped _ _ (by decide), hother _ (by decide),
    (hexact (.inl (by decide))).2⟩

/-- A lone carriage return at the end of the text becomes part of a line ending: its line is read
without it, and merging again takes the text for one with CRLF. -/
theorem merge_takes_carriage_return :
    let casing : Casing := ⟨Char.toUpper, fun _ _ => rfl⟩
    let entries := [("kernel".toList, some "k".toList)]
    let document := read ⟨.utf8, "abc\r".toList⟩
    let merged := merge casing document entries
    Mergeable casing entries ∧
    merged = "abc\r\n\n[wsl2]\nkernel=k".toList ∧
    "abc\r".toList ∈ keptLines casing entries false (splitLines document.text) ∧
    "abc\r".toList ∉ splitLines merged ∧
    merge casing (read (document.bytes merged)) entries ≠ merged := by
  intro casing entries document merged
  have hchars : ∀ e ∈ entries, ∀ c ∈ e.1, isKeyChar c = true := fun e he =>
    List.all_eq_true.mp (List.all_eq_true.mp (by decide :
      (entries.all fun e => e.1.all isKeyChar) = true) e he)
  exact ⟨⟨by decide, hchars, by decide, by decide, by decide, by decide⟩, by decide +kernel,
    by decide +kernel, by decide +kernel, by decide +kernel⟩

end SwitchTrade.Installer.WslConfig

import SwitchTrade.Installer.KernelManager

/-!
# The two values of the kernel setting

What `Values` reads a line can hold, and so can the value that `Apply` sets
(`appliedValue_plain`); so `Merge` puts any two of them into any text
(`kernelValuesOf_merge`). `Apply` and `Restore` are then described by the values they leave
(`apply_ends`, `restore_ends`).
-/

namespace SwitchTrade.Installer

open Lines InPlace WslConfig

/-! ## Values that a line can hold -/

/-- A value as a setting has it. -/
def PlainValue (value : Text) : Prop := trim isSpace value = value ∧ '\n' ∉ value

structure KernelValues.Plain (v : KernelValues) : Prop where
  kernel : ∀ value, v.kernel = some value → PlainValue value
  kernelModules : ∀ value, v.kernelModules = some value → PlainValue value

theorem KernelValues.Plain.none : KernelValues.none.Plain where
  kernel value h := by cases h
  kernelModules value h := by cases h

theorem upper_bracket_ne (casing : Casing) : casing.upper 'k' ≠ casing.upper '[' := by
  rw [casing.ascii 'k' (by decide), casing.ascii '[' (by decide)]
  decide

theorem KernelValues.Plain.mergeable {v : KernelValues} (h : v.Plain) (casing : Casing) :
    Mergeable casing v.entries := by
  have hcases :
      ∀ e ∈ v.entries, e = (kernelKey, v.kernel) ∨ e = (kernelModulesKey, v.kernelModules) := by
    intro e he
    rcases List.mem_cons.mp he with rfl | he
    · exact .inl rfl
    · exact .inr (List.mem_singleton.mp he)
  constructor
  · intro e he
    rcases hcases e he with rfl | rfl
    · exact List.cons_ne_nil _ _
    · exact List.cons_ne_nil _ _
  · intro e he
    have hnames : (∀ c ∈ kernelKey, isKeyChar c = true) ∧
        ∀ c ∈ kernelModulesKey, isKeyChar c = true :=
      ⟨List.all_eq_true.mp (by decide), List.all_eq_true.mp (by decide)⟩
    rcases hcases e he with rfl | rfl
    · exact hnames.1
    · exact hnames.2
  · intro e he hc
    have hk : casing.upper 'k' = casing.upper '[' := by
      rcases hcases e he with rfl | rfl
      · exact Option.some.inj hc
      · exact Option.some.inj hc
    exact upper_bracket_ne casing hk
  · refine List.pairwise_cons.mpr ⟨?_, List.pairwise_singleton _ _⟩
    intro e he hs
    rw [List.mem_singleton.mp he] at hs
    have hlength : kernelKey.length = kernelModulesKey.length := hs.length
    exact absurd hlength (by decide)
  · intro e he value hv
    rcases hcases e he with rfl | rfl
    · exact (h.kernel value hv).1
    · exact (h.kernelModules value hv).1
  · intro e he value hv
    rcases hcases e he with rfl | rfl
    · exact (h.kernel value hv).2
    · exact (h.kernelModules value hv).2

/-- What is merged is what is read. -/
theorem kernelValuesOf_merge (casing : Casing) (document : TextDocument) {v : KernelValues}
    (h : v.Plain) : kernelValuesOf casing (merge casing document v.entries) = v := by
  have hm := h.mergeable casing
  have hkernel := tryGetValue_values_merge hm document (e := (kernelKey, v.kernel))
    List.mem_cons_self
  have hmodules := tryGetValue_values_merge hm document
    (e := (kernelModulesKey, v.kernelModules)) (List.mem_cons_of_mem _ List.mem_cons_self)
  unfold kernelValuesOf
  simp only [hkernel, hmodules]

/-- A value that is found stands on a line. -/
theorem mem_of_firstValue {casing : Casing} {key value : Text} {b : Bool} {lines : List Text}
    (h : firstValue casing key b lines = some value) :
    ∃ line ∈ lines, ∃ k, setting line = some (k, value) := by
  induction lines generalizing b with
  | nil => cases h
  | cons line rest ih =>
    simp only [firstValue] at h
    cases hsection : sectionName line with
    | some name =>
      rw [hsection] at h
      obtain ⟨l, hl, hk⟩ := ih h
      exact ⟨l, List.mem_cons_of_mem _ hl, hk⟩
    | none =>
      rw [hsection] at h
      cases hsetting : setting line with
      | none =>
        rw [hsetting] at h
        obtain ⟨l, hl, hk⟩ := ih h
        exact ⟨l, List.mem_cons_of_mem _ hl, hk⟩
      | some kv =>
        rw [hsetting] at h
        simp only at h
        split at h
        · cases h
          exact ⟨line, List.mem_cons_self, kv.1, hsetting⟩
        · obtain ⟨l, hl, hk⟩ := ih h
          exact ⟨l, List.mem_cons_of_mem _ hl, hk⟩

theorem plainValue_of_read {casing : Casing} {text key value : Text}
    (h : tryGetValue casing (values casing text) key = some value) : PlainValue value := by
  rw [tryGetValue_values] at h
  obtain ⟨line, hline, k, hk⟩ := mem_of_firstValue h
  refine ⟨(setting_key hk).2.2, ?_⟩
  intro hm
  exact lf_not_mem_of_mem_splitLines hline ((mem_line_of_mem_setting hk).2 _ hm)

theorem kernelValues_plain (casing : Casing) (file : Option Content) :
    (kernelValues casing file).Plain := by
  cases file with
  | none => exact .none
  | some content =>
    constructor
    · intro value hv
      exact plainValue_of_read hv
    · intro value hv
      exact plainValue_of_read hv

/-! ## The applied value -/

theorem trim_eq_self {p : Char → Bool} {xs : Text} (hhead : ∀ x, xs.head? = some x → p x = false)
    (hlast : ∀ x, xs.getLast? = some x → p x = false) : trim p xs = xs := by
  unfold trim
  rw [dropWhile_eq_self hhead, List.rdropWhile_eq_self_iff]
  intro hne
  rw [hlast _ (List.getLast?_eq_getLast_of_ne_nil hne)]
  exact Bool.noConfusion

theorem doubled_append (a b : Text) : doubled (a ++ b) = doubled a ++ doubled b :=
  List.flatMap_append

theorem mem_doubled {c : Char} {text : Text} : c ∈ doubled text ↔ c ∈ text := by
  unfold doubled
  rw [List.mem_flatMap]
  constructor
  · rintro ⟨d, hd, hc⟩
    split at hc
    · next h =>
        simp only [List.mem_cons, List.not_mem_nil, or_false, or_self] at hc
        rw [hc, ← h]
        exact hd
    · rw [List.mem_singleton.mp hc]
      exact hd
  · intro hc
    refine ⟨c, hc, ?_⟩
    split
    · next h =>
        rw [h]
        exact List.mem_cons_self
    · exact List.mem_singleton_self c

theorem head_doubled (c : Char) (text : Text) : (doubled (c :: text)).head? = some c := by
  unfold doubled
  rw [List.flatMap_cons]
  split
  · next h =>
      rw [h]
      rfl
  · rfl

theorem getLast_doubled (text : Text) (c : Char) :
    (doubled (text ++ [c])).getLast? = some c := by
  have hlast : (doubled [c]).getLast? = some c := by
    unfold doubled
    rw [List.flatMap_cons]
    split
    · next h =>
        rw [h]
        rfl
    · rfl
  rw [doubled_append, List.getLast?_append, hlast]
  rfl

section AppliedValue

variable (host : Host) (release image : Text)

theorem safeRelease_lf : '\n' ∉ safeRelease release := by
  intro hm
  obtain ⟨c, -, hc⟩ := List.mem_map.mp hm
  split at hc
  · next h =>
      rw [hc] at h
      exact absurd h (by decide)
  · exact absurd hc (by decide)

theorem mem_pathText {c : Char} {path : Path} (h : c ∈ pathText path) :
    c = '\\' ∨ ∃ part ∈ path, c ∈ part := by
  unfold pathText at h
  induction path with
  | nil => cases h
  | cons part rest ih =>
    cases rest with
    | nil =>
      rw [List.intercalate_singleton] at h
      exact .inr ⟨part, List.mem_cons_self, h⟩
    | cons next rest =>
      rw [List.intercalate_cons_cons] at h
      rcases List.mem_append.mp h with h | h
      · rcases List.mem_append.mp h with h | h
        · exact .inr ⟨part, List.mem_cons_self, h⟩
        · exact .inl (List.mem_singleton.mp h)
      · rcases ih h with h | ⟨p, hp, hc⟩
        · exact .inl h
        · exact .inr ⟨p, List.mem_cons_of_mem _ hp, hc⟩

theorem identity_ne_nil : (host.imageSha256 image).take 12 ≠ [] := by
  intro h
  have hlen := congrArg List.length h
  rw [List.length_take, (host.imageSha256_hex image).1] at hlen
  exact absurd hlen (by decide)

theorem installedPath_lf : '\n' ∉ installedPath host release image := by
  intro hm
  rcases List.mem_append.mp hm with hm | hm
  · rcases mem_pathText hm with hc | ⟨part, hp, hc⟩
    · exact absurd hc (by decide)
    · exact host.paths.kernelRoot_oneLine part hp hc
  · rcases List.mem_cons.mp hm with hc | hm
    · exact absurd hc (by decide)
    · rcases List.mem_append.mp hm with hm | hm
      · rcases List.mem_append.mp hm with hm | hm
        · exact absurd hm (by decide)
        · exact safeRelease_lf release hm
      · rcases List.mem_cons.mp hm with hc | hm
        · exact absurd hc (by decide)
        · have hspace := (host.imageSha256_hex image).2 _ (List.mem_of_mem_take hm)
          exact absurd hspace (by decide)

theorem installedPath_head : ∃ c rest, installedPath host release image = c :: rest ∧
    isSpace c = false := by
  obtain ⟨c, drive, rest, hroot, hc⟩ := host.paths.kernelRoot_rooted
  unfold installedPath pathText
  rw [hroot]
  cases rest with
  | nil =>
    rw [List.intercalate_singleton]
    exact ⟨c, _, rfl, hc⟩
  | cons next rest =>
    rw [List.intercalate_cons_cons]
    exact ⟨c, _, rfl, hc⟩

theorem installedPath_last : ∃ init c, installedPath host release image = init ++ [c] ∧
    isSpace c = false := by
  obtain ⟨init, c, hinit⟩ :=
    List.eq_nil_or_concat' ((host.imageSha256 image).take 12) |>.resolve_left
      (identity_ne_nil host image)
  refine ⟨pathText host.paths.kernelRoot ++ '\\' :: ("kernel-".toList ++ safeRelease release ++
    '-' :: init), c, ?_, ?_⟩
  · unfold installedPath
    rw [hinit]
    simp
  · apply (host.imageSha256_hex image).2 c
    apply List.mem_of_mem_take (i := 12)
    rw [hinit]
    exact List.mem_append_right _ (List.mem_singleton_self c)

theorem appliedValue_plain : PlainValue (appliedValue host release image) := by
  constructor
  · obtain ⟨c, rest, hhead, hc⟩ := installedPath_head host release image
    obtain ⟨init, d, hlast, hd⟩ := installedPath_last host release image
    apply trim_eq_self
    · intro x hx
      unfold appliedValue at hx
      rw [hhead, head_doubled] at hx
      cases hx
      exact hc
    · intro x hx
      unfold appliedValue at hx
      rw [hlast, getLast_doubled] at hx
      cases hx
      exact hd
  · unfold appliedValue
    rw [mem_doubled]
    exact installedPath_lf host release image

end AppliedValue

end SwitchTrade.Installer

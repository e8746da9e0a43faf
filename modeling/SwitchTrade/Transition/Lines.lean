import Mathlib.Data.List.DropRight
import Mathlib.Data.List.Basic

/-!
# Texts read by lines

A text is the list of its characters. `splitLines` cuts it at each line feed, a carriage
return before it included; `joinLines` writes lines with one line ending between them. What is
written is read back, up to the carriage return a line already ended with
(`splitLines_line`). `trim` takes the blanks off both ends.
-/

namespace Lines

/-! ## Blanks at the ends -/

section Trim

variable {α : Type} {p : α → Bool}

def trim (p : α → Bool) (xs : List α) : List α := (xs.dropWhile p).rdropWhile p

theorem dropWhile_eq_self {xs : List α} (h : ∀ x, xs.head? = some x → p x = false) :
    xs.dropWhile p = xs := by
  cases xs with
  | nil => rfl
  | cons x xs =>
    rw [List.dropWhile_cons, h x rfl]
    rfl

theorem head_dropWhile {xs : List α} {x : α} (h : (xs.dropWhile p).head? = some x) :
    p x = false := by
  induction xs with
  | nil => cases h
  | cons y ys ih =>
    by_cases hy : p y = true
    · rw [List.dropWhile_cons, if_pos hy] at h
      exact ih h
    · rw [List.dropWhile_cons, if_neg hy] at h
      cases h
      simpa using hy

theorem trim_trim (xs : List α) : trim p (trim p xs) = trim p xs := by
  have hhead : ∀ x, (trim p xs).head? = some x → p x = false := by
    intro x hx
    obtain ⟨rest, hrest⟩ := List.rdropWhile_prefix p (xs.dropWhile p)
    have hne : (trim p xs) ≠ [] := by
      intro hnil
      rw [hnil] at hx
      cases hx
    refine @head_dropWhile _ _ xs _ ?_
    rw [← hrest]
    exact (List.head?_append_of_ne_nil _ hne).trans hx
  show ((trim p xs).dropWhile p).rdropWhile p = trim p xs
  rw [dropWhile_eq_self hhead]
  exact List.rdropWhile_idempotent p _

theorem mem_of_mem_trim {xs : List α} {x : α} (h : x ∈ trim p xs) : x ∈ xs :=
  (List.dropWhile_suffix p).subset ((List.rdropWhile_prefix p _).subset h)

theorem trim_append_blank {x : α} (hx : p x = true) (xs : List α) :
    trim p (xs ++ [x]) = trim p xs := by
  unfold trim
  rw [List.dropWhile_append]
  by_cases h : (xs.dropWhile p).isEmpty = true
  · rw [if_pos h, List.isEmpty_iff.mp h]
    simp [hx]
  · rw [if_neg h]
    rw [List.rdropWhile_concat_pos p _ _ hx]

end Trim

/-! ## Lines -/

/-- `c` in front of the first line. -/
def consHead (c : Char) : List (List Char) → List (List Char)
  | [] => [[c]]
  | l :: ls => (c :: l) :: ls

/-- `Regex.Split(text, "\r?\n")`. -/
def splitLines : List Char → List (List Char)
  | [] => [[]]
  | '\n' :: cs => [] :: splitLines cs
  | '\r' :: '\n' :: cs => [] :: splitLines cs
  | c :: cs => consHead c (splitLines cs)

/-- The line without the carriage return it ends with. -/
def chomp (l : List Char) : List Char := if l.getLast? = some '\r' then l.dropLast else l

inductive NewLine where
  | lf
  | crlf
deriving DecidableEq, Repr

namespace NewLine

def text : NewLine → List Char
  | lf => ['\n']
  | crlf => ['\r', '\n']

/-- A line as it is read back. -/
def read : NewLine → List Char → List Char
  | lf, l => chomp l
  | crlf, l => l

end NewLine

def joinLines (nl : NewLine) : List (List Char) → List Char
  | [] => []
  | [l] => l
  | l :: ls => l ++ nl.text ++ joinLines nl ls

theorem splitLines_cons {c : Char} {cs : List Char} (hn : c ≠ '\n')
    (hr : c = '\r' → cs.head? ≠ some '\n') : splitLines (c :: cs) = consHead c (splitLines cs) := by
  rw [splitLines.eq_4]
  · intro h
    exact hn h
  · intro cs' hc hcs
    apply hr hc
    rw [hcs]
    rfl

theorem splitLines_single {l : List Char} (h : '\n' ∉ l) : splitLines l = [l] := by
  induction l with
  | nil => rfl
  | cons c cs ih =>
    have hc : c ≠ '\n' := fun he => h (he ▸ List.mem_cons_self)
    have hcs : '\n' ∉ cs := fun hm => h (List.mem_cons_of_mem _ hm)
    rw [splitLines_cons hc, ih hcs]
    · rfl
    · intro _ hhead
      exact hcs (List.mem_of_mem_head? hhead)

theorem chomp_cons_cons (c d : Char) (l : List Char) :
    chomp (c :: d :: l) = c :: chomp (d :: l) := by
  unfold chomp
  rw [List.getLast?_cons_cons]
  split
  · rfl
  · rfl

/-- A line that ends in a line feed is read up to the carriage return before it. -/
theorem splitLines_lf {l : List Char} (h : '\n' ∉ l) (rest : List Char) :
    splitLines (l ++ '\n' :: rest) = chomp l :: splitLines rest := by
  induction l with
  | nil => rfl
  | cons c cs ih =>
    have hc : c ≠ '\n' := fun he => h (he ▸ List.mem_cons_self)
    have hcs : '\n' ∉ cs := fun hm => h (List.mem_cons_of_mem _ hm)
    cases cs with
    | nil =>
      by_cases hr : c = '\r'
      · rw [hr]
        rfl
      · show splitLines (c :: '\n' :: rest) = _
        rw [splitLines_cons hc fun he => absurd he hr]
        show [c] :: splitLines rest = _
        unfold chomp
        rw [if_neg]
        simpa using hr
    | cons d ds =>
      have hd : d ≠ '\n' := fun he => hcs (he ▸ List.mem_cons_self)
      rw [chomp_cons_cons]
      show splitLines (c :: (d :: ds ++ '\n' :: rest)) = _
      rw [splitLines_cons hc, ih hcs]
      · rfl
      · intro _ hhead
        exact hd (by simpa using hhead)

theorem splitLines_crlf {l : List Char} (h : '\n' ∉ l) (rest : List Char) :
    splitLines (l ++ '\r' :: '\n' :: rest) = l :: splitLines rest := by
  have hl : '\n' ∉ l ++ ['\r'] := by
    intro hm
    rcases List.mem_append.mp hm with hm | hm
    · exact h hm
    · exact absurd hm (by decide)
  have hsplit := splitLines_lf hl rest
  rw [List.append_assoc] at hsplit
  refine hsplit.trans ?_
  unfold chomp
  rw [if_pos (by simp), List.dropLast_concat]

theorem splitLines_line (nl : NewLine) {l : List Char} (h : '\n' ∉ l) (rest : List Char) :
    splitLines (l ++ nl.text ++ rest) = nl.read l :: splitLines rest := by
  rw [List.append_assoc]
  cases nl with
  | lf => exact splitLines_lf h rest
  | crlf => exact splitLines_crlf h rest

theorem mem_consHead {c : Char} {ls : List (List Char)} {l : List Char} (h : l ∈ consHead c ls) :
    (∃ l' , (l' ∈ ls ∨ l' = []) ∧ l = c :: l') ∨ l ∈ ls := by
  cases ls with
  | nil =>
    left
    exact ⟨[], .inr rfl, List.mem_singleton.mp h⟩
  | cons l' ls =>
    rcases List.mem_cons.mp h with rfl | h
    · exact .inl ⟨l', .inl List.mem_cons_self, rfl⟩
    · exact .inr (List.mem_cons_of_mem _ h)

/-- No line holds a line feed. -/
theorem lf_not_mem_of_mem_splitLines {text l : List Char} (h : l ∈ splitLines text) :
    '\n' ∉ l := by
  induction text using splitLines.induct generalizing l with
  | case1 =>
    rw [List.mem_singleton.mp h]
    exact List.not_mem_nil
  | case2 cs ih =>
    rcases List.mem_cons.mp h with rfl | h
    · exact List.not_mem_nil
    · exact ih h
  | case3 cs ih =>
    rcases List.mem_cons.mp h with rfl | h
    · exact List.not_mem_nil
    · exact ih h
  | case4 c cs hn hr ih =>
    rw [splitLines.eq_4 c cs hn hr] at h
    rcases mem_consHead h with ⟨l', hl', rfl⟩ | h
    · intro hm
      rcases List.mem_cons.mp hm with hc | hm
      · exact hn hc.symm
      · rcases hl' with hl' | rfl
        · exact ih hl' hm
        · exact absurd hm List.not_mem_nil
    · exact ih h

theorem consHead_ne_nil (c : Char) (ls : List (List Char)) : consHead c ls ≠ [] := by
  cases ls with
  | nil => exact List.cons_ne_nil _ _
  | cons l ls => exact List.cons_ne_nil _ _

theorem splitLines_ne_nil (text : List Char) : splitLines text ≠ [] := by
  cases text using splitLines.fun_cases with
  | case1 => exact List.cons_ne_nil _ _
  | case2 cs => exact List.cons_ne_nil _ _
  | case3 cs => exact List.cons_ne_nil _ _
  | case4 c cs hn hr =>
    rw [splitLines.eq_4 c cs hn hr]
    exact consHead_ne_nil c _

/-- The last line is empty only after a line feed. -/
theorem getLast?_of_splitLines {text : List Char} (h : (splitLines text).getLast? = some []) :
    text = [] ∨ text.getLast? = some '\n' := by
  have hlast : ∀ (pre cs : List Char), pre.getLast? = some '\n' →
      (cs = [] ∨ cs.getLast? = some '\n') → (pre ++ cs).getLast? = some '\n' := by
    intro pre cs hpre hcs
    rcases hcs with rfl | hcs
    · rw [List.append_nil]
      exact hpre
    · rw [List.getLast?_append, hcs]
      rfl
  induction text using splitLines.induct with
  | case1 => exact .inl rfl
  | case2 cs ih =>
    rw [splitLines, List.getLast?_cons_of_ne_nil (splitLines_ne_nil cs)] at h
    exact .inr (hlast ['\n'] cs rfl (ih h))
  | case3 cs ih =>
    rw [splitLines, List.getLast?_cons_of_ne_nil (splitLines_ne_nil cs)] at h
    exact .inr (hlast ['\r', '\n'] cs rfl (ih h))
  | case4 c cs hn hr ih =>
    rw [splitLines.eq_4 c cs hn hr] at h
    cases hlines : splitLines cs with
    | nil => exact absurd hlines (splitLines_ne_nil cs)
    | cons l ls =>
      rw [hlines] at h
      cases ls with
      | nil => cases h
      | cons l' rest =>
        rw [hlines] at ih
        rcases ih h with rfl | ih
        · cases hlines
        · right
          rw [List.getLast?_cons_of_ne_nil]
          · exact ih
          · rintro rfl
            cases hlines

theorem NewLine.read_eq {nl : NewLine} {l : List Char}
    (h : nl = .crlf ∨ l.getLast? ≠ some '\r') : nl.read l = l := by
  cases nl with
  | crlf => rfl
  | lf =>
    show chomp l = l
    unfold chomp
    rw [if_neg]
    rcases h with h | h
    · cases h
    · exact h

theorem joinLines_cons {nl : NewLine} {l : List Char} {ls : List (List Char)} (h : ls ≠ []) :
    joinLines nl (l :: ls) = l ++ nl.text ++ joinLines nl ls := by
  cases ls with
  | nil => exact absurd rfl h
  | cons l' ls => rfl

/-- Lines that are read as they are written. -/
theorem splitLines_joinLines {nl : NewLine} {lines : List (List Char)} (hne : lines ≠ [])
    (hlf : ∀ l ∈ lines, '\n' ∉ l) (hread : ∀ l ∈ lines, nl.read l = l) (final : Bool) :
    splitLines (joinLines nl lines ++ if final then nl.text else []) =
      lines ++ if final then [[]] else [] := by
  induction lines with
  | nil => exact absurd rfl hne
  | cons l ls ih =>
    have hl := hlf l List.mem_cons_self
    have hrl := hread l List.mem_cons_self
    by_cases hls : ls = []
    · rw [hls]
      cases final with
      | false =>
        show splitLines (l ++ []) = [l]
        rw [List.append_nil, splitLines_single hl]
      | true =>
        show splitLines (l ++ nl.text) = [l, []]
        have hsplit := splitLines_line nl hl []
        rw [List.append_nil, hrl] at hsplit
        exact hsplit
    · rw [joinLines_cons hls, List.append_assoc, splitLines_line nl hl, hrl,
        ih hls (fun l' h' => hlf l' (List.mem_cons_of_mem _ h'))
          (fun l' h' => hread l' (List.mem_cons_of_mem _ h'))]
      rfl

/-- An empty last line is a line ending. -/
theorem joinLines_concat_nil {nl : NewLine} {lines : List (List Char)} (h : lines ≠ []) :
    joinLines nl (lines ++ [[]]) = joinLines nl lines ++ nl.text := by
  induction lines with
  | nil => exact absurd rfl h
  | cons l ls ih =>
    by_cases hls : ls = []
    · rw [hls]
      show l ++ nl.text ++ [] = l ++ nl.text
      exact List.append_nil _
    · rw [List.cons_append, joinLines_cons (List.append_ne_nil_of_left_ne_nil hls _), ih hls,
        joinLines_cons hls, List.append_assoc _ _ nl.text]

theorem getLast?_joinLines {nl : NewLine} {lines : List (List Char)} {l : List Char}
    (h : lines.getLast? = some l) (hl : l ≠ []) : (joinLines nl lines).getLast? = l.getLast? := by
  induction lines with
  | nil => cases h
  | cons l' ls ih =>
    by_cases hls : ls = []
    · rw [hls] at h ⊢
      cases h
      rfl
    · rw [List.getLast?_cons_of_ne_nil hls] at h
      rw [joinLines_cons hls, List.getLast?_append, ih h]
      rw [List.getLast?_eq_some_getLast hl]
      rfl

end Lines

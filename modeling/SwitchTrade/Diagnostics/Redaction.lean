import SwitchTrade.Transition.Regex
import Mathlib.Data.List.TakeWhile

/-!
# Redaction of texts

`redact_text` of `switchtrade/diagnostics.py`: six patterns, each replaced in the whole text before
the next is tried. The patterns ignore case the way Python's `re` does, so the few letters beyond
ASCII whose case goes to an ASCII letter count as that letter. Which characters beyond ASCII are
alphanumeric is a parameter.
-/

namespace SwitchTrade.Diagnostics

/-- A character in lower case, as far as ASCII patterns can tell. -/
def fold (c : Char) : Char :=
  if c = '\u0130' ∨ c = '\u0131' then 'i'
  else if c = '\u017F' then 's'
  else if c = '\u212A' then 'k'
  else c.toLower

/-- A literal character of a pattern, given in lower case. -/
def same (p c : Char) : Bool := fold c == p

/-- `\s`. -/
def isSpace (c : Char) : Bool :=
  let n := c.toNat
  (9 ≤ n && n ≤ 13) || (28 ≤ n && n ≤ 32) || n == 0x85 || n == 0xA0 || n == 0x1680 ||
    (0x2000 ≤ n && n ≤ 0x200A) || n == 0x2028 || n == 0x2029 || n == 0x202F || n == 0x205F ||
    n == 0x3000

/-- `\w`. -/
def isWord (alnum : Char → Bool) (c : Char) : Bool :=
  if c.toNat < 128 then c.isAlphanum || c == '_' else alnum c

/-- `[...]` of the given characters. -/
def oneOf (chars : List Char) (c : Char) : Bool := chars.contains c

/-- `[^\s...]`. -/
def noneOf (chars : List Char) (c : Char) : Bool := !isSpace c && !oneOf chars c

def isHex (c : Char) : Bool := (fold c).isDigit || oneOf ['a', 'b', 'c', 'd', 'e', 'f'] (fold c)

def isLetter (c : Char) : Bool := (fold c).isLower

open Regex

/-- A word of a pattern. -/
def word (s : List Char) : Regex := lits same s

def spaces : Regex := star isSpace

def authorization : Regex :=
  seq boundary <| seq (word ['a', 'u', 't', 'h', 'o', 'r', 'i', 'z', 'a', 't', 'i', 'o', 'n']) <|
    seq spaces <| seq (chr (oneOf [':', '='])) <| seq spaces <|
    seq (word ['b', 'e', 'a', 'r', 'e', 'r']) <| seq (plus isSpace)
      (plus (noneOf [',', ';', '"', '\'']))

def bearer : Regex :=
  seq boundary <| seq (word ['b', 'e', 'a', 'r', 'e', 'r']) <| seq (plus isSpace)
    (plus fun c => isLetter c || c.isDigit || oneOf ['.', '_', '~', '+', '/', '=', '-'] c)

def relayCredential : Regex :=
  seq boundary <|
    seq (group (alt (word ['m', 'e', 'm', 'b', 'e', 'r', '_', 't', 'o', 'k', 'e', 'n'])
      (alt (word ['r', 'e', 'c', 'o', 'n', 'n', 'e', 'c', 't', '_', 't', 'o', 'k', 'e', 'n'])
        (alt (word ['r', 'o', 'o', 'm', '_', 'c', 'o', 'd', 'e'])
          (word ['i', 'n', 's', 't', 'a', 'n', 'c', 'e', '_', 'i', 'd']))))) <|
    seq boundary <| seq spaces <| seq (opt (oneOf ['"', '\''])) <| seq spaces <|
    seq (chr (oneOf [':', '='])) <| seq spaces <| seq (opt (oneOf ['"', '\'']))
      (plus (noneOf [',', ';', '}', '"', '\'']))

def assignment : Regex :=
  seq boundary <|
    seq (group (alt (seq (word ['p', 'a', 's', 's'])
        (alt (word ['w', 'o', 'r', 'd']) (alt (word ['c', 'o', 'd', 'e'])
          (word ['p', 'h', 'r', 'a', 's', 'e']))))
      (alt (word ['t', 'o', 'k', 'e', 'n']) (word ['s', 'e', 'c', 'r', 'e', 't'])))) <|
    seq spaces <| seq (chr (oneOf ['=', ':'])) <| seq spaces (plus (noneOf []))

def macAddress : Regex :=
  seq boundary <| seq (times 5 (seq (chr isHex) (seq (chr isHex) (word [':'])))) <|
    seq (chr isHex) <| seq (chr isHex) boundary

def userProfile : Regex :=
  seq boundary <| seq (chr isLetter) <|
    seq (word [':', '\\', 'u', 's', 'e', 'r', 's', '\\']) (plus (noneOf ['\\', '"', '\'']))

/-- `TEXT_SECRETS`: the pattern, whether its replacement begins with the group, and the rest of the
replacement. -/
def textSecrets : List (Regex × Bool × List Char) := [
  (authorization, false, "Authorization: Bearer <redacted>".toList),
  (bearer, false, "Bearer <redacted>".toList),
  (relayCredential, true, "=<redacted>".toList),
  (assignment, true, "=<redacted>".toList),
  (macAddress, false, "<redacted-mac>".toList),
  (userProfile, false, "%USERPROFILE%".toList)]

universe u v

variable {α : Type u} {β : Type v} (ch : α → Char) (lit : Char → α) (alnum : Char → Bool)

/-- `redact_text`, of letters that have a character. -/
def redactText (value : List α) : List α :=
  textSecrets.foldl (fun value secret =>
    sub ch (isWord alnum) secret.1 secret.2.1 (secret.2.2.map lit) value) value

variable {ch lit alnum} {value : List α}

/-- A property of every letter of a text that is decided letter by letter. -/
theorem forall_of_all {p : Char → Prop} [DecidablePred p] {l : List Char}
    (h : (l.all fun c => decide (p c)) = true) : ∀ c ∈ l, p c :=
  fun c hc => of_decide_eq_true (List.all_eq_true.mp h c hc)

/-- A letter that is left is one of the text or of a replacement. -/
theorem mem_redactText {a : α} (h : a ∈ redactText ch lit alnum value) :
    a ∈ value ∨ ∃ c, a = lit c := by
  have hall : ∀ (secrets : List (Regex × Bool × List Char)) (value : List α),
      a ∈ secrets.foldl (fun value secret =>
        sub ch (isWord alnum) secret.1 secret.2.1 (secret.2.2.map lit) value) value →
      a ∈ value ∨ ∃ c, a = lit c := by
    intro secrets
    induction secrets with
    | nil =>
      intro value h
      exact .inl h
    | cons secret secrets ih =>
      intro value h
      rcases ih _ h with h | h
      · rcases mem_sub h with h | h
        · exact .inl h
        · obtain ⟨c, -, rfl⟩ := List.mem_map.mp h
          exact .inr ⟨c, rfl⟩
      · exact .inr h
  exact hall textSecrets value h

/-- No secret is shorter than `token=` and one character. -/
theorem redactText_of_short (h : value.length < 7) : redactText ch lit alnum value = value := by
  have hmin : ∀ secret ∈ textSecrets, 7 ≤ minLen secret.1 := by
    decide
  have hall : ∀ secrets : List (Regex × Bool × List Char),
      (∀ secret ∈ secrets, 7 ≤ minLen secret.1) →
      secrets.foldl (fun value secret =>
        sub ch (isWord alnum) secret.1 secret.2.1 (secret.2.2.map lit) value) value = value := by
    intro secrets
    induction secrets with
    | nil =>
      intro _
      rfl
    | cons secret secrets ih =>
      intro hlong
      have hfirst := hlong secret List.mem_cons_self
      rw [List.foldl_cons, sub_of_short (by omega)]
      exact ih fun secret hmem => hlong secret (List.mem_cons_of_mem _ hmem)
  exact hall textSecrets hmin

/-- The marks on the letters make no difference. -/
theorem redactText_map {f : α → β} {chβ : β → Char} (hf : ∀ a, chβ (f a) = ch a) :
    redactText chβ (fun c => f (lit c)) alnum (value.map f) =
      (redactText ch lit alnum value).map f := by
  have hall : ∀ (secrets : List (Regex × Bool × List Char)) (value : List α),
      secrets.foldl (fun value secret => sub chβ (isWord alnum) secret.1 secret.2.1
        (secret.2.2.map fun c => f (lit c)) value) (value.map f) =
      (secrets.foldl (fun value secret =>
        sub ch (isWord alnum) secret.1 secret.2.1 (secret.2.2.map lit) value) value).map f := by
    intro secrets
    induction secrets with
    | nil =>
      intro value
      rfl
    | cons secret secrets ih =>
      intro value
      have hlit : (secret.2.2.map fun c => f (lit c)) = (secret.2.2.map lit).map f := by
        rw [List.map_map]
        rfl
      rw [List.foldl_cons, List.foldl_cons, hlit, sub_map hf, ih]
  exact hall textSecrets value

/-! ## What gives a secret away -/

/-- Two neighbours, in lower case, that stand in the labels of the secrets. -/
def Telling (a b : Char) : Prop :=
  (fold a, fold b) ∈ [('a', 'u'), ('b', 'e'), ('p', 'a'), ('t', 'o'), ('s', 'e')] ∨
    fold b = '_' ∨ fold b = ':'

instance (a b : Char) : Decidable (Telling a b) :=
  inferInstanceAs (Decidable (_ ∨ _ ∨ _))

theorem same_iff {p c : Char} : same p c = true ↔ fold c = p := beq_iff_eq

section Shows

variable {w : Char → Bool}

theorem shows_authorization :
    Shows ch w (fun a b => fold a = 'a' ∧ fold b = 'u') authorization := by
  apply Shows.seq_right
  apply Shows.seq_left
  apply shows_pair
  intro c d hc hd
  exact ⟨same_iff.mp hc, same_iff.mp hd⟩

theorem shows_bearer : Shows ch w (fun a b => fold a = 'b' ∧ fold b = 'e') bearer := by
  apply Shows.seq_right
  apply Shows.seq_left
  apply shows_pair
  intro c d hc hd
  exact ⟨same_iff.mp hc, same_iff.mp hd⟩

/-- An underscore, or any one character that a word has after its first. -/
theorem shows_word_at {p : Char} : ∀ {cs : List Char}, (∃ i, cs[i + 1]? = some p) →
    Shows ch w (fun _ b => fold b = p) (word cs)
  | [], ⟨_, h⟩ => by cases h
  | [_], ⟨_, h⟩ => by cases h
  | c :: d :: cs, ⟨0, h⟩ => by
    apply shows_pair
    intro x y _ hy
    cases h
    exact same_iff.mp hy
  | c :: d :: cs, ⟨i + 1, h⟩ => by
    apply Shows.seq_right
    exact shows_word_at ⟨i, h⟩

theorem shows_relayCredential : Shows ch w (fun _ b => fold b = '_') relayCredential := by
  apply Shows.seq_right
  apply Shows.seq_left
  apply Shows.group
  apply Shows.alt
  · exact shows_word_at ⟨5, rfl⟩
  · apply Shows.alt
    · exact shows_word_at ⟨8, rfl⟩
    · apply Shows.alt
      · exact shows_word_at ⟨3, rfl⟩
      · exact shows_word_at ⟨7, rfl⟩

theorem shows_assignment : Shows ch w
    (fun a b => (fold a, fold b) ∈ [('p', 'a'), ('t', 'o'), ('s', 'e')]) assignment := by
  apply Shows.seq_right
  apply Shows.seq_left
  apply Shows.group
  apply Shows.alt
  · apply Shows.seq_left
    apply shows_pair
    intro c d hc hd
    simp [same_iff.mp hc, same_iff.mp hd]
  · apply Shows.alt
    · apply shows_pair
      intro c d hc hd
      simp [same_iff.mp hc, same_iff.mp hd]
    · apply shows_pair
      intro c d hc hd
      simp [same_iff.mp hc, same_iff.mp hd]

theorem shows_macAddress : Shows ch w (fun _ b => fold b = ':') macAddress := by
  apply Shows.seq_right
  apply Shows.seq_left
  apply Shows.seq_left
  apply Shows.seq_right
  apply shows_pair
  intro c d _ hd
  exact same_iff.mp hd

theorem shows_userProfile : Shows ch w (fun _ b => fold b = ':') userProfile := by
  intro before text hit hhit
  obtain ⟨first, hfirst, more, hmore, rfl⟩ := mem_run_seq hhit
  obtain ⟨second, hsecond, last, hlast, rfl⟩ := mem_run_seq hmore
  obtain ⟨a, rest, -, hp, rfl⟩ := mem_run_chr hsecond
  obtain ⟨third, hthird, final, -, rfl⟩ := mem_run_seq hlast
  obtain ⟨fourth, hfourth, others, -, rfl⟩ := mem_run_seq hthird
  obtain ⟨b, rest', -, hq, rfl⟩ := mem_run_chr hfourth
  refine ⟨a, b, ⟨first.taken, others.taken ++ final.taken, ?_⟩, same_iff.mp hq⟩
  simp

/-- A text without telling neighbours is not changed. -/
theorem redactText_of_quiet (h : value.IsChain fun a b => ¬ Telling (ch a) (ch b)) :
    redactText ch lit alnum value = value := by
  have hfree : ∀ (bad : Char → Char → Prop), (∀ a b, bad a b → Telling a b) →
      value.IsChain fun a b => ¬ bad (ch a) (ch b) := by
    intro bad hbad
    exact h.imp fun a b hnot hab => hnot (hbad _ _ hab)
  have hcolon : value.IsChain fun a b => ¬ fold (ch b) = ':' :=
    hfree (fun _ b => fold b = ':') fun _ _ hb => .inr (.inr hb)
  have hunderscore : value.IsChain fun a b => ¬ fold (ch b) = '_' :=
    hfree (fun _ b => fold b = '_') fun _ _ hb => .inr (.inl hb)
  have hauthorization : value.IsChain fun a b => ¬ (fold (ch a) = 'a' ∧ fold (ch b) = 'u') := by
    apply hfree fun a b => fold a = 'a' ∧ fold b = 'u'
    rintro a b ⟨ha, hb⟩
    left
    simp [ha, hb]
  have hbearer : value.IsChain fun a b => ¬ (fold (ch a) = 'b' ∧ fold (ch b) = 'e') := by
    apply hfree fun a b => fold a = 'b' ∧ fold b = 'e'
    rintro a b ⟨ha, hb⟩
    left
    simp [ha, hb]
  have hassignment : value.IsChain fun a b =>
      ¬ (fold (ch a), fold (ch b)) ∈ [('p', 'a'), ('t', 'o'), ('s', 'e')] := by
    apply hfree fun a b => (fold a, fold b) ∈ [('p', 'a'), ('t', 'o'), ('s', 'e')]
    intro a b hab
    left
    exact List.mem_cons_of_mem _ (List.mem_cons_of_mem _ hab)
  unfold redactText textSecrets
  simp only [List.foldl_cons, List.foldl_nil]
  rw [sub_of_free shows_authorization hauthorization, sub_of_free shows_bearer hbearer,
    sub_of_free shows_relayCredential hunderscore, sub_of_free shows_assignment hassignment,
    sub_of_free shows_macAddress hcolon, sub_of_free shows_userProfile hcolon]

end Shows

/-! ## One secret that is the whole text -/

section Assignment

variable {w : Char → Bool} {r s : Regex} {before : Option Char} {text : List α}

/-- After a part with one match the first match is that of the rest. -/
theorem head?_run_seq {first : Hit α} (h : run ch w r before text = [first]) :
    (run ch w (seq r s) before text).head? =
      (run ch w s (lastOf ch before first.taken) (text.drop first.taken.length)).head?.map
        fun more => ⟨first.taken ++ more.taken, more.group.or first.group⟩ := by
  rw [run, h, List.flatMap_singleton, List.head?_map]

/-- A greedy class takes all there is of it. -/
theorem head?_run_plus {p : Char → Bool} {a : α} {rest : List α} (ha : p (ch a) = true)
    (hrest : ∀ b ∈ rest, p (ch b) = true) :
    (run ch w (plus p) before (a :: rest)).head? = some ⟨a :: rest, none⟩ := by
  have hchr : run ch w (chr p) before (a :: rest) = [⟨[a], none⟩] := if_pos ha
  have hwhile : rest.takeWhile (fun b => p (ch b)) = rest := List.takeWhile_eq_self_iff.mpr hrest
  rw [plus, head?_run_seq hchr]
  show ((run ch w (star p) _ rest).head?.map _) = _
  rw [run, hwhile, List.range_succ, List.reverse_append]
  simp

/-- Of `token=` and a value without spaces the label is left. -/
theorem sub_assignment {m : Nat} {v : Char} (hv : isSpace v = false)
    (h : text.map ch = ['t', 'o', 'k', 'e', 'n', '='] ++ List.replicate (m + 1) v)
    (template : List α) :
    sub ch (isWord alnum) assignment true template text = text.take 5 ++ template := by
  simp only [List.cons_append, List.nil_append, List.replicate_succ, List.map_eq_cons_iff] at h
  obtain ⟨t, _, rfl, ht, o, _, rfl, ho, k, _, rfl, hk, e, _, rfl, he, n, _, rfl, hn, q, _, rfl, hq,
    x, xs, rfl, hx, hxs⟩ := h
  have hvalue : ∀ b ∈ xs, noneOf [] (ch b) = true := by
    intro b hb
    have hmem : ch b ∈ xs.map ch := List.mem_map_of_mem hb
    rw [hxs, List.mem_replicate] at hmem
    simp [noneOf, oneOf, hmem.2, hv]
  have hrun :
      (run ch (isWord alnum) assignment none (t :: o :: k :: e :: n :: q :: x :: xs)).head? =
      some ⟨t :: o :: k :: e :: n :: q :: x :: xs, some [t, o, k, e, n]⟩ := by
    have hboundary : run ch (isWord alnum) boundary none (t :: o :: k :: e :: n :: q :: x :: xs) =
        [⟨[], none⟩] := by
      simp [run, atBoundary, ht, isWord]
    have hlabel : ∀ before, run ch (isWord alnum) (group (alt (seq (word ['p', 'a', 's', 's'])
        (alt (word ['w', 'o', 'r', 'd']) (alt (word ['c', 'o', 'd', 'e'])
          (word ['p', 'h', 'r', 'a', 's', 'e']))))
        (alt (word ['t', 'o', 'k', 'e', 'n']) (word ['s', 'e', 'c', 'r', 'e', 't'])))) before
        (t :: o :: k :: e :: n :: q :: x :: xs) =
        [⟨[t, o, k, e, n], some [t, o, k, e, n]⟩] := by
      intro before
      have hp : same 'p' 't' = false := by decide
      have hs : same 's' 't' = false := by decide
      have htoken : same 't' 't' = true ∧ same 'o' 'o' = true ∧ same 'k' 'k' = true ∧
          same 'e' 'e' = true ∧ same 'n' 'n' = true := by decide
      simp [run, word, lits, ht, ho, hk, he, hn, hp, hs, htoken]
    have hspaces : ∀ before a rest, isSpace (ch a) = false →
        run ch (isWord alnum) spaces before (a :: rest) = [⟨[], none⟩] := by
      intro before a rest ha
      simp [run, spaces, ha]
    have hequals : ∀ before, run ch (isWord alnum) (chr (oneOf ['=', ':'])) before
        (q :: x :: xs) = [⟨[q], none⟩] := by
      intro before
      simp [run, hq, oneOf]
    have hqspace : isSpace (ch q) = false := by
      rw [hq]
      decide
    have hxspace : isSpace (ch x) = false := by rwa [hx]
    have hxvalue : noneOf [] (ch x) = true := by simp [noneOf, oneOf, hx, hv]
    unfold assignment
    rw [head?_run_seq hboundary, List.length_nil, List.drop_zero, head?_run_seq (hlabel _)]
    show ((run ch (isWord alnum) _ _ (q :: x :: xs)).head?.map _).map _ = _
    rw [head?_run_seq (hspaces _ _ _ hqspace), List.length_nil, List.drop_zero,
      head?_run_seq (hequals _)]
    show ((((run ch (isWord alnum) _ _ (x :: xs)).head?.map _).map _).map _).map _ = _
    rw [head?_run_seq (hspaces _ _ _ hxspace), List.length_nil, List.drop_zero,
      head?_run_plus hxvalue hvalue]
    rfl
  unfold sub
  rw [List.length_cons, subFrom, hrun]
  show expand true template (some [t, o, k, e, n]) ++
    subFrom ch (isWord alnum) assignment true template _ _
      ((t :: o :: k :: e :: n :: q :: x :: xs).drop
        (t :: o :: k :: e :: n :: q :: x :: xs).length) = _
  rw [List.drop_length]
  have hnil :
      ∀ left before, subFrom ch (isWord alnum) assignment true template left before [] = [] := by
    intro left before
    cases left <;> rfl
  rw [hnil]
  simp [expand]

theorem isChain_of_mem {R : α → α → Prop} {l : List α} (h : ∀ a ∈ l, ∀ b ∈ l, R a b) :
    l.IsChain R := by
  induction l with
  | nil => exact List.IsChain.nil
  | cons a rest ih =>
    cases rest with
    | nil => exact List.IsChain.singleton a
    | cons b rest =>
      rw [List.isChain_cons_cons]
      refine ⟨h a List.mem_cons_self b (by simp), ih ?_⟩
      intro c hc d hd
      exact h c (List.mem_cons_of_mem a hc) d (List.mem_cons_of_mem a hd)

/-- A text that is one such secret keeps the label. -/
theorem redactText_assignment {m : Nat} {v : Char} (hv : v = 'x' ∨ v = 'y')
    (hlit : ∀ c, ch (lit c) = c)
    (h : text.map ch = ['t', 'o', 'k', 'e', 'n', '='] ++ List.replicate (m + 1) v) :
    redactText ch lit alnum text = text.take 5 ++ "=<redacted>".toList.map lit := by
  have hchars : ∀ b ∈ text, ch b ∈ ['t', 'o', 'k', 'e', 'n', '=', 'x', 'y'] := by
    intro b hb
    have hmem : ch b ∈ text.map ch := List.mem_map_of_mem hb
    rw [h, List.mem_append, List.mem_replicate] at hmem
    rcases hmem with hmem | ⟨-, rfl⟩
    · simp only [List.mem_cons, List.not_mem_nil, or_false] at hmem ⊢
      tauto
    · rcases hv with hv | hv
      · simp [hv]
      · simp [hv]
  have hfolds : ∀ c ∈ ['t', 'o', 'k', 'e', 'n', '=', 'x', 'y'],
      fold c ≠ 'u' ∧ fold c ≠ 'b' ∧ fold c ≠ '_' := by
    apply forall_of_all
    decide
  have hauthorization : text.IsChain fun a b => ¬ (fold (ch a) = 'a' ∧ fold (ch b) = 'u') := by
    apply isChain_of_mem
    intro a _ b hb hab
    exact (hfolds _ (hchars b hb)).1 hab.2
  have hbearer : text.IsChain fun a b => ¬ (fold (ch a) = 'b' ∧ fold (ch b) = 'e') := by
    apply isChain_of_mem
    intro a ha b _ hab
    exact (hfolds _ (hchars a ha)).2.1 hab.1
  have hunderscore : text.IsChain fun a b => ¬ fold (ch b) = '_' := by
    apply isChain_of_mem
    intro a _ b hb
    exact (hfolds _ (hchars b hb)).2.2
  have hcolon : (text.take 5 ++ "=<redacted>".toList.map lit).IsChain
      fun a b => ¬ fold (ch b) = ':' := by
    have hleft : ∀ c ∈ ['t', 'o', 'k', 'e', 'n', '=', 'x', 'y'], fold c ≠ ':' :=
      forall_of_all (by decide)
    have hright : ∀ c ∈ "=<redacted>".toList, fold c ≠ ':' := forall_of_all (by decide)
    apply isChain_of_mem
    intro a _ b hb
    rcases List.mem_append.mp hb with hb | hb
    · exact hleft _ (hchars b (List.mem_of_mem_take hb))
    · obtain ⟨c, hc, rfl⟩ := List.mem_map.mp hb
      rw [hlit]
      exact hright c hc
  have hspace : isSpace v = false := by
    rcases hv with rfl | rfl
    · decide
    · decide
  unfold redactText textSecrets
  simp only [List.foldl_cons, List.foldl_nil]
  rw [sub_of_free shows_authorization hauthorization, sub_of_free shows_bearer hbearer,
    sub_of_free shows_relayCredential hunderscore, sub_assignment hspace h,
    sub_of_free shows_macAddress hcolon, sub_of_free shows_userProfile hcolon]

end Assignment

end SwitchTrade.Diagnostics

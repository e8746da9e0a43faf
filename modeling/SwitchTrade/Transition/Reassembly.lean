import Mathlib.Data.List.Chain
import Mathlib.Data.List.ReduceOption
import Mathlib.Tactic.Common

/-!
# Messages put together from their parts

A message is sent as a start and then its parts, in any order, and both may be repeated. A receiver
keeps one epoch: a start opens a new one unless it continues the epoch there is, and the message is
reported by the part that completes it. A `Rule` says which starts continue an epoch that is not
complete and whether a part that arrives again is written again.

`trace_eq_iff` says for which rows of messages a receiver reports every message when it is complete
and nothing else. What may go wrong is a start that arrives again after all parts have: the parts
that follow it (`Transfer.again`) are of no message any more.
-/

namespace Reassembly

universe u v

variable {κ : Type u} {α : Type v}

inductive Event (κ : Type u) (α : Type v) where
  | start (key : κ) (count : Nat)
  | part (index : Nat) (value : α)

structure Epoch (κ : Type u) (α : Type v) where
  key : κ
  count : Nat
  got : Nat → Option α

namespace Epoch

def fresh (key : κ) (count : Nat) : Epoch κ α := ⟨key, count, fun _ => none⟩

def complete (e : Epoch κ α) : Bool :=
  0 < e.count && (List.range e.count).all fun i => (e.got i).isSome

def parts (e : Epoch κ α) : List α := (List.range e.count).filterMap e.got

theorem complete_iff {e : Epoch κ α} :
    e.complete = true ↔ 0 < e.count ∧ ∀ i < e.count, (e.got i).isSome = true := by
  rw [complete, Bool.and_eq_true, decide_eq_true_eq, List.all_eq_true]
  simp only [List.mem_range]

/-- The parts of a complete epoch, one by one. -/
theorem getElem?_parts {e : Epoch κ α} (h : ∀ i < e.count, (e.got i).isSome = true) :
    e.parts.length = e.count ∧ ∀ i < e.count, e.parts[i]? = e.got i := by
  have hall : ∀ n, n ≤ e.count →
      ((List.range n).filterMap e.got).length = n ∧
        ∀ i < n, ((List.range n).filterMap e.got)[i]? = e.got i := by
    intro n hn
    induction n with
    | zero => exact ⟨rfl, fun i hi => absurd hi (Nat.not_lt_zero i)⟩
    | succ n ih =>
      obtain ⟨hlength, hget⟩ := ih (Nat.le_of_succ_le hn)
      obtain ⟨value, hvalue⟩ := Option.isSome_iff_exists.mp (h n hn)
      have hsucc : (List.range (n + 1)).filterMap e.got =
          (List.range n).filterMap e.got ++ [value] := by
        rw [List.range_succ, List.filterMap_append, List.filterMap_cons_some hvalue]
        rfl
      rw [hsucc]
      refine ⟨by rw [List.length_append, hlength]; rfl, fun i hi => ?_⟩
      rcases Nat.lt_succ_iff_lt_or_eq.mp hi with hlt | rfl
      · rw [List.getElem?_append_left (by omega), hget i hlt]
      · rw [List.getElem?_append_right (by omega), hlength, Nat.sub_self, hvalue]
        rfl
  exact hall e.count (Nat.le_refl _)

end Epoch

/-- How a receiver treats what arrives again. -/
structure Rule (κ : Type u) where
  same : κ → κ → Bool
  refl : ∀ key, same key key = true
  overwrites : Bool

namespace Rule

variable (rule : Rule κ)

def start (e : Option (Epoch κ α)) (key : κ) (count : Nat) : Epoch κ α :=
  match e with
  | none => .fresh key count
  | some e =>
    if !e.complete && e.count = count && rule.same e.key key then e else .fresh key count

def put (e : Epoch κ α) (index : Nat) (value : α) : Epoch κ α :=
  if index < e.count then
    { e with
      got := fun i =>
        if i = index then
          if rule.overwrites then some value else (e.got i).or (some value)
        else e.got i }
  else e

def feed (e : Option (Epoch κ α)) : Event κ α → Option (Epoch κ α)
  | .start key count => some (rule.start e key count)
  | .part index value => e.map fun e => rule.put e index value

/-- The message that an event completes. -/
def completed (e : Option (Epoch κ α)) : Event κ α → Option (List α)
  | .start _ _ => none
  | .part index value =>
    e.bind fun e =>
      if !e.complete && (rule.put e index value).complete then
        some (rule.put e index value).parts
      else none

/-- What is reported, event by event. -/
def trace (e : Option (Epoch κ α)) : List (Event κ α) → List (Option (List α))
  | [] => []
  | event :: events => rule.completed e event :: trace (rule.feed e event) events

variable {rule}

theorem trace_append {e : Option (Epoch κ α)} {events more : List (Event κ α)} :
    rule.trace e (events ++ more) =
      rule.trace e events ++ rule.trace (events.foldl rule.feed e) more := by
  induction events generalizing e with
  | nil => rfl
  | cons event events ih => exact congrArg (rule.completed e event :: ·) ih

theorem length_trace {e : Option (Epoch κ α)} {events : List (Event κ α)} :
    (rule.trace e events).length = events.length := by
  induction events generalizing e with
  | nil => rfl
  | cons event events ih => exact congrArg (· + 1) ih

@[simp] theorem put_key {e : Epoch κ α} {index : Nat} {value : α} :
    (rule.put e index value).key = e.key := by
  unfold put
  split <;> rfl

@[simp] theorem put_count {e : Epoch κ α} {index : Nat} {value : α} :
    (rule.put e index value).count = e.count := by
  unfold put
  split <;> rfl

/-- A start that continues an epoch changes nothing. -/
theorem start_of_same {e : Epoch κ α} {key : κ} {count : Nat} (hopen : e.complete = false)
    (hcount : e.count = count) (hsame : rule.same e.key key = true) :
    rule.start (some e) key count = e := by
  simp [start, hopen, hcount, hsame]

theorem start_of_complete {e : Epoch κ α} {key : κ} {count : Nat} (h : e.complete = true) :
    rule.start (some e) key count = .fresh key count := by
  simp [start, h]

theorem trace_take {e : Option (Epoch κ α)} {events : List (Event κ α)} {n : Nat} :
    rule.trace e (events.take n) = (rule.trace e events).take n := by
  induction events generalizing e n with
  | nil => rw [List.take_nil, trace, List.take_nil]
  | cons event events ih =>
    cases n with
    | zero => rfl
    | succ n => exact congrArg (rule.completed e event :: ·) ih

end Rule

/-- What has been reported at every moment says what is reported with every event. -/
theorem eq_of_reduceOption_take {β : Type v} {xs ys : List (Option β)}
    (hlength : xs.length = ys.length)
    (h : ∀ n, (xs.take n).reduceOption = (ys.take n).reduceOption) : xs = ys := by
  induction xs generalizing ys with
  | nil => exact (List.length_eq_zero_iff.mp hlength.symm).symm
  | cons x xs ih =>
    cases ys with
    | nil => cases hlength
    | cons y ys =>
      have hfirst := h 1
      rw [List.take_succ_cons, List.take_succ_cons, List.take_zero, List.take_zero] at hfirst
      have hxy : x = y := by
        cases x with
        | none =>
          cases y with
          | none => rfl
          | some y => cases hfirst
        | some x =>
          cases y with
          | none => cases hfirst
          | some y => exact congrArg some (List.cons.inj hfirst).1
      subst hxy
      have hrest := ih (Nat.succ.inj hlength) fun n => ?_
      · rw [hrest]
      · have hmore := h (n + 1)
        rw [List.take_succ_cons, List.take_succ_cons] at hmore
        cases x with
        | none =>
          rwa [List.reduceOption_cons_of_none, List.reduceOption_cons_of_none] at hmore
        | some x =>
          rw [List.reduceOption_cons_of_some, List.reduceOption_cons_of_some] at hmore
          exact (List.cons.inj hmore).2

/-! ## What is sent -/

/-- Whether every part is in a list. -/
def covers {n : Nat} (arrived : List (Fin n)) : Bool := (List.finRange n).all arrived.contains

theorem covers_iff {n : Nat} {arrived : List (Fin n)} :
    covers arrived = true ↔ ∀ i, i ∈ arrived := by
  simp [covers]

theorem covers_eq_false {n : Nat} {arrived : List (Fin n)} :
    covers arrived = false ↔ ∃ i, i ∉ arrived := by
  rw [← Bool.not_eq_true, covers_iff, not_forall]

theorem covers_cons {n : Nat} {arrived : List (Fin n)} (i : Fin n) (h : covers arrived = true) :
    covers (i :: arrived) = true :=
  covers_iff.mpr fun j => List.mem_cons_of_mem i (covers_iff.mp h j)

/-- A message and the copies that arrive after its first start: of the start, or of a part. -/
structure Transfer (κ : Type u) (α : Type v) where
  key : κ
  parts : List α
  copies : List (Option (Fin parts.length))
  nonempty : parts ≠ []
  whole : ∀ i, some i ∈ copies

namespace Transfer

variable (t : Transfer κ α)

def event : Option (Fin t.parts.length) → Event κ α
  | none => .start t.key t.parts.length
  | some i => .part i (t.parts.get i)

def events : List (Event κ α) := t.event none :: t.copies.map t.event

section

variable {n : Nat} {β : Type v} (message : β)

/-- The message, at the copy with which all parts have arrived; before the copies come those that
have arrived already. -/
def dues (arrived : List (Fin n)) : List (Option (Fin n)) → List (Option β)
  | [] => []
  | none :: copies => none :: dues arrived copies
  | some i :: copies =>
    (if !covers arrived && covers (i :: arrived) then some message else none) ::
      dues (i :: arrived) copies

/-- The part that arrives last for the first time. -/
def lastPart (arrived : List (Fin n)) : List (Option (Fin n)) → Option (Fin n)
  | [] => none
  | none :: copies => lastPart arrived copies
  | some i :: copies =>
    if !covers arrived && covers (i :: arrived) then some i else lastPart (i :: arrived) copies

/-- The parts that arrive after a start that arrives after all parts. -/
def lateParts (arrived : List (Fin n)) : List (Option (Fin n)) → List (Fin n)
  | [] => []
  | none :: copies => if covers arrived then copies.reduceOption else lateParts arrived copies
  | some i :: copies => lateParts (i :: arrived) copies

end

/-- What is to be reported, event by event: the message with the last of its parts. -/
def reports : List (Option (List α)) := none :: dues t.parts [] t.copies

def last : Option (Fin t.parts.length) := lastPart [] t.copies

def again : List (Fin t.parts.length) := lateParts [] t.copies

theorem length_dues {n : Nat} {β : Type v} {message : β} {arrived : List (Fin n)}
    {copies : List (Option (Fin n))} : (dues message arrived copies).length = copies.length := by
  induction copies generalizing arrived with
  | nil => rfl
  | cons copy copies ih =>
    cases copy with
    | none => exact congrArg (· + 1) ih
    | some i => exact congrArg (· + 1) ih

/-- The last part was not there before. -/
theorem lastPart_not_mem {n : Nat} {arrived : List (Fin n)} {copies : List (Option (Fin n))}
    {i : Fin n} (h : lastPart arrived copies = some i) : i ∉ arrived := by
  induction copies generalizing arrived with
  | nil => cases h
  | cons copy copies ih =>
    cases copy with
    | none => exact ih h
    | some j =>
      rw [lastPart] at h
      split at h
      · rename_i hlast
        cases h
        intro hmem
        rw [Bool.and_eq_true, Bool.not_eq_true', covers_eq_false] at hlast
        obtain ⟨⟨k, hk⟩, hcovers⟩ := hlast
        rcases List.mem_cons.mp (covers_iff.mp hcovers k) with rfl | hmem'
        · exact hk hmem
        · exact hk hmem'
      · exact fun hmem => ih h (List.mem_cons_of_mem j hmem)

/-- All parts arrive, so one is the last. -/
theorem lastPart_isSome {n : Nat} {arrived : List (Fin n)} {copies : List (Option (Fin n))}
    (hopen : covers arrived = false) (hwhole : ∀ i, i ∈ arrived ∨ some i ∈ copies) :
    ∃ i, lastPart arrived copies = some i := by
  induction copies generalizing arrived with
  | nil =>
    obtain ⟨i, hi⟩ := covers_eq_false.mp hopen
    rcases hwhole i with h | h
    · exact absurd h hi
    · cases h
  | cons copy copies ih =>
    cases copy with
    | none =>
      refine ih hopen fun i => ?_
      rcases hwhole i with h | h
      · exact .inl h
      · rcases List.mem_cons.mp h with h | h
        · cases h
        · exact .inr h
    | some j =>
      rw [lastPart, hopen]
      cases hcovers : covers (j :: arrived) with
      | true => exact ⟨j, rfl⟩
      | false =>
        refine ih hcovers fun i => ?_
        rcases hwhole i with h | h
        · exact .inl (List.mem_cons_of_mem j h)
        · rcases List.mem_cons.mp h with h | h
          · cases h
            exact .inl List.mem_cons_self
          · exact .inr h

end Transfer

/-- Parts of a message that arrived too late do not get into the next one: there are none, the
next one is no continuation, or its last part is none of them and, unless it is written again,
each of them is the same part of both. -/
def Harmless (rule : Rule κ) (t t' : Transfer κ α) : Prop :=
  t.again = [] ∨ t.parts.length ≠ t'.parts.length ∨ rule.same t.key t'.key = false ∨
    (∀ i ∈ t.again, t'.last.map Fin.val ≠ some i.val) ∧
      (rule.overwrites = true ∨ ∀ i ∈ t.again, t'.parts[i.val]? = t.parts[i.val]?)

/-! ## The epoch while a message arrives -/

section Filling

variable {rule : Rule κ} {t : Transfer κ α} {old : Nat → Option α}
  {arrived : List (Fin t.parts.length)} {e : Epoch κ α}

/-- What there is of part `i`, given what there was before the message. -/
def filled (rule : Rule κ) (t : Transfer κ α) (old : Nat → Option α)
    (arrived : List (Fin t.parts.length)) (i : Fin t.parts.length) : Option α :=
  if i ∈ arrived then
    if rule.overwrites then some (t.parts.get i) else (old i).or (some (t.parts.get i))
  else old i

/-- The epoch holds what arrived of the message, over what was there before. -/
structure Filling (rule : Rule κ) (t : Transfer κ α) (old : Nat → Option α)
    (arrived : List (Fin t.parts.length)) (e : Epoch κ α) : Prop where
  count : e.count = t.parts.length
  same : rule.same e.key t.key = true
  got : ∀ i : Fin t.parts.length, e.got i = filled rule t old arrived i

namespace Filling

theorem fresh : Filling rule t (fun _ => none) [] (.fresh t.key t.parts.length) where
  count := rfl
  same := rule.refl _
  got _ := rfl

theorem put (h : Filling rule t old arrived e) (i : Fin t.parts.length) :
    Filling rule t old (i :: arrived) (rule.put e i (t.parts.get i)) where
  count := Rule.put_count.trans h.count
  same := by
    rw [Rule.put_key]
    exact h.same
  got j := by
    have hlt : i.val < e.count := by
      rw [h.count]
      exact i.isLt
    rw [Rule.put, if_pos hlt]
    by_cases hij : j = i
    · subst hij
      simp only [if_true, filled, List.mem_cons, true_or, h.got]
      cases rule.overwrites with
      | true => rfl
      | false =>
        by_cases hmem : j ∈ arrived
        · simp [hmem]
        · simp [hmem]
    · have hval : j.val ≠ i.val := fun heq => hij (Fin.ext heq)
      simp only [if_neg hval, h.got, filled, List.mem_cons, hij, false_or]

theorem isSome_iff (h : Filling rule t old arrived e) (i : Fin t.parts.length) :
    (e.got i).isSome = true ↔ i ∈ arrived ∨ (old i).isSome = true := by
  rw [h.got, filled]
  by_cases hmem : i ∈ arrived
  · rw [if_pos hmem]
    cases rule.overwrites <;> simp [hmem]
  · simp [hmem]

theorem complete_iff (h : Filling rule t old arrived e) :
    e.complete = true ↔ ∀ i : Fin t.parts.length, i ∈ arrived ∨ (old i).isSome = true := by
  rw [Epoch.complete_iff, h.count]
  constructor
  · rintro ⟨-, hall⟩ i
    exact (h.isSome_iff i).mp (hall i i.isLt)
  · intro hall
    exact ⟨List.length_pos_iff.mpr t.nonempty,
      fun i hi => (h.isSome_iff ⟨i, hi⟩).mpr (hall ⟨i, hi⟩)⟩

/-- With nothing there before, an epoch is complete when everything has arrived. -/
theorem complete_eq_covers (h : Filling rule t (fun _ => none) arrived e) :
    e.complete = covers arrived := by
  rw [Bool.eq_iff_iff, h.complete_iff, covers_iff]
  simp

/-- The message that a complete epoch holds is the one that was sent, unless parts that were there
before were kept and differ. -/
theorem parts_eq_iff (h : Filling rule t old arrived e) (hall : covers arrived = true) :
    e.parts = t.parts ↔
      rule.overwrites = true ∨
        ∀ i : Fin t.parts.length, old i = none ∨ old i = some (t.parts.get i) := by
  have hgot : ∀ i : Fin t.parts.length, e.got i =
      if rule.overwrites then some (t.parts.get i) else (old i).or (some (t.parts.get i)) := by
    intro i
    rw [h.got, filled, if_pos (covers_iff.mp hall i)]
  have hsome : ∀ i < e.count, (e.got i).isSome = true := by
    rw [h.count]
    intro i hi
    exact (h.isSome_iff ⟨i, hi⟩).mpr (.inl (covers_iff.mp hall _))
  obtain ⟨hlength, hparts⟩ := Epoch.getElem?_parts hsome
  rw [h.count] at hlength hparts
  have hsame : e.parts = t.parts ↔ ∀ i : Fin t.parts.length, e.got i = some (t.parts.get i) := by
    constructor
    · intro heq i
      rw [← hparts i i.isLt, heq]
      exact List.getElem?_eq_getElem i.isLt
    · intro heach
      apply List.ext_getElem?
      intro i
      rcases Nat.lt_or_ge i t.parts.length with hlt | hge
      · rw [hparts i hlt, heach ⟨i, hlt⟩]
        exact (List.getElem?_eq_getElem hlt).symm
      · rw [List.getElem?_eq_none (by omega), List.getElem?_eq_none hge]
  rw [hsame]
  cases hover : rule.overwrites with
  | true =>
    refine iff_of_true (fun i => ?_) (.inl rfl)
    rw [hgot, hover]
    rfl
  | false =>
    rw [or_iff_right nofun]
    refine forall_congr' fun i => ?_
    rw [hgot, hover]
    cases old i with
    | none => exact iff_of_true rfl (.inl rfl)
    | some value => simp

end Filling

theorem feed_start (h : Filling rule t old arrived e) (hopen : e.complete = false) :
    rule.feed (some e) (t.event none) = some e :=
  congrArg some (Rule.start_of_same hopen h.count h.same)

theorem completed_part {i : Fin t.parts.length} :
    rule.completed (some e) (t.event (some i)) =
      if !e.complete && (rule.put e i (t.parts.get i)).complete then
        some (rule.put e i (t.parts.get i)).parts
      else none := rfl

/-- The late parts start an epoch of their own, which must not be complete. -/
theorem late_iff {copies : List (Option (Fin t.parts.length))}
    (h : Filling rule t (fun _ => none) arrived e) (hkey : e.key = t.key)
    (hopen : covers arrived = false) :
    (rule.trace (some e) (copies.map t.event) = copies.map (fun _ => none) ↔
      covers (copies.reduceOption.reverse ++ arrived) = false) ∧
    (covers (copies.reduceOption.reverse ++ arrived) = false →
      ∃ e', (copies.map t.event).foldl rule.feed (some e) = some e' ∧ e'.key = t.key ∧
        Filling rule t (fun _ => none) (copies.reduceOption.reverse ++ arrived) e') := by
  induction copies generalizing arrived e with
  | nil => exact ⟨iff_of_true rfl hopen, fun _ => ⟨e, rfl, hkey, h⟩⟩
  | cons copy copies ih =>
    have hincomplete : e.complete = false := h.complete_eq_covers.trans hopen
    cases copy with
    | none =>
      obtain ⟨hiff, hend⟩ := ih h hkey hopen
      rw [List.map_cons, List.map_cons, Rule.trace, List.foldl_cons, feed_start h hincomplete,
        List.cons.injEq, List.reduceOption_cons_of_none]
      exact ⟨Iff.trans (and_iff_right rfl) hiff, hend⟩
    | some i =>
      have hput := h.put i
      rw [List.map_cons, List.map_cons, Rule.trace, List.foldl_cons, List.cons.injEq,
        completed_part, hincomplete, hput.complete_eq_covers, List.reduceOption_cons_of_some,
        List.reverse_cons, List.append_assoc, List.singleton_append]
      cases hcovers : covers (i :: arrived) with
      | true =>
        have hmore : covers (copies.reduceOption.reverse ++ i :: arrived) = true :=
          covers_iff.mpr fun j => List.mem_append_right _ (covers_iff.mp hcovers j)
        rw [hmore]
        exact ⟨iff_of_false (fun hboth => nomatch hboth.1) nofun, nofun⟩
      | false =>
        obtain ⟨hiff, hend⟩ := ih hput (Rule.put_key.trans hkey) hcovers
        exact ⟨Iff.trans (and_iff_right rfl) hiff, hend⟩

/-- Once everything has arrived nothing is due any more. -/
theorem dues_of_covers {copies : List (Option (Fin t.parts.length))}
    (h : covers arrived = true) :
    Transfer.dues t.parts arrived copies = copies.map fun _ => none := by
  induction copies generalizing arrived with
  | nil => rfl
  | cons copy copies ih =>
    cases copy with
    | none => exact congrArg (none :: ·) (ih h)
    | some i =>
      rw [Transfer.dues, h, ih (covers_cons i h)]
      rfl

theorem Filling.congr {arrived' : List (Fin t.parts.length)}
    (h : Filling rule t old arrived e) (hmem : ∀ i, i ∈ arrived ↔ i ∈ arrived') :
    Filling rule t old arrived' e where
  count := h.count
  same := h.same
  got i := by
    rw [h.got, filled, filled]
    simp only [hmem]

/-- What the rest of a message must be like once all parts have arrived. -/
def Ends (rule : Rule κ) (t : Transfer κ α) (late : List (Fin t.parts.length))
    (e : Epoch κ α) : Prop :=
  e.complete = true ∧ late = [] ∨
    e.key = t.key ∧ Filling rule t (fun _ => none) late e ∧ covers late = false

theorem full_iff {copies : List (Option (Fin t.parts.length))} (h : Filling rule t old arrived e)
    (hcomplete : e.complete = true) (hall : covers arrived = true) :
    (rule.trace (some e) (copies.map t.event) = copies.map (fun _ => none) ↔
      covers (Transfer.lateParts arrived copies) = false) ∧
    (covers (Transfer.lateParts arrived copies) = false →
      ∃ e', (copies.map t.event).foldl rule.feed (some e) = some e' ∧
        Ends rule t (Transfer.lateParts arrived copies) e') := by
  have hnone : covers ([] : List (Fin t.parts.length)) = false :=
    covers_eq_false.mpr ⟨⟨0, List.length_pos_iff.mpr t.nonempty⟩, List.not_mem_nil⟩
  induction copies generalizing arrived e with
  | nil => exact ⟨iff_of_true rfl hnone, fun _ => ⟨e, rfl, .inl ⟨hcomplete, rfl⟩⟩⟩
  | cons copy copies ih =>
    cases copy with
    | none =>
      have hfresh : rule.feed (some e) (t.event none) = some (.fresh t.key t.parts.length) :=
        congrArg some (Rule.start_of_complete hcomplete)
      obtain ⟨hiff, hend⟩ := @late_iff _ _ rule t [] _ copies .fresh rfl hnone
      have hmem : ∀ i, i ∈ copies.reduceOption.reverse ++ [] ↔ i ∈ copies.reduceOption := by
        intro i
        rw [List.append_nil, List.mem_reverse]
      have hcovers : covers (copies.reduceOption.reverse ++ []) = covers copies.reduceOption := by
        rw [Bool.eq_iff_iff, covers_iff, covers_iff]
        exact forall_congr' hmem
      rw [hcovers] at hiff hend
      rw [List.map_cons, List.map_cons, Rule.trace, List.foldl_cons, hfresh, List.cons.injEq,
        Transfer.lateParts, if_pos hall]
      refine ⟨Iff.trans (and_iff_right rfl) hiff, fun hopen => ?_⟩
      obtain ⟨e', he', hkey, hfilling⟩ := hend hopen
      exact ⟨e', he', .inr ⟨hkey, hfilling.congr hmem, hopen⟩⟩
    | some i =>
      have hput := h.put i
      have hcovers := covers_cons i hall
      have hstill : (rule.put e i (t.parts.get i)).complete = true :=
        hput.complete_iff.mpr fun j => .inl (covers_iff.mp hcovers j)
      rw [List.map_cons, List.map_cons, Rule.trace, List.foldl_cons, List.cons.injEq,
        completed_part, hcomplete]
      obtain ⟨hiff, hend⟩ := ih hput hstill hcovers
      exact ⟨Iff.trans (and_iff_right rfl) hiff, hend⟩

/-- What arrives of a message over what was there before. -/
theorem arrival_iff {copies : List (Option (Fin t.parts.length))}
    (h : Filling rule t old arrived e) (hincomplete : e.complete = false)
    (hopen : covers arrived = false) (hwhole : ∀ i, i ∈ arrived ∨ some i ∈ copies) :
    (rule.trace (some e) (copies.map t.event) = Transfer.dues t.parts arrived copies ↔
      (∀ i, Transfer.lastPart arrived copies = some i → old i = none) ∧
        (rule.overwrites = true ∨
          ∀ i : Fin t.parts.length, old i = none ∨ old i = some (t.parts.get i)) ∧
        covers (Transfer.lateParts arrived copies) = false) ∧
    (rule.trace (some e) (copies.map t.event) = Transfer.dues t.parts arrived copies →
      ∃ e', (copies.map t.event).foldl rule.feed (some e) = some e' ∧
        Ends rule t (Transfer.lateParts arrived copies) e') := by
  induction copies generalizing arrived e with
  | nil =>
    obtain ⟨i, hi⟩ := covers_eq_false.mp hopen
    exact (hwhole i).elim (absurd · hi) nofun
  | cons copy copies ih =>
    cases copy with
    | none =>
      have hwhole' : ∀ j, j ∈ arrived ∨ some j ∈ copies := by
        intro j
        rcases hwhole j with hmem | hmem
        · exact .inl hmem
        · rcases List.mem_cons.mp hmem with heq | hmem
          · cases heq
          · exact .inr hmem
      obtain ⟨hiff, hend⟩ := ih h hincomplete hopen hwhole'
      rw [List.map_cons, Rule.trace, List.foldl_cons, feed_start h hincomplete, Transfer.dues,
        List.cons.injEq, Transfer.lateParts, hopen]
      exact ⟨Iff.trans (and_iff_right rfl) hiff, fun hboth => hend hboth.2⟩
    | some i =>
      have hput := h.put i
      have hwhole' : ∀ j, j ∈ i :: arrived ∨ some j ∈ copies := by
        intro j
        rcases hwhole j with hmem | hmem
        · exact .inl (List.mem_cons_of_mem i hmem)
        · rcases List.mem_cons.mp hmem with heq | hmem
          · cases heq
            exact .inl List.mem_cons_self
          · exact .inr hmem
      rw [List.map_cons, Rule.trace, List.foldl_cons, Transfer.dues, List.cons.injEq,
        completed_part, hincomplete, hopen, Transfer.lateParts, Transfer.lastPart, hopen]
      cases hcovers : covers (i :: arrived) with
      | true =>
        -- The last part: what was there before did not have it.
        have hcomplete : (rule.put e i (t.parts.get i)).complete = true :=
          hput.complete_iff.mpr fun j => .inl (covers_iff.mp hcovers j)
        have hold : old i = none := by
          cases hsome : old i with
          | none => rfl
          | some value =>
            have hfull : e.complete = true := by
              refine h.complete_iff.mpr fun j => ?_
              rcases List.mem_cons.mp (covers_iff.mp hcovers j) with rfl | hmem
              · exact .inr (by rw [hsome]; rfl)
              · exact .inl hmem
            rw [hfull] at hincomplete
            cases hincomplete
        obtain ⟨hiff, hend⟩ := @full_iff _ _ rule t old _ _ copies hput hcomplete hcovers
        rw [dues_of_covers hcovers, hcomplete]
        have hreport : (if (!false && true) = true then some (rule.put e i (t.parts.get i)).parts
            else none) = (if (!false && true) = true then some t.parts else none) ↔
              rule.overwrites = true ∨
                ∀ i : Fin t.parts.length, old i = none ∨ old i = some (t.parts.get i) := by
          rw [← hput.parts_eq_iff hcovers]
          exact Option.some_inj
        refine ⟨?_, fun hboth => hend (hiff.mp hboth.2)⟩
        have hlast : ∀ j, some i = some j → old j = none := by
          intro j hj
          cases hj
          exact hold
        exact (and_congr hreport hiff).trans (and_iff_right hlast).symm
      | false =>
        cases hcomplete : (rule.put e i (t.parts.get i)).complete with
        | true =>
          -- Completed by a part of before: the last part was there before.
          have hlast : ¬∀ j, Transfer.lastPart (i :: arrived) copies = some j → old j = none := by
            intro hall
            obtain ⟨j, hj⟩ := Transfer.lastPart_isSome hcovers hwhole'
            rcases hput.complete_iff.mp hcomplete j with hmem | hsome
            · exact Transfer.lastPart_not_mem hj hmem
            · rw [hall j hj] at hsome
              cases hsome
          refine ⟨iff_of_false (fun hboth => nomatch hboth.1) fun hthree => ?_,
            fun hboth => nomatch hboth.1⟩
          exact hlast hthree.1
        | false =>
          obtain ⟨hiff, hend⟩ := ih hput hcomplete hcovers hwhole'
          exact ⟨Iff.trans (and_iff_right rfl) hiff, fun hboth => hend hboth.2⟩

end Filling

/-! ## Rows of messages -/

section Row

variable {rule : Rule κ} {t : Transfer κ α}

/-- The state between two messages. -/
def Between (rule : Rule κ) (prev : Option (Transfer κ α)) (s : Option (Epoch κ α)) : Prop :=
  match prev with
  | none => s = none
  | some t => ∃ e, s = some e ∧ Ends rule t t.again e

/-- The parts that arrived too late, as the next message of the same size finds them. -/
theorem leftover_iff {t₀ : Transfer κ α} {e : Epoch κ α}
    (h : Filling rule t₀ (fun _ => none) t₀.again e)
    (hcount : t₀.parts.length = t.parts.length) :
    ((∀ i ∈ t₀.again, t.last.map Fin.val ≠ some i.val) ∧
        (rule.overwrites = true ∨ ∀ i ∈ t₀.again, t.parts[i.val]? = t₀.parts[i.val]?)) ↔
      (∀ i, t.last = some i → e.got i = none) ∧
        (rule.overwrites = true ∨
          ∀ i : Fin t.parts.length, e.got i = none ∨ e.got i = some (t.parts.get i)) := by
  have hmem : ∀ i ∈ t₀.again, e.got i = t₀.parts[i.val]? := by
    intro i hi
    rw [h.got, filled, if_pos hi, List.getElem?_eq_getElem i.isLt, Option.none_or, ite_self]
    rfl
  have hnot : ∀ i, i ∉ t₀.again → e.got i = none := by
    intro i hi
    rw [h.got, filled, if_neg hi]
  refine and_congr ?_ (or_congr_right ?_)
  · constructor
    · intro hlast i hi
      apply hnot ⟨i, hcount.symm ▸ i.isLt⟩
      intro hagain
      apply hlast _ hagain
      rw [hi]
      rfl
    · intro hlast i hi hval
      obtain ⟨j, hj, hij⟩ := Option.map_eq_some_iff.mp hval
      have hnone := hlast j hj
      rw [hij, hmem i hi, List.getElem?_eq_getElem i.isLt] at hnone
      cases hnone
  · constructor
    · intro hbytes i
      by_cases hagain : (⟨i, hcount.symm ▸ i.isLt⟩ : Fin t₀.parts.length) ∈ t₀.again
      · refine .inr ?_
        have hgot := hmem _ hagain
        have hsame := hbytes _ hagain
        rw [hgot, ← hsame]
        exact List.getElem?_eq_getElem i.isLt
      · exact .inl (hnot _ hagain)
    · intro hgot i hi
      have hgot' := hmem i hi
      rcases hgot ⟨i, hcount ▸ i.isLt⟩ with hnone | hsome
      · rw [hgot', List.getElem?_eq_getElem i.isLt] at hnone
        cases hnone
      · rw [← hgot', hsome]
        exact List.getElem?_eq_getElem _

/-- What the first start of the next message finds. -/
theorem Between.start {prev : Option (Transfer κ α)} {s : Option (Epoch κ α)}
    (h : Between rule prev s) :
    ∃ old, Filling rule t old [] (rule.start s t.key t.parts.length) ∧
      (rule.start s t.key t.parts.length).complete = false ∧
      ((∀ t₀ ∈ prev, Harmless rule t₀ t) ↔
        (∀ i, t.last = some i → old i = none) ∧
          (rule.overwrites = true ∨
            ∀ i : Fin t.parts.length, old i = none ∨ old i = some (t.parts.get i))) := by
  have hnone : covers ([] : List (Fin t.parts.length)) = false :=
    covers_eq_false.mpr ⟨⟨0, List.length_pos_iff.mpr t.nonempty⟩, List.not_mem_nil⟩
  have hfresh : (∀ t₀ ∈ prev, Harmless rule t₀ t) →
      rule.start s t.key t.parts.length = .fresh t.key t.parts.length →
      ∃ old, Filling rule t old [] (rule.start s t.key t.parts.length) ∧
        (rule.start s t.key t.parts.length).complete = false ∧
        ((∀ t₀ ∈ prev, Harmless rule t₀ t) ↔
          (∀ i, t.last = some i → old i = none) ∧
            (rule.overwrites = true ∨
              ∀ i : Fin t.parts.length, old i = none ∨ old i = some (t.parts.get i))) := by
    intro hharmless hstart
    rw [hstart]
    refine ⟨fun _ => none, .fresh, (@Filling.fresh _ _ rule t).complete_eq_covers.trans hnone, ?_⟩
    exact iff_of_true hharmless ⟨fun _ _ => rfl, .inr fun _ => .inl rfl⟩
  cases prev with
  | none =>
    cases h
    exact hfresh nofun rfl
  | some t₀ =>
    obtain ⟨e, rfl, hends⟩ := h
    rcases hends with ⟨hcomplete, hagain⟩ | ⟨hkey, hfilling, hcovers⟩
    · refine hfresh ?_ (Rule.start_of_complete hcomplete)
      intro t₁ ht₁
      cases ht₁
      exact .inl hagain
    · have hopen : e.complete = false := hfilling.complete_eq_covers.trans hcovers
      by_cases hcount : t₀.parts.length = t.parts.length
      · cases hsame : rule.same t₀.key t.key with
        | false =>
          refine hfresh ?_ ?_
          · intro t₁ ht₁
            cases ht₁
            exact .inr (.inr (.inl hsame))
          · simp [Rule.start, hkey, hsame]
        | true =>
          rw [Rule.start_of_same hopen (hfilling.count.trans hcount) (hkey ▸ hsame)]
          refine ⟨e.got, ⟨hfilling.count.trans hcount, hkey ▸ hsame, fun i => ?_⟩, hopen, ?_⟩
          · rw [filled, if_neg List.not_mem_nil]
          · refine Iff.trans ?_ (leftover_iff hfilling hcount)
            constructor
            · intro hharmless
              rcases hharmless t₀ rfl with hnil | hlength | hother | hboth
              · rw [hnil]
                exact ⟨nofun, .inr nofun⟩
              · exact absurd hcount hlength
              · rw [hsame] at hother
                cases hother
              · exact hboth
            · intro hboth t₁ ht₁
              cases ht₁
              exact .inr (.inr (.inr hboth))
      · refine hfresh ?_ ?_
        · intro t₁ ht₁
          cases ht₁
          exact .inr (.inl hcount)
        · simp [Rule.start, hfilling.count, hcount]

/-- A receiver reports every message of a row when it is complete, and nothing else, exactly if no
message is complete a second time by parts that arrive too late, and such parts do no harm to the
message after it. -/
theorem trace_eq_iff {ts : List (Transfer κ α)} {prev : Option (Transfer κ α)}
    {s : Option (Epoch κ α)} (h : Between rule prev s) :
    rule.trace s (ts.flatMap Transfer.events) = ts.flatMap Transfer.reports ↔
      (∀ t ∈ ts, covers t.again = false) ∧ (prev.toList ++ ts).IsChain (Harmless rule) := by
  induction ts generalizing prev s with
  | nil =>
    refine iff_of_true rfl ⟨nofun, ?_⟩
    rw [List.append_nil]
    cases prev with
    | none => exact .nil
    | some t => exact .singleton t
  | cons t ts ih =>
    obtain ⟨old, hfilling, hopen, hharmless⟩ := @Between.start _ _ _ t _ _ h
    have hnone : covers ([] : List (Fin t.parts.length)) = false :=
      covers_eq_false.mpr ⟨⟨0, List.length_pos_iff.mpr t.nonempty⟩, List.not_mem_nil⟩
    obtain ⟨hiff, hend⟩ := arrival_iff hfilling hopen hnone fun i => .inr (t.whole i)
    have hchain : (prev.toList ++ t :: ts).IsChain (Harmless rule) ↔
        (∀ t₀ ∈ prev, Harmless rule t₀ t) ∧ ((some t).toList ++ ts).IsChain (Harmless rule) := by
      cases prev with
      | none => exact (and_iff_right nofun).symm
      | some t₀ =>
        show (t₀ :: t :: ts).IsChain _ ↔ _
        rw [List.isChain_cons_cons]
        exact and_congr_left fun _ => ⟨fun hfirst t₁ ht₁ => by cases ht₁; exact hfirst,
          fun hall => hall t₀ rfl⟩
    have hrow : rule.trace s ((t :: ts).flatMap Transfer.events) =
        (t :: ts).flatMap Transfer.reports ↔
          rule.trace (some (rule.start s t.key t.parts.length)) (t.copies.map t.event) =
            Transfer.dues t.parts [] t.copies ∧
          rule.trace ((t.copies.map t.event).foldl rule.feed
              (some (rule.start s t.key t.parts.length))) (ts.flatMap Transfer.events) =
            ts.flatMap Transfer.reports := by
      have hlength : (rule.trace s t.events).length = t.reports.length := by
        rw [Rule.length_trace, Transfer.events, Transfer.reports, List.length_cons,
          List.length_cons, List.length_map, Transfer.length_dues]
      rw [List.flatMap_cons, List.flatMap_cons, Rule.trace_append]
      constructor
      · intro heq
        obtain ⟨hfirst, hrest⟩ := List.append_inj heq hlength
        exact ⟨(List.cons.inj hfirst).2, hrest⟩
      · rintro ⟨hfirst, hrest⟩
        exact congrArg₂ (· ++ ·) (congrArg (none :: ·) hfirst) hrest
    rw [hrow, hchain, List.forall_mem_cons]
    constructor
    · rintro ⟨hfirst, hrest⟩
      obtain ⟨hlast, hbytes, hcovers⟩ := hiff.mp hfirst
      obtain ⟨e', he', hends⟩ := hend hfirst
      rw [he'] at hrest
      obtain ⟨hall, hchain'⟩ := (@ih (some t) (some e') ⟨e', rfl, hends⟩).mp hrest
      exact ⟨⟨hcovers, hall⟩, hharmless.mpr ⟨hlast, hbytes⟩, hchain'⟩
    · rintro ⟨⟨hcovers, hall⟩, hfirst, hchain'⟩
      obtain ⟨hlast, hbytes⟩ := hharmless.mp hfirst
      have hfirst := hiff.mpr ⟨hlast, hbytes, hcovers⟩
      obtain ⟨e', he', hends⟩ := hend hfirst
      rw [he']
      exact ⟨hfirst, (@ih (some t) (some e') ⟨e', rfl, hends⟩).mpr ⟨hall, hchain'⟩⟩

end Row

end Reassembly

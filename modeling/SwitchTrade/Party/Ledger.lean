import SwitchTrade.Party.Observer

/-!
# The ledger of a trade

What is observed says by itself which trade took place: `since` are the events since the last
cancel, commit or invalidation, and within them the link commands, the save barriers and the
parties before and after the confirmation are looked up from the newest event back. The evidence
the observer keeps is this ledger (`Ledger`), one lemma for each thing it observes.
-/

namespace SwitchTrade.Party

open Rfu Transition LittleEndian
open Tunnel (SourceSeat PerSeat)

/-! ## Reading the events, newest first -/

namespace Event

def cancels : Event → Bool
  | .command _ code _ => code ∈ cancelCommands
  | _ => false

/-- The evidence of a trade starts anew. -/
def resets : Event → Bool
  | .committed _ | .invalidated .. => true
  | e => e.cancels

/-- An exchange of the party of `seat` ends. -/
def parts (seat : SourceSeat) : Event → Bool
  | .confirmed | .committed _ => true
  | .snapshot s _ | .invalidated s _ => s = seat
  | e => e.cancels

def selects (seat : SourceSeat) : Event → Option Nat
  | .command s code cursor =>
    if s = seat ∧ (code = readyToTrade ∨ code = setMonsToTrade) ∧ cursor < 6 then some cursor
    else none
  | _ => none

/-- The party of `seat` that is published. -/
def publishes (seat : SourceSeat) : Event → Option (List PartySlot)
  | .snapshot s six => if s = seat then some six else none
  | _ => none

/-- What becomes of the party of `seat`. -/
def shows (seat : SourceSeat) : Event → Option (Option (List PartySlot))
  | .snapshot s six => if s = seat then some (some six) else none
  | .invalidated s _ => if s = seat then some none else none
  | _ => none

end Event

/-- The events since the last cancel, commit or invalidation. -/
def since (t : List Event) : List Event := t.takeWhile fun e => !e.resets

def afterConfirm (t : List Event) : List Event := t.takeWhile fun e => e ≠ .confirmed

def fromConfirm (t : List Event) : List Event := t.dropWhile fun e => e ≠ .confirmed

/-- The slot `seat` has selected last. -/
def selection (seat : SourceSeat) (t : List Event) : Option Nat := t.findSome? (Event.selects seat)

def published (seat : SourceSeat) (t : List Event) : Option (List PartySlot) :=
  t.findSome? (Event.publishes seat)

/-- The party of `seat` that was published last and not invalidated since. -/
def standing (seat : SourceSeat) (t : List Event) : Option (List PartySlot) :=
  (t.findSome? (Event.shows seat)).join

/-- The party blocks of `seat` in its present exchange, newest first. -/
def gathered (seat : SourceSeat) : List Event → List (List PartySlot)
  | [] => []
  | .partyBlock s slots :: t => if s = seat then slots :: gathered seat t else gathered seat t
  | e :: t => if e.parts seat then [] else gathered seat t

/-- The three newest party blocks of the exchange of `seat`. -/
def assembled (seat : SourceSeat) (t : List Event) : Option (List PartySlot) :=
  match gathered seat t with
  | third :: second :: first :: _ => some (first ++ second ++ third)
  | _ => none

/-- The blocks that stand behind the last published party of `seat`. -/
def rebuilt (seat : SourceSeat) : List Event → Option (List PartySlot)
  | [] => none
  | .snapshot s _ :: t => if s = seat then assembled seat t else rebuilt seat t
  | _ :: t => rebuilt seat t

/-! ## What a committed trade is -/

/-- A start with both selections before it. -/
def Started (t : List Event) : Prop :=
  ∃ late seat cursor early, t = late ++ .command seat startTrade cursor :: early ∧
    ∀ seat, (selection seat early).isSome

/-- A ready-finish with a start before it. -/
def Finished (t : List Event) : Prop :=
  ∃ late seat cursor early, t = late ++ .command seat readyFinishTrade cursor :: early ∧
    Started early

/-- The confirm at the head, with a ready-finish before it. -/
def Confirmed (t : List Event) : Prop :=
  ∃ seat cursor early, t = .confirmed :: .command seat confirmFinishTrade cursor :: early ∧
    Finished early

/-- The parties before and after the confirmation, each made of three blocks of one exchange. -/
structure Traded (t : List Event) (slot : PerSeat Nat) (pre post : PerSeat (List PartySlot)) :
    Prop where
  selected : ∀ seat, selection seat (since t) = some (slot.get seat)
  before : ∀ seat, standing seat (fromConfirm t) = some (pre.get seat)
  after : ∀ seat, published seat (afterConfirm (since t)) = some (post.get seat)
  wholeBefore : ∀ seat, rebuilt seat (fromConfirm t) = some (pre.get seat)
  wholeAfter : ∀ seat, rebuilt seat t = some (post.get seat)

/-- The events before a commit show its trade. -/
structure Real (commit : Commit) (t : List Event) : Prop where
  confirmed : Confirmed (fromConfirm (since t))
  saved : ∀ seat, ∀ n ∈ saveBarriers, .saved seat n ∈ afterConfirm (since t)
  swapped : ∃ slot pre post, Traded t slot pre post ∧
    ((pre.memberA)[slot.memberA]?).join = some commit.memberARecordHash ∧
    ((pre.memberB)[slot.memberB]?).join = some commit.memberBRecordHash ∧
    ((post.memberA)[slot.memberA]?).join = some commit.memberBRecordHash ∧
    ((post.memberB)[slot.memberB]?).join = some commit.memberARecordHash

/-- Every committed trade is real. -/
def TradesReal (t : List Event) : Prop :=
  ∀ commit before, .committed commit :: before <:+ t → Real commit before

/-! ## What an event leaves unchanged -/

section

variable {seat : SourceSeat} {e : Event} {t : List Event}

theorem since_of_resets (h : e.resets = true) : since (e :: t) = [] := by
  rw [since, List.takeWhile_cons_of_neg (by simp [h])]

theorem since_cons (h : e.resets = false) : since (e :: t) = e :: since t := by
  rw [since, List.takeWhile_cons_of_pos (by simp [h]), since]

theorem afterConfirm_cons (h : e ≠ .confirmed) : afterConfirm (e :: t) = e :: afterConfirm t := by
  rw [afterConfirm, List.takeWhile_cons_of_pos (by simp [h]), afterConfirm]

theorem fromConfirm_cons (h : e ≠ .confirmed) : fromConfirm (e :: t) = fromConfirm t := by
  rw [fromConfirm, List.dropWhile_cons_of_pos (by simp [h]), fromConfirm]

theorem fromConfirm_confirmed : fromConfirm (.confirmed :: t) = .confirmed :: t :=
  List.dropWhile_cons_of_neg (by simp)

theorem selection_cons : selection seat (e :: t) = (e.selects seat).or (selection seat t) := by
  rw [selection, List.findSome?_cons]
  cases e.selects seat <;> rfl

theorem published_cons : published seat (e :: t) = (e.publishes seat).or (published seat t) := by
  rw [published, List.findSome?_cons]
  cases e.publishes seat <;> rfl

theorem standing_cons (h : e.shows seat = none) : standing seat (e :: t) = standing seat t := by
  rw [standing, List.findSome?_cons, h, standing]

theorem Event.publishes_of_shows (h : e.shows seat = none) : e.publishes seat = none := by
  cases e with
  | snapshot s six =>
    simp only [shows, publishes] at h ⊢
    split at h
    · cases h
    · exact if_neg ‹_›
  | _ => rfl

theorem Started.cons (h : Started t) : Started (e :: t) := by
  obtain ⟨late, seat, cursor, early, rfl, hselected⟩ := h
  exact ⟨e :: late, seat, cursor, early, rfl, hselected⟩

theorem Finished.cons (h : Finished t) : Finished (e :: t) := by
  obtain ⟨late, seat, cursor, early, rfl, hstarted⟩ := h
  exact ⟨e :: late, seat, cursor, early, rfl, hstarted⟩

/-- An event that changes nothing the evidence says. -/
structure Event.Quiet (e : Event) : Prop where
  resets : e.resets = false
  selects : ∀ seat, e.selects seat = none
  shows : ∀ seat, e.shows seat = none
  confirms : e ≠ .confirmed

end

/-! ## The evidence is the ledger -/

/-- What the observer keeps of the events. -/
structure Ledger (latest : PerSeat (Option (List PartySlot))) (trade : Trade) (t : List Event) :
    Prop where
  latest : ∀ seat, latest.get seat = standing seat t
  selections : ∀ seat, trade.selections.get seat = selection seat (since t)
  pre : ∀ seat six, trade.pre.get seat = some six →
    standing seat (if trade.confirmed then fromConfirm t else t) = some six
  post : ∀ seat six, trade.post.get seat = some six →
    trade.confirmed = true ∧ published seat (afterConfirm (since t)) = some six
  saved : ∀ seat n, n ∈ trade.saveCounts.get seat →
    trade.confirmed = true ∧ .saved seat n ∈ afterConfirm (since t)
  started : trade.started = true → Started (since t)
  readyFinish : trade.readyFinish = true → Finished (since t)
  confirmed : trade.confirmed = true → Confirmed (fromConfirm (since t))

namespace Ledger

variable {latest : PerSeat (Option (List PartySlot))} {trade : Trade} {t : List Event} {e : Event}

/-- The evidence starts anew with an event that shows no party. -/
theorem reset (h : Ledger latest trade t) (hresets : e.resets = true)
    (hshows : ∀ seat, e.shows seat = none) : Ledger latest { pre := latest } (e :: t) where
  latest seat := by rw [standing_cons (hshows seat), h.latest seat]
  selections seat := by rw [since_of_resets hresets]; cases seat <;> rfl
  pre seat six hpre := by
    rw [if_neg Bool.false_ne_true, standing_cons (hshows seat), ← h.latest seat]
    exact hpre
  post seat six hpost := by cases seat <;> cases hpost
  saved seat n hn := by cases seat <;> cases hn
  started hstarted := by cases hstarted
  readyFinish hfinish := by cases hfinish
  confirmed hconfirmed := by cases hconfirmed

theorem invalidate (h : Ledger latest trade t) (seat : SourceSeat) (reason : String) :
    Ledger (latest.set seat none) { pre := .both none } (.invalidated seat reason :: t) where
  latest s := by
    rcases seat.eq_or_peer s with rfl | rfl
    · rw [PerSeat.get_set, standing, List.findSome?_cons]
      simp [Event.shows]
    · rw [PerSeat.get_set_peer, standing_cons (by simp [Event.shows]), h.latest]
  selections s := by rw [since_of_resets rfl]; cases s <;> rfl
  pre s six hpre := by cases s <;> cases hpre
  post s six hpost := by cases s <;> cases hpost
  saved s n hn := by cases s <;> cases hn
  started hstarted := by cases hstarted
  readyFinish hfinish := by cases hfinish
  confirmed hconfirmed := by cases hconfirmed

/-- An event that is not `confirmed` keeps what was before the confirmation. -/
theorem pre_cons (h : Ledger latest trade t) (hshows : ∀ seat, e.shows seat = none)
    (hconfirms : e ≠ .confirmed) (seat : SourceSeat) (six : List PartySlot)
    (hpre : trade.pre.get seat = some six) :
    standing seat (if trade.confirmed then fromConfirm (e :: t) else e :: t) = some six := by
  have hold := h.pre seat six hpre
  split at hold
  · rw [if_pos ‹_›, fromConfirm_cons hconfirms]
    exact hold
  · rw [if_neg ‹_›, standing_cons (hshows seat)]
    exact hold

theorem log (h : Ledger latest trade t) (he : e.Quiet) : Ledger latest trade (e :: t) where
  latest seat := by rw [standing_cons (he.shows seat), h.latest seat]
  selections seat := by
    rw [since_cons he.resets, selection_cons, he.selects seat, h.selections seat, Option.none_or]
  pre := h.pre_cons he.shows he.confirms
  post seat six hpost := by
    obtain ⟨hconfirmed, hpublished⟩ := h.post seat six hpost
    refine ⟨hconfirmed, ?_⟩
    rw [since_cons he.resets, afterConfirm_cons he.confirms, published_cons,
      Event.publishes_of_shows (he.shows seat), Option.none_or]
    exact hpublished
  saved seat n hn := by
    obtain ⟨hconfirmed, hsaved⟩ := h.saved seat n hn
    rw [since_cons he.resets, afterConfirm_cons he.confirms]
    exact ⟨hconfirmed, List.mem_cons_of_mem _ hsaved⟩
  started hstarted := by rw [since_cons he.resets]; exact (h.started hstarted).cons
  readyFinish hfinish := by rw [since_cons he.resets]; exact (h.readyFinish hfinish).cons
  confirmed hconfirmed := by
    rw [since_cons he.resets, fromConfirm_cons he.confirms]
    exact h.confirmed hconfirmed

theorem save (h : Ledger latest trade t) (hconfirmed : trade.confirmed = true) (seat : SourceSeat)
    (count : Nat) : Ledger latest (trade.save seat count) (.saved seat count :: t) :=
  have hquiet : (Event.saved seat count).Quiet := ⟨rfl, fun _ => rfl, fun _ => rfl, by simp⟩
  { h.log hquiet with
    saved := by
      intro s n hn
      refine ⟨hconfirmed, ?_⟩
      rw [since_cons rfl, afterConfirm_cons (by simp)]
      simp only [Trade.save] at hn
      rcases seat.eq_or_peer s with rfl | rfl
      · rw [PerSeat.get_set, List.mem_insert_iff] at hn
        rcases hn with rfl | hn
        · exact List.mem_cons_self
        · exact List.mem_cons_of_mem _ (h.saved _ n hn).2
      · rw [PerSeat.get_set_peer] at hn
        exact List.mem_cons_of_mem _ (h.saved _ n hn).2 }

/-- A party that is complete stands for its seat, before the confirmation or after it. -/
theorem party (h : Ledger latest trade t) (seat : SourceSeat) (six : List PartySlot) :
    Ledger (latest.set seat (some six)) (trade.party seat six) (.snapshot seat six :: t) := by
  have hself : standing seat (.snapshot seat six :: t) = some six := by
    rw [standing, List.findSome?_cons]
    simp [Event.shows]
  have hpeer : standing seat.peer (.snapshot seat six :: t) = standing seat.peer t :=
    standing_cons (by simp [Event.shows])
  have hsince : since (.snapshot seat six :: t) = .snapshot seat six :: since t := since_cons rfl
  have hafter : afterConfirm (.snapshot seat six :: since t) =
      .snapshot seat six :: afterConfirm (since t) := afterConfirm_cons (by simp)
  have hlatest : ∀ s, (latest.set seat (some six)).get s =
      standing s (.snapshot seat six :: t) := by
    intro s
    rcases seat.eq_or_peer s with rfl | rfl
    · rw [PerSeat.get_set, hself]
    · rw [PerSeat.get_set_peer, hpeer, h.latest]
  have hpublished : ∀ s old, published s (afterConfirm (since t)) = some old →
      published s (afterConfirm (since (.snapshot seat six :: t))) =
        some (if s = seat then six else old) := by
    intro s old hold
    rw [hsince, hafter, published_cons, hold]
    simp only [Event.publishes, eq_comm]
    split <;> rfl
  have hsaved : ∀ s n, n ∈ trade.saveCounts.get s → trade.confirmed = true ∧
      .saved s n ∈ afterConfirm (since (.snapshot seat six :: t)) := by
    intro s n hn
    rw [hsince, hafter]
    exact ⟨(h.saved s n hn).1, List.mem_cons_of_mem _ (h.saved s n hn).2⟩
  have hselections : ∀ s, trade.selections.get s =
      selection s (since (.snapshot seat six :: t)) := by
    intro s
    rw [hsince, selection_cons, h.selections s]
    rfl
  unfold Trade.party
  by_cases hconfirmed : trade.confirmed = true
  · rw [if_pos hconfirmed]
    refine ⟨hlatest, hselections, fun s old hpre => ?_, fun s old hpost => ⟨hconfirmed, ?_⟩, hsaved,
      ?_, ?_, ?_⟩
    · have hold := h.pre s old hpre
      rw [if_pos hconfirmed] at hold
      rw [if_pos hconfirmed, fromConfirm_cons (by simp)]
      exact hold
    · rcases seat.eq_or_peer s with rfl | rfl
      · rw [PerSeat.get_set] at hpost
        rw [hsince, hafter, published_cons, ← hpost]
        simp [Event.publishes]
      · rw [PerSeat.get_set_peer] at hpost
        rw [hpublished _ old (h.post _ old hpost).2, if_neg (by simp)]
    · exact fun hstarted => hsince ▸ (h.started hstarted).cons
    · exact fun hfinish => hsince ▸ (h.readyFinish hfinish).cons
    · intro _
      rw [hsince, fromConfirm_cons (by simp)]
      exact h.confirmed hconfirmed
  · rw [if_neg hconfirmed]
    refine ⟨hlatest, hselections, fun s old hpre => ?_, fun s old hpost => ?_, hsaved, ?_, ?_, ?_⟩
    · rw [if_neg hconfirmed]
      rcases seat.eq_or_peer s with rfl | rfl
      · rw [PerSeat.get_set] at hpre
        rw [hself, hpre]
      · rw [PerSeat.get_set_peer] at hpre
        have hold := h.pre _ old hpre
        rw [if_neg hconfirmed] at hold
        rw [hpeer, hold]
    · exact absurd (h.post s old hpost).1 hconfirmed
    · exact fun hstarted => hsince ▸ (h.started hstarted).cons
    · exact fun hfinish => hsince ▸ (h.readyFinish hfinish).cons
    · exact fun h' => absurd h' hconfirmed

/-- The events a link command leaves that cancels nothing. -/
def afterCommand (was now : Bool) (seat : SourceSeat) (code cursor : Nat) (t : List Event) :
    List Event :=
  if !was && now then .confirmed :: .command seat code cursor :: t
  else .command seat code cursor :: t

theorem afterCommand_same {was : Bool} {seat : SourceSeat} {code cursor : Nat} :
    afterCommand was was seat code cursor t = .command seat code cursor :: t := by
  rw [afterCommand, Bool.not_and_self]
  rfl

/-- The confirmation: what stood is now what was before it. -/
theorem confirm {seat : SourceSeat} {code cursor : Nat} (h : Ledger latest trade t)
    (hconfirmed : trade.confirmed = false)
    (hlogged : Ledger latest trade (.command seat code cursor :: t))
    (hcode : code = confirmFinishTrade) (hfinish : Finished (since t)) :
    Ledger latest { trade with confirmed := true }
      (.confirmed :: .command seat code cursor :: t) := by
  subst hcode
  have hsince : since (.confirmed :: .command seat confirmFinishTrade cursor :: t) =
      .confirmed :: .command seat confirmFinishTrade cursor :: since t := by
    rw [since_cons rfl, since_cons (t := t) (e := .command _ _ _) (decide_eq_false (by decide))]
  have hnot : ¬ trade.confirmed = true := by simp [hconfirmed]
  refine { latest := ?_, selections := ?_, pre := ?_, post := ?_,
           saved := ?_, started := ?_, readyFinish := ?_, confirmed := ?_ }
  · exact fun s => by rw [standing_cons rfl, hlogged.latest s]
  · exact fun s => by rw [since_cons rfl, selection_cons, hlogged.selections s]; rfl
  · intro s six hpre
    have hold := hlogged.pre s six hpre
    rw [if_neg hnot] at hold
    rw [if_pos rfl, fromConfirm_confirmed, standing_cons rfl]
    exact hold
  · exact fun s six hpost => absurd (h.post s six hpost).1 hnot
  · exact fun s n hn => absurd (h.saved s n hn).1 hnot
  · intro hstarted
    rw [since_cons rfl]
    exact (hlogged.started hstarted).cons
  · intro hready
    rw [since_cons rfl]
    exact (hlogged.readyFinish hready).cons
  · intro _
    rw [hsince, fromConfirm_confirmed]
    exact ⟨seat, cursor, since t, rfl, hfinish⟩

theorem command (h : Ledger latest trade t) (seat : SourceSeat) {code : Nat} (cursor : Nat)
    (hcancels : code ∉ cancelCommands) :
    Ledger latest (trade.command seat code cursor)
      (afterCommand trade.confirmed (trade.command seat code cursor).confirmed seat code cursor
        t) := by
  have hresets : (Event.command seat code cursor).resets = false := decide_eq_false hcancels
  have hshows : ∀ s, (Event.command seat code cursor).shows s = none := fun _ => rfl
  have hsince : since (.command seat code cursor :: t) = .command seat code cursor :: since t :=
    since_cons hresets
  unfold Trade.command
  by_cases hselects : (code = readyToTrade ∨ code = setMonsToTrade) ∧ cursor < 6
  · rw [if_pos hselects, afterCommand_same]
    refine { latest := ?_, selections := ?_, pre := h.pre_cons hshows (by simp), post := ?_,
             saved := ?_, started := ?_, readyFinish := ?_, confirmed := ?_ }
    · exact fun s => by rw [standing_cons (hshows s), h.latest s]
    · intro s
      rw [hsince, selection_cons]
      rcases seat.eq_or_peer s with rfl | rfl
      · rw [PerSeat.get_set]
        simp [Event.selects, hselects]
      · rw [PerSeat.get_set_peer, h.selections]
        simp [Event.selects]
    · intro s six hpost
      obtain ⟨hconfirmed, hpublished⟩ := h.post s six hpost
      rw [hsince, afterConfirm_cons (by simp), published_cons]
      exact ⟨hconfirmed, hpublished⟩
    · intro s n hn
      rw [hsince, afterConfirm_cons (by simp)]
      exact ⟨(h.saved s n hn).1, List.mem_cons_of_mem _ (h.saved s n hn).2⟩
    · exact fun hstarted => hsince ▸ (h.started hstarted).cons
    · exact fun hfinish => hsince ▸ (h.readyFinish hfinish).cons
    · intro hconfirmed
      rw [hsince, fromConfirm_cons (by simp)]
      exact h.confirmed hconfirmed
  · have hquiet : (Event.command seat code cursor).Quiet :=
      ⟨hresets, fun s => if_neg fun hs => hselects hs.2, hshows, by simp⟩
    have hlogged := h.log hquiet
    rw [if_neg hselects]
    split
    · rename_i hstart
      rw [afterCommand_same]
      refine { hlogged with started := fun _ => ?_ }
      rw [hsince, hstart.1]
      refine ⟨[], seat, cursor, since t, rfl, fun s => ?_⟩
      rw [← h.selections s]
      cases s
      · exact hstart.2.1
      · exact hstart.2.2
    · split
      · rename_i hfinish
        rw [afterCommand_same]
        refine { hlogged with readyFinish := fun _ => ?_ }
        rw [hsince, hfinish.1]
        exact ⟨[], seat, cursor, since t, rfl, h.started hfinish.2⟩
      · split
        · rename_i hconfirm
          cases hconfirmed : trade.confirmed with
          | true =>
            have hsame : ({ trade with confirmed := true } : Trade) = trade := by rw [← hconfirmed]
            rw [hsame, hconfirmed, afterCommand_same]
            exact hlogged
          | false =>
            exact h.confirm hconfirmed hlogged hconfirm.1 (h.readyFinish hconfirm.2.2)
        · rw [afterCommand_same]
          exact hlogged

end Ledger

end SwitchTrade.Party

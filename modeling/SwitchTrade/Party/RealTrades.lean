import SwitchTrade.Party.Ledger
import SwitchTrade.Rfu.Block
import Mathlib.Data.Option.Basic

/-!
# The trades the observer commits

A committed trade is one the events show, as the evidence is their ledger. A party is to be made of
three blocks of one exchange. The blocks that wait for the third are dropped when the party of
their seat is invalidated, but not on a cancel, a confirmation or a commit: then a party is
completed with blocks of an exchange that is over. While no such block waits at these moments
(`Careful`), every party is whole.
-/

namespace SwitchTrade.Party

open Rfu Transition LittleEndian
open Tunnel (SourceSeat PerSeat)

/-! ## Whole parties -/

/-- Every published party is made of the three newest blocks of its exchange. -/
def Whole (t : List Event) : Prop :=
  ∀ seat six older, .snapshot seat six :: older <:+ t → assembled seat older = some six

section

variable {seat : SourceSeat} {six : List PartySlot} {e : Event} {t : List Event}

theorem Whole.suffix {t' : List Event} (h : Whole t) (ht : t' <:+ t) : Whole t' :=
  fun seat six older hold => h seat six older (hold.trans ht)

theorem Whole.cons (h : Whole t)
    (he : ∀ seat six, e = .snapshot seat six → assembled seat t = some six) : Whole (e :: t) := by
  intro seat six older hold
  rcases List.suffix_cons_iff.mp hold with heq | hold
  · cases heq
    exact he seat six rfl
  · exact h seat six older hold

theorem rebuilt_append {newer : List Event} (h : ∀ e ∈ newer, e.publishes seat = none) :
    rebuilt seat (newer ++ t) = rebuilt seat t := by
  induction newer with
  | nil => rfl
  | cons e newer ih =>
    have hrest := ih fun e he => h e (List.mem_cons_of_mem _ he)
    cases e with
    | snapshot s six =>
      have hother : ¬ s = seat := by
        rintro rfl
        simpa [Event.publishes] using h _ List.mem_cons_self
      rw [List.cons_append, rebuilt, if_neg hother, hrest]
    | _ => exact hrest

/-- The party that was published last is whole. -/
theorem Whole.rebuilt_of_eq {newer older : List Event} (h : Whole t)
    (ht : t = newer ++ .snapshot seat six :: older)
    (hnewer : ∀ e ∈ newer, e.publishes seat = none) :
    rebuilt seat t = some six := by
  rw [ht, rebuilt_append hnewer, rebuilt, if_pos rfl]
  exact h seat six older (ht ▸ List.suffix_append ..)

theorem Event.of_publishes (h : e.publishes seat = some six) : e = .snapshot seat six := by
  cases e with
  | snapshot s x =>
    simp only [publishes] at h
    split at h
    · cases h
      subst s
      rfl
    · cases h
  | _ => cases h

theorem Event.of_shows (h : e.shows seat = some (some six)) : e = .snapshot seat six := by
  cases e with
  | snapshot s x =>
    simp only [shows] at h
    split at h
    · cases h
      subst s
      rfl
    · cases h
  | invalidated s reason =>
    simp only [shows] at h
    split at h <;> cases h
  | _ => cases h

theorem Whole.rebuilt_of_standing (h : Whole t) (hstanding : standing seat t = some six) :
    rebuilt seat t = some six := by
  have hfound := Option.join_eq_some_iff.mp hstanding
  obtain ⟨newer, e, older, ht, he, hnewer⟩ := List.findSome?_eq_some_iff.mp hfound
  rw [Event.of_shows he] at ht
  exact h.rebuilt_of_eq ht fun e he => Event.publishes_of_shows (hnewer e he)

theorem Whole.rebuilt_of_published (h : Whole t)
    (hpublished : published seat (afterConfirm (since t)) = some six) :
    rebuilt seat t = some six := by
  obtain ⟨newer, e, older, ht, he, hnewer⟩ := List.findSome?_eq_some_iff.mp hpublished
  rw [Event.of_publishes he] at ht
  obtain ⟨rest, hrest⟩ := (List.takeWhile_prefix _).trans (List.takeWhile_prefix _ (l := t))
  rw [show t.takeWhile _ = since t from rfl,
    show (since t).takeWhile _ = afterConfirm (since t) from rfl, ht, List.append_assoc,
    List.cons_append] at hrest
  exact h.rebuilt_of_eq hrest.symm hnewer

end

/-! ## A commit is real -/

theorem Trade.swapped_eq_some {t : Trade} {recordA recordB : String}
    (h : t.swapped = some (recordA, recordB)) :
    t.confirmed = true ∧ (∀ seat, t.Saved seat) ∧
      ∃ slot : PerSeat Nat, ∃ pre post : PerSeat (List PartySlot),
        (∀ seat, t.selections.get seat = some (slot.get seat) ∧
          t.pre.get seat = some (pre.get seat) ∧ t.post.get seat = some (post.get seat)) ∧
        ((pre.memberA)[slot.memberA]?).join = some recordA ∧
        ((pre.memberB)[slot.memberB]?).join = some recordB ∧
        ((post.memberA)[slot.memberA]?).join = some recordB ∧
        ((post.memberB)[slot.memberB]?).join = some recordA := by
  simp only [swapped, Option.bind_eq_bind, Option.bind_eq_some_iff, Option.pure_def,
    Option.some.injEq, Prod.mk.injEq, Option.guard_eq_some'] at h
  obtain ⟨-, hconfirmed, postA, hpostA, postB, hpostB, -, hsaved, preA, hpreA, preB, hpreB, slotA,
    hslotA, slotB, hslotB, a, ha, b, hb, -, hswapped, rfl, rfl⟩ := h
  refine ⟨hconfirmed, fun seat => ?_, ⟨slotA, slotB⟩, ⟨preA, preB⟩, ⟨postA, postB⟩, fun seat => ?_,
    ha, hb, hswapped⟩
  · cases seat
    · exact hsaved.1
    · exact hsaved.2
  · cases seat
    · exact ⟨hslotA, hpreA, hpostA⟩
    · exact ⟨hslotB, hpreB, hpostB⟩

/-- The evidence of a commit is what the events before it show. -/
theorem Ledger.real {latest : PerSeat (Option (List PartySlot))} {trade : Trade} {t : List Event}
    {commit : Commit} (h : Ledger latest trade t) (hwhole : Whole t)
    (hswapped : trade.swapped = some (commit.memberARecordHash, commit.memberBRecordHash)) :
    Real commit t := by
  obtain ⟨hconfirmed, hsaved, slot, pre, post, hparties, hrecords⟩ := Trade.swapped_eq_some hswapped
  have hpre : ∀ seat, standing seat (fromConfirm t) = some (pre.get seat) := by
    intro seat
    have hstanding := h.pre seat _ (hparties seat).2.1
    rwa [if_pos hconfirmed] at hstanding
  have hpost : ∀ seat, published seat (afterConfirm (since t)) = some (post.get seat) :=
    fun seat => (h.post seat _ (hparties seat).2.2).2
  refine ⟨h.confirmed hconfirmed, fun seat n hn => (h.saved seat n (hsaved seat n hn)).2, slot, pre,
    post, ?_, hrecords⟩
  exact {
    selected := fun seat => by rw [← h.selections seat, (hparties seat).1]
    before := hpre
    after := hpost
    wholeBefore := fun seat =>
      (hwhole.suffix (List.dropWhile_suffix _)).rebuilt_of_standing (hpre seat)
    wholeAfter := fun seat => hwhole.rebuilt_of_published (hpost seat) }

theorem TradesReal.cons {e : Event} {t : List Event} (h : TradesReal t)
    (he : ∀ commit, e = .committed commit → Real commit t) : TradesReal (e :: t) := by
  intro commit before hbefore
  rcases List.suffix_cons_iff.mp hbefore with heq | hbefore
  · cases heq
    exact he commit rfl
  · exact h commit before hbefore

/-! ## The condition -/

namespace Trade

/-- The trade is confirmed, or its evidence is complete. -/
def Turns (t t' : Trade) : Prop := (t.confirmed = false ∧ t'.confirmed = true) ∨ t'.swapped.isSome

instance (t t' : Trade) : Decidable (t.Turns t') := inferInstanceAs (Decidable (_ ∨ _))

end Trade

/-- The command that is observed next. -/
def Worker.current : Worker → Option (SourceSeat × Command)
  | .busy seat (command :: _) => some (seat, command)
  | _ => none

namespace Observer

variable (cfg : Config)

/-- No block waits for the rest of a party. -/
def Rested (o : Observer) : Prop := ∀ seat, o.partyChunks.get seat = []

instance (o : Observer) : Decidable o.Rested :=
  decidable_of_iff (o.partyChunks.memberA = [] ∧ o.partyChunks.memberB = [])
    ⟨fun h seat => by cases seat; exacts [h.1, h.2], fun h => ⟨h .memberA, h .memberB⟩⟩

/-- No block waits when the last save barrier completes a trade. -/
def CarefulSave (o : Observer) (seat : SourceSeat) (count : Nat) : Prop :=
  o.trade.confirmed = true → 5 ≤ count → count ≤ 10 → (o.trade.save seat count).swapped.isSome →
    o.Rested

/-- No block waits when a link command cancels, confirms or completes a trade. -/
def CarefulLink (o : Observer) (seat : SourceSeat) (payload : Bytes) : Prop :=
  let command := ofBytes (payload.take 2)
  let cursor := ofBytes ((payload.drop 2).take 2)
  4 ≤ payload.length → command ∈ linkCommands →
    command ∈ cancelCommands ∨ o.trade.Turns (o.trade.command seat command cursor) → o.Rested

/-- No block of the other seat waits when the third block of a party completes a trade. -/
def CarefulParty (o : Observer) (seat : SourceSeat) (raw : Bytes) : Prop :=
  200 ≤ raw.length →
    ∀ slots ∈ (readSlots cfg [raw.take 100, (raw.drop 100).take 100]).toOption.join,
    (o.partyChunks.get seat).length = 2 →
      (o.trade.party seat (o.partyChunks.get seat ++ [slots]).flatten).swapped.isSome →
        o.partyChunks.get seat.peer = []

def CarefulBlock (o : Observer) (seat : SourceSeat) (ref : Nat) (block : RfuBlock) : Prop :=
  block.complete = true → (seat, ref) ∉ o.emitted →
    o.CarefulLink seat (block.payload.getD []) ∧
      (block.requestType = some 1 →
        ({ o with emitted := (seat, ref) :: o.emitted }.observeCompletedBlock cfg seat
          (block.payload.getD [])).CarefulParty cfg seat (block.payload.getD []))

/-- `observe` up to the assembler. -/
def fed (o : Observer) (seat : SourceSeat) (command : Command) :
    Observer × Option (Nat × RfuBlock) :=
  (if command.rfu.opcode = opExitStandby then o.observeSaveCount cfg seat command.word1 else o).feed
    cfg seat command.rfu

def CarefulObserve (o : Observer) (seat : SourceSeat) (command : Command) : Prop :=
  (command.rfu.opcode = opExitStandby → o.CarefulSave seat command.word1) ∧
    ∀ x ∈ (o.fed cfg seat command).2, (o.fed cfg seat command).1.CarefulBlock cfg seat x.1 x.2

/-- No block waits for the rest of a party when a trade is canceled, confirmed or committed. -/
def Careful (o : Observer) (l : Label) : Prop :=
  l = .observe → ∀ x ∈ o.worker.current, o.CarefulObserve cfg x.1 x.2

instance (o : Observer) (seat : SourceSeat) (count : Nat) : Decidable (o.CarefulSave seat count) :=
  inferInstanceAs (Decidable (_ → _))

instance (o : Observer) (seat : SourceSeat) (payload : Bytes) :
    Decidable (o.CarefulLink seat payload) :=
  inferInstanceAs (Decidable (_ → _))

instance (o : Observer) (seat : SourceSeat) (raw : Bytes) :
    Decidable (o.CarefulParty cfg seat raw) :=
  inferInstanceAs (Decidable (_ → ∀ slots ∈ (_ : Option (List PartySlot)), _))

instance (o : Observer) (seat : SourceSeat) (ref : Nat) (block : RfuBlock) :
    Decidable (o.CarefulBlock cfg seat ref block) :=
  inferInstanceAs (Decidable (_ → _ → _ ∧ _))

instance (o : Observer) (seat : SourceSeat) (command : Command) :
    Decidable (o.CarefulObserve cfg seat command) :=
  inferInstanceAs (Decidable (_ ∧ ∀ x ∈ (_ : Option (Nat × RfuBlock)), _))

instance (o : Observer) (l : Label) : Decidable (o.Careful cfg l) :=
  inferInstanceAs (Decidable (_ → ∀ x ∈ o.worker.current, _))

end Observer

/-! ## Every step keeps it -/

section

variable {seat : SourceSeat} {e : Event} {t : List Event}

theorem gathered_of_parts (h : e.parts seat = true) : gathered seat (e :: t) = [] := by
  cases e with
  | partyBlock s slots => cases h
  | _ => exact if_pos h

theorem gathered_cons (h : e.parts seat = false) (hblock : ∀ s slots, e ≠ .partyBlock s slots) :
    gathered seat (e :: t) = gathered seat t := by
  cases e with
  | partyBlock s slots => exact absurd rfl (hblock s slots)
  | _ => exact if_neg (by simp [h])

/-- The blocks that wait are those of the present exchange. -/
def Gathers (chunks : PerSeat (List (List PartySlot))) (t : List Event) : Prop :=
  ∀ seat, chunks.get seat = (gathered seat t).reverse ∧ (chunks.get seat).length < 3

variable {chunks : PerSeat (List (List PartySlot))}

theorem Gathers.cons (h : Gathers chunks t) (hparts : ∀ seat, e.parts seat = false)
    (hblock : ∀ s slots, e ≠ .partyBlock s slots) : Gathers chunks (e :: t) := by
  intro seat
  rw [gathered_cons (hparts seat) hblock]
  exact h seat

/-- Where no block waits, an exchange may end. -/
theorem Gathers.part (h : ∀ seat, chunks.get seat = []) (hparts : ∀ seat, e.parts seat = true) :
    Gathers chunks (e :: t) := by
  intro seat
  rw [gathered_of_parts (hparts seat), h seat]
  exact ⟨rfl, by decide⟩

end

namespace Observer

variable {cfg : Config} {o o' : Observer}

structure Sound (o : Observer) : Prop where
  ledger : Ledger o.latestHashes o.trade o.trace
  gathers : Gathers o.partyChunks o.trace
  whole : Whole o.trace
  trades : TradesReal o.trace

theorem Sound.fresh : Sound fresh where
  ledger :=
    { latest := fun seat => by cases seat <;> rfl
      selections := fun seat => by cases seat <;> rfl
      pre := fun seat six h => by cases seat <;> cases h
      post := fun seat six h => by cases seat <;> cases h
      saved := fun seat n h => by cases seat <;> cases h
      started := nofun
      readyFinish := nofun
      confirmed := nofun }
  gathers seat := by cases seat <;> exact ⟨rfl, by decide⟩
  whole seat six older h := by simp [Observer.fresh] at h
  trades commit before h := by simp [Observer.fresh] at h

/-- The evidence decides, not the queue, the worker or the assemblers. -/
theorem Sound.same (h : o.Sound) (hlatest : o'.latestHashes = o.latestHashes)
    (htrade : o'.trade = o.trade) (htrace : o'.trace = o.trace)
    (hchunks : o'.partyChunks = o.partyChunks) : o'.Sound := by
  obtain ⟨hledger, hgathers, hwhole, htrades⟩ := h
  exact ⟨by rwa [hlatest, htrade, htrace], by rwa [hchunks, htrace], by rwa [htrace],
    by rwa [htrace]⟩

theorem Sound.log (h : o.Sound) {e : Event} (he : e.Quiet) (hparts : ∀ seat, e.parts seat = false)
    (hblock : ∀ s slots, e ≠ .partyBlock s slots) : (o.log e).Sound where
  ledger := h.ledger.log he
  gathers := h.gathers.cons hparts hblock
  whole := h.whole.cons fun seat six heq => by
    have hshows := he.shows seat
    rw [heq] at hshows
    simp [Event.shows] at hshows
  trades := h.trades.cons fun commit heq => by
    have hresets := he.resets
    rw [heq] at hresets
    cases hresets

theorem Sound.invalidate (h : o.Sound) (seat : SourceSeat) (reason : String) :
    (o.invalidate seat reason).Sound where
  ledger := h.ledger.invalidate seat reason
  gathers s := by
    rcases seat.eq_or_peer s with rfl | rfl
    · show (o.partyChunks.set _ []).get _ =
        (gathered _ (.invalidated _ reason :: o.trace)).reverse ∧ _
      rw [gathered_of_parts (by simp [Event.parts]), PerSeat.get_set]
      exact ⟨rfl, by simp [Observer.invalidate]⟩
    · have hold := h.gathers seat.peer
      show (o.partyChunks.set _ []).get _ =
          (gathered _ (.invalidated _ reason :: o.trace)).reverse ∧
        ((o.partyChunks.set _ []).get _).length < 3
      rw [gathered_cons (by simp [Event.parts]) (by simp), PerSeat.get_set_peer]
      exact hold
  whole := h.whole.cons fun seat six heq => nomatch heq
  trades := h.trades.cons fun commit heq => nomatch heq

/-- A commit starts the evidence anew; no block may wait then. -/
theorem Sound.tryCommit (h : o.Sound) (hrested : o.trade.swapped.isSome → o.Rested) :
    (o.tryCommit cfg).Sound := by
  unfold Observer.tryCommit
  split
  · exact h
  · rename_i recordA recordB hswapped
    have hrest := hrested (by rw [hswapped]; rfl)
    exact {
      ledger := h.ledger.reset rfl fun _ => rfl
      gathers := Gathers.part hrest fun _ => rfl
      whole := h.whole.cons fun seat six heq => nomatch heq
      trades := h.trades.cons fun commit heq => by
        cases heq
        exact h.ledger.real h.whole hswapped }

theorem Sound.observeSaveCount (h : o.Sound) {seat : SourceSeat} {count : Nat}
    (hcareful : o.CarefulSave seat count) : (o.observeSaveCount cfg seat count).Sound := by
  have hquiet : (Event.saved seat count).Quiet := ⟨rfl, fun _ => rfl, fun _ => rfl, by simp⟩
  have hlogged := h.log hquiet (fun _ => rfl) (by simp)
  unfold Observer.observeSaveCount
  dsimp only
  split
  · rename_i hcounts
    simp only [Bool.and_eq_true, decide_eq_true_eq] at hcounts
    obtain ⟨⟨hconfirmed, hlow⟩, hhigh⟩ := hcounts
    refine Sound.tryCommit ?_ (hcareful hconfirmed hlow hhigh)
    exact ⟨h.ledger.save hconfirmed seat count, hlogged.gathers, hlogged.whole, hlogged.trades⟩
  · exact hlogged

/-- A link command that cancels starts the evidence anew, as a commit does. -/
theorem Sound.cancel (h : o.Sound) {e : Event} (hresets : e.resets = true)
    (hshows : ∀ seat, e.shows seat = none) (hparts : ∀ seat, e.parts seat = true)
    (hcommits : ∀ commit, e ≠ .committed commit) (hrest : o.Rested) :
    ((o.log e).resetTradeEvidence true).Sound where
  ledger := h.ledger.reset hresets hshows
  gathers := Gathers.part hrest hparts
  whole := h.whole.cons fun seat six heq => by
    have hnone := hshows seat
    rw [heq] at hnone
    simp [Event.shows] at hnone
  trades := h.trades.cons fun commit heq => absurd heq (hcommits commit)

theorem Sound.observeCompletedBlock (h : o.Sound) {seat : SourceSeat} {payload : Bytes}
    (hcareful : o.CarefulLink seat payload) : (o.observeCompletedBlock cfg seat payload).Sound := by
  unfold Observer.observeCompletedBlock
  split
  · exact h
  · rename_i hlong
    dsimp only
    split
    · rename_i hlink
      have hturn := hcareful (Nat.le_of_not_lt hlong) hlink
      generalize ofBytes (payload.take 2) = code at hturn ⊢
      generalize ofBytes ((payload.drop 2).take 2) = cursor at hturn ⊢
      unfold Observer.observeLinkCommand
      dsimp only
      split
      · rename_i hcancel
        have hcancels : (Event.command seat code cursor).cancels = true := decide_eq_true hcancel
        exact h.cancel hcancels (fun _ => rfl) (fun _ => hcancels) (by simp) (hturn (.inl hcancel))
      · rename_i hcancel
        refine Sound.tryCommit ?_ ?_
        · have hledger := h.ledger.command seat cursor hcancel
          have hnot : ∀ s, (Event.command seat code cursor).parts s = false := fun _ =>
            decide_eq_false hcancel
          have hgathers : Gathers o.partyChunks (.command seat code cursor :: o.trace) :=
            h.gathers.cons hnot (by simp)
          have hwhole : Whole (.command seat code cursor :: o.trace) :=
            h.whole.cons fun _ _ heq => nomatch heq
          have htrades : TradesReal (.command seat code cursor :: o.trace) :=
            h.trades.cons fun _ heq => nomatch heq
          unfold Ledger.afterCommand at hledger
          show Observer.Sound { (if (!o.trade.confirmed &&
              (o.trade.command seat code cursor).confirmed) = true then _ else _ : Observer) with
            trade := _ }
          split
          · rename_i hconfirms
            rw [if_pos hconfirms] at hledger
            rw [Bool.and_eq_true, Bool.not_eq_true'] at hconfirms
            have hrest := hturn (.inr (.inl hconfirms))
            exact ⟨hledger, Gathers.part hrest fun _ => rfl, hwhole.cons (by simp),
              htrades.cons (by simp)⟩
          · rename_i hconfirms
            rw [if_neg hconfirms] at hledger
            exact ⟨hledger, hgathers, hwhole, htrades⟩
        · intro hswapped
          have hrest := hturn (.inr (.inr hswapped))
          show ∀ s, _
          intro s
          show (if _ then _ else _ : Observer).partyChunks.get s = []
          split <;> exact hrest s
    · exact h

theorem Sound.addChunk (h : o.Sound) {seat : SourceSeat} {slots : List PartySlot}
    (hcareful : (o.partyChunks.get seat).length = 2 →
      (o.trade.party seat (o.partyChunks.get seat ++ [slots]).flatten).swapped.isSome →
        o.partyChunks.get seat.peer = []) : (o.addChunk cfg seat slots).Sound := by
  have hquiet : (Event.partyBlock seat slots).Quiet := ⟨rfl, fun _ => rfl, fun _ => rfl, by simp⟩
  have hledger := h.ledger.log hquiet
  have hwhole : Whole (.partyBlock seat slots :: o.trace) := h.whole.cons fun _ _ heq => nomatch heq
  have htrades : TradesReal (.partyBlock seat slots :: o.trace) :=
    h.trades.cons fun _ heq => nomatch heq
  obtain ⟨hown, hshort⟩ := h.gathers seat
  obtain ⟨hother, hshortOther⟩ := h.gathers seat.peer
  have hgathered : gathered seat (.partyBlock seat slots :: o.trace) =
      slots :: gathered seat o.trace := by
    rw [gathered, if_pos rfl]
  have hgatheredOther : gathered seat.peer (.partyBlock seat slots :: o.trace) =
      gathered seat.peer o.trace := by
    rw [gathered, if_neg (by simp)]
  unfold Observer.addChunk
  dsimp only [Observer.log]
  split
  · rename_i hfew
    refine ⟨hledger, fun s => ?_, hwhole, htrades⟩
    rcases seat.eq_or_peer s with rfl | rfl
    · rw [PerSeat.get_set, hgathered, List.reverse_cons, hown]
      rw [hown] at hfew
      exact ⟨rfl, hfew⟩
    · rw [PerSeat.get_set_peer, hgatheredOther]
      exact ⟨hother, hshortOther⟩
  · rename_i hthird
    rw [List.length_append, List.length_singleton] at hthird
    have htwo : (o.partyChunks.get seat).length = 2 := by omega
    have hall : (o.partyChunks.get seat ++ [slots]).drop
        ((o.partyChunks.get seat ++ [slots]).length - 3) = o.partyChunks.get seat ++ [slots] := by
      rw [List.length_append, htwo]
      rfl
    rw [hall]
    refine Sound.tryCommit ?_ ?_
    · refine ⟨hledger.party seat _, fun s => ?_, hwhole.cons ?_, htrades.cons nofun⟩
      · rcases seat.eq_or_peer s with rfl | rfl
        · rw [gathered_of_parts (by simp [Event.parts]), PerSeat.get_set]
          exact ⟨rfl, by simp⟩
        · rw [gathered_cons (by simp [Event.parts]) (by simp), PerSeat.get_set_peer, hgatheredOther]
          exact ⟨hother, hshortOther⟩
      · intro s six heq
        cases heq
        rw [assembled, hgathered]
        have hlength : (gathered seat o.trace).length = 2 := by
          rw [← List.length_reverse, ← hown, htwo]
        obtain ⟨second, first, hpair⟩ := List.length_eq_two.mp hlength
        rw [hown, hpair]
        simp
    · intro hswapped s
      show (o.partyChunks.set seat []).get s = []
      rcases seat.eq_or_peer s with rfl | rfl
      · rw [PerSeat.get_set]
      · rw [PerSeat.get_set_peer]
        exact hcareful htwo hswapped

/-- What is left where reading a record raises is sound too. -/
theorem Sound.consumePartyBlock (h : o.Sound) {seat : SourceSeat} {raw : Bytes}
    (hcareful : o.CarefulParty cfg seat raw) :
    (∀ o', o.consumePartyBlock cfg seat raw = .ok o' → o'.Sound) ∧
      ∀ o', o.consumePartyBlock cfg seat raw = .error o' → o'.Sound := by
  unfold Observer.consumePartyBlock
  split
  · exact ⟨fun o' heq => by cases heq; exact h, fun o' heq => by cases heq⟩
  · rename_i hlong
    split
    · exact ⟨fun o' heq => (by cases heq), fun o' heq => by cases heq; exact h⟩
    · exact ⟨fun o' heq => by cases heq; exact h.invalidate seat _, fun o' heq => by cases heq⟩
    · rename_i slots hread
      refine ⟨fun o' heq => ?_, fun o' heq => by cases heq⟩
      cases heq
      unfold CarefulParty at hcareful
      rw [hread] at hcareful
      exact h.addChunk (hcareful (Nat.le_of_not_lt hlong) slots rfl)

theorem feed_same (cfg : Config) (o : Observer) (seat : SourceSeat) (command : RfuCommand) :
    (o.feed cfg seat command).1.latestHashes = o.latestHashes ∧
      (o.feed cfg seat command).1.trade = o.trade ∧ (o.feed cfg seat command).1.trace = o.trace ∧
      (o.feed cfg seat command).1.partyChunks = o.partyChunks := by
  unfold Observer.feed
  dsimp only
  split
  · exact ⟨rfl, rfl, rfl, rfl⟩
  · split <;> exact ⟨rfl, rfl, rfl, rfl⟩

theorem Sound.observeBlock (h : o.Sound) {seat : SourceSeat} {ref : Nat} {block : RfuBlock}
    (hcareful : o.CarefulBlock cfg seat ref block) :
    (∀ o', o.observeBlock cfg seat ref block = .ok o' → o'.Sound) ∧
      ∀ o', o.observeBlock cfg seat ref block = .error o' → o'.Sound := by
  unfold Observer.observeBlock
  split
  · exact ⟨fun o' heq => by cases heq; exact h, fun o' heq => by cases heq⟩
  · rename_i hnew
    simp only [Bool.or_eq_true, Bool.not_eq_true', decide_eq_true_eq, not_or,
      Bool.not_eq_false] at hnew
    obtain ⟨hlink, hparty⟩ := hcareful hnew.1 hnew.2
    have hemitted : Observer.Sound { o with emitted := (seat, ref) :: o.emitted } :=
      h.same rfl rfl rfl rfl
    dsimp only
    have hobserved := @Sound.observeCompletedBlock cfg _ hemitted _ _ hlink
    split
    · rename_i htype
      exact hobserved.consumePartyBlock (hparty htype)
    · exact ⟨fun o' heq => by cases heq; exact hobserved, fun o' heq => by cases heq⟩

theorem Sound.observe (h : o.Sound) {seat : SourceSeat} {command : Command}
    (hcareful : o.CarefulObserve cfg seat command) :
    (∀ o', o.observe cfg seat command = .ok o' → o'.Sound) ∧
      ∀ o', o.observe cfg seat command = .error o' → o'.Sound := by
  obtain ⟨hsave, hblock⟩ := hcareful
  have hsaved : (if command.rfu.opcode = opExitStandby then
      o.observeSaveCount cfg seat command.word1 else o).Sound := by
    split
    · exact h.observeSaveCount (hsave ‹_›)
    · exact h
  obtain ⟨hlatest, htrade, htrace, hchunks⟩ := feed_same cfg
    (if command.rfu.opcode = opExitStandby then o.observeSaveCount cfg seat command.word1 else o)
    seat command.rfu
  have hfed := hsaved.same hlatest htrade htrace hchunks
  unfold Observer.observe
  unfold fed at hblock
  dsimp only
  split
  · rename_i hnone
    rw [hnone] at hfed
    exact ⟨fun o' heq => by cases heq; exact hfed, fun o' heq => by cases heq⟩
  · rename_i ref block hsome
    rw [hsome] at hfed hblock
    exact hfed.observeBlock (hblock _ rfl)

theorem Sound.flushInvalidations (h : o.Sound) : o.flushInvalidations.Sound := by
  have hstart : Observer.Sound { o with pendingInvalidations := .empty } := h.same rfl rfl rfl rfl
  unfold Observer.flushInvalidations
  generalize ({ o with pendingInvalidations := .empty } : Observer) = start at hstart
  induction o.pendingInvalidations.items generalizing start with
  | nil => exact hstart
  | cons item rest ih => exact ih _ (hstart.invalidate item.1 item.2)

theorem Sound.step (h : o.Sound) {l : Label} (hcareful : o.Careful cfg l)
    (hstep : o.step cfg l = some o') : o'.Sound := by
  cases l with
  | submit seat role payload =>
    cases hstep
    unfold Observer.submit
    split
    · exact h
    · split <;> exact h.same rfl rfl rfl rfl
  | stop =>
    cases hstep
    exact h.same rfl rfl rfl rfl
  | flush =>
    simp only [Observer.step] at hstep
    split at hstep
    · split at hstep
      · cases hstep
        exact h.same rfl rfl rfl rfl
      · cases hstep
        exact h.flushInvalidations.same rfl rfl rfl rfl
    · cases hstep
  | take =>
    simp only [Observer.step] at hstep
    split at hstep
    · cases hstep
      exact h.same rfl rfl rfl rfl
    · cases hstep
      exact h.same rfl rfl rfl rfl
    · cases hstep
  | observe =>
    simp only [Observer.step] at hstep
    split at hstep
    · cases hstep
      exact h.same rfl rfl rfl rfl
    · rename_i seat command rest hworker
      obtain ⟨hok, herror⟩ := h.observe (hcareful rfl (seat, command) (by rw [hworker]; rfl))
      split at hstep
      · cases hstep
        rename_i hok'
        exact (hok _ hok').same rfl rfl rfl rfl
      · cases hstep
        rename_i herror'
        exact ((herror _ herror').invalidate seat _).same rfl rfl rfl rfl
    · cases hstep
  | clear =>
    simp only [Observer.step] at hstep
    split at hstep
    · cases hstep
      exact h.same rfl rfl rfl rfl
    · cases hstep

/-- In every run in which no block of a party waits when a trade is canceled, confirmed or
committed, the committed trades are real. -/
theorem committed_trades_real (h : (system cfg).Reachable (Careful cfg) o) :
    TradesReal o.trace := by
  refine (System.Reachable.invariant (P := Sound) ?_ ?_ h).trades
  · rintro o rfl
    exact .fresh
  · intro o l o' hsound hcareful hstep
    exact hsound.step hcareful hstep

theorem reachable_of_play {G : Observer → Label → Prop} [∀ o l, Decidable (G o l)]
    {labels : List Label} (h : System.play (step cfg) G .fresh labels = some o) :
    (system cfg).Reachable G o :=
  ⟨.fresh, rfl, System.run_of_play h⟩

/-! The two seats trade what is in their first slots. -/

/-- A `T` carrier of a child with one command. -/
def childCarrier (raw : Bytes) : Bytes :=
  [0x57, 0x54, 24, 0, 0, 0, 0, 0, 0, 16, 0, 0, 0x0E, 0x10] ++ raw

/-- A payload with these commands is submitted and observed to its end. -/
def sends (seat : SourceSeat) (commands : List Bytes) : List Label :=
  .submit seat "child" (commands.flatMap childCarrier) :: .flush :: .take ::
    List.replicate (commands.length + 1) .observe

def fragments (payload : Bytes) (n : Nat) : List Bytes :=
  (List.range n).map fun i => wordsToSlot (sendBlockWords i ((payload.drop (12 * i)).take 12))

def sendsLink (seat : SourceSeat) (command cursor : Nat) : List Label :=
  sends seat (wordsToSlot (initWords 1 0) :: fragments (wordBytes command ++ wordBytes cursor) 1)

/-- A party block whose first slot holds the record `tag`, if that is not 0. -/
def sendsParty (seat : SourceSeat) (tag : UInt8) : List Label :=
  sends seat (wordsToSlot (initWords 17 0) :: wordsToSlot [opReq, 1] ::
    fragments (tag :: List.replicate 199 0) 17)

def sendsWhole (seat : SourceSeat) (tag : UInt8) : List Label :=
  sendsParty seat tag ++ sendsParty seat 0 ++ sendsParty seat 0

def sendsSaves (seat : SourceSeat) : List Label :=
  sends seat (saveBarriers.map fun n => wordsToSlot [opExitStandby, n])

/-- A record is its first byte. -/
def tagConfig : Config where
  attemptId := "attempt"
  localSeat := .memberA
  capacity := 256
  sha256 text := text
  record raw := .ok (raw.head?.bind fun tag => if tag = 0 then none else some (toString tag.toNat))

/-- From the selections to the parties that have traded the records `a` and `b`. -/
def sendsTrade (a b : UInt8) : List Label :=
  sendsLink .memberA setMonsToTrade 0 ++ sendsLink .memberB readyToTrade 0 ++
    sendsLink .memberA startTrade 0 ++ sendsLink .memberB readyFinishTrade 0 ++
    sendsLink .memberA confirmFinishTrade 0 ++ sendsSaves .memberA ++ sendsSaves .memberB ++
    sendsWhole .memberA b ++ sendsWhole .memberB a

/-- The events before the commit that was observed last. -/
def beforeCommit : List Event → Option (List Event)
  | .committed _ :: t => some t
  | _ => none

theorem committed_trades_real_swapped : ∃ o,
    System.play (step tagConfig) (Careful tagConfig) .fresh
      (sendsWhole .memberA 1 ++ sendsWhole .memberB 2 ++ sendsTrade 1 2) = some o ∧
    (beforeCommit o.trace).isSome ∧ TradesReal o.trace := by
  obtain ⟨o, ho, hcommits⟩ := (Option.any_eq_true _ _).mp
    (show (System.play (step tagConfig) (Careful tagConfig) .fresh
      (sendsWhole .memberA 1 ++ sendsWhole .memberB 2 ++ sendsTrade 1 2)).any (fun o =>
        (beforeCommit o.trace).isSome) by decide +kernel)
  exact ⟨o, ho, hcommits, committed_trades_real (reachable_of_play ho)⟩

/-- A block of an exchange that was canceled is the first of the next party, so the record 9 is
said to be traded though it is no longer in the slot. -/
theorem stale_block_trades :
    ¬ ∀ (cfg : Config) (o : Observer), (system cfg).Reachable System.Free o →
      TradesReal o.trace := by
  intro h
  have hrun : (System.play (step tagConfig) System.Free .fresh
      (sendsParty .memberA 9 ++ sendsLink .memberB 0xEEAA 0 ++ sendsParty .memberA 1 ++
        sendsParty .memberA 0 ++ sendsWhole .memberB 2 ++ sendsTrade 9 2)).any (fun o =>
          (beforeCommit o.trace).any fun t => (rebuilt .memberA (fromConfirm t)).isNone) := by
    decide +kernel
  obtain ⟨o, ho, hcommits⟩ := (Option.any_eq_true _ _).mp hrun
  obtain ⟨t, ht, hstale⟩ := (Option.any_eq_true _ _).mp hcommits
  unfold beforeCommit at ht
  split at ht
  · rename_i commit before htrace
    cases ht
    have hreal := h tagConfig o (reachable_of_play ho) commit t (htrace ▸ List.suffix_refl _)
    obtain ⟨slot, pre, post, htraded, -⟩ := hreal.swapped
    rw [htraded.wholeBefore] at hstale
    cases hstale
  · cases ht

end Observer

end SwitchTrade.Party

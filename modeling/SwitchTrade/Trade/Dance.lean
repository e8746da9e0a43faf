import SwitchTrade.Trade.TradeEngine

/-!
# Rounds

What a trade is, without the link: the engine hears blocks of a party, commands and VBlanks. A
round is over when the host has started the trade, the animation has run out, and the host has
confirmed, in whichever order; then the mon at the host's cursor takes the place of the one that was
offered.

`Dance` is the part of the engine's state that this depends on. Its runs are cut into rounds in
exactly one way (`Dance.Tracks`), whatever commands are stale, repeated or missing.
-/

namespace SwitchTrade.Trade

open Chunks Rfu Pk3

/-- What the engine hears. A command is heeded if the engine has not been cancelled. -/
inductive Heard where
  | party (data : Bytes)
  | linkcmd (heeded : Bool) (cmd cursor : Nat)
  | vblank
  deriving DecidableEq, Repr

/-! ## The machine -/

structure Dance where
  party : List Mon
  round : Nat := 0
  receivedMons : List Mon := []
  commits : Nat := 0
  hostParty : Bytes := List.replicate 600 0
  hostPartyBlocks : Nat := 0
  hostCursor : Option Nat := none
  animWait : Option Nat := none
  finishSent : Bool := false
  pendingConfirm : Bool := false

namespace Dance

/-- The next round, with the party as it is now. -/
def next (d : Dance) : Dance :=
  { party := d.party, round := d.round + 1, receivedMons := d.receivedMons, commits := d.commits }

section

variable {d : Dance}

@[simp] theorem next_party : d.next.party = d.party := rfl

@[simp] theorem next_round : d.next.round = d.round + 1 := rfl

@[simp] theorem next_receivedMons : d.next.receivedMons = d.receivedMons := rfl

@[simp] theorem next_commits : d.next.commits = d.commits := rfl

end

def commit (slots : List Int) (d : Dance) : Except Raised Dance :=
  match slots[d.round]? with
  | none => .error .offeredSlots
  | some offeredSlot =>
    match d.hostCursor with
    | none => .ok { d with commits := d.commits + 1 }.next
    | some cursor =>
      match Engine.offeredMon d.hostParty cursor with
      | .error _ => .error .partyMon
      | .ok received =>
        match setSlot d.party offeredSlot received with
        | none => .error .partySlot
        | some party =>
          .ok { d with
            commits := d.commits + 1
            receivedMons := d.receivedMons ++ [received]
            party }.next

def hearParty (d : Dance) (data : Bytes) : Except Raised Dance :=
  match LinkPlayer.parseBlock data with
  | none => .error .parseBlock
  | some (_, true) => .ok d
  | some (_, false) =>
    if d.hostPartyBlocks < 3 then
      .ok { d with
        hostParty := splice 200 d.hostPartyBlocks (data.take 200) d.hostParty
        hostPartyBlocks := d.hostPartyBlocks + 1 }
    else .ok d

def hear (cfg : Config) (d : Dance) : Heard → Except Raised Dance
  | .party data => d.hearParty data
  | .linkcmd heeded cmd cursor =>
    if cmd = setMonsToTrade then .ok { d with hostCursor := some cursor }
    else if cmd = startTrade then
      .ok (if heeded then { d with animWait := some cfg.animDelay } else d)
    else if cmd = confirmFinishTrade then
      if heeded then
        if d.finishSent then d.commit cfg.offeredSlots else .ok { d with pendingConfirm := true }
      else .ok d
    else .ok d
  | .vblank =>
    match d.animWait with
    | none => .ok d
    | some (wait + 1) => .ok { d with animWait := some wait }
    | some 0 =>
      let d := { d with animWait := none, finishSent := true }
      if d.pendingConfirm then d.commit cfg.offeredSlots else .ok d

end Dance

/-! ## Rounds -/

/-- The VBlanks since the trade was last started. -/
def sinceStart (ops : List Heard) : Option Nat :=
  ops.foldl (fun since op =>
    match op with
    | .linkcmd true cmd _ => if cmd = startTrade then some 0 else since
    | .vblank => since.map (· + 1)
    | _ => since) none

/-- The trade was started and its animation ran out. -/
def Finished (delay : Nat) (ops : List Heard) : Prop :=
  ∃ pre, pre <+: ops ∧ sinceStart pre = some (delay + 1)

def Confirmed (ops : List Heard) : Prop := ∃ cursor, .linkcmd true confirmFinishTrade cursor ∈ ops

def Danced (delay : Nat) (ops : List Heard) : Prop := Finished delay ops ∧ Confirmed ops

/-- A trade is danced by all of it and not by any less. -/
def IsRound (delay : Nat) (ops : List Heard) : Prop :=
  Danced delay ops ∧ ¬ Danced delay ops.dropLast

/-- What was heard is cut into rounds and a rest in which no trade is danced. -/
structure Cut (delay : Nat) (heard : List Heard) (rounds : List (List Heard)) (now : List Heard) :
    Prop where
  all : heard = rounds.flatten ++ now
  rounds : ∀ ops ∈ rounds, IsRound delay ops
  rest : ¬ Danced delay now

/-- A block of the party, unless it is of a player. -/
def partyData : Heard → Option Bytes
  | .party data => if (LinkPlayer.parseBlock data).any Prod.snd then none else some data
  | _ => none

/-- The party of the host: the first three blocks of it. -/
def hostPartyOf (ops : List Heard) : Bytes :=
  padded 600 0 (((ops.filterMap partyData).take 3).flatMap (List.take 200))

def cursorData : Heard → Option Nat
  | .linkcmd _ cmd cursor => if cmd = setMonsToTrade then some cursor else none
  | _ => none

/-- The mon that a round brings: the one at the last cursor of the host. -/
def received (ops : List Heard) : Option Mon :=
  (ops.filterMap cursorData).getLast?.bind fun cursor =>
    (Engine.offeredMon (hostPartyOf ops) cursor).toOption

/-- What a round does to the party. -/
def swapRound (slots : List Int) (party : List Mon) (round : List Heard × Nat) : List Mon :=
  match slots[round.2]?, received round.1 with
  | some slot, some mon => (setSlot party slot mon).getD party
  | _, _ => party

/-- The party after some rounds. -/
def partyAfter (slots : List Int) (party : List Mon) (rounds : List (List Heard)) : List Mon :=
  rounds.zipIdx.foldl (swapRound slots) party

/-! ## One more thing is heard -/

section

variable {delay : Nat} {ops : List Heard} {op : Heard}

theorem sinceStart_snoc : sinceStart (ops ++ [op]) =
    match op with
    | .linkcmd true cmd _ => if cmd = startTrade then some 0 else sinceStart ops
    | .vblank => (sinceStart ops).map (· + 1)
    | _ => sinceStart ops := by
  rw [sinceStart, List.foldl_append]
  rfl

theorem finished_snoc : Finished delay (ops ++ [op]) ↔
    Finished delay ops ∨ sinceStart (ops ++ [op]) = some (delay + 1) := by
  constructor
  · rintro ⟨pre, hpre, hsince⟩
    rcases List.prefix_concat_iff.mp hpre with rfl | hpre
    · exact .inr hsince
    · exact .inl ⟨pre, hpre, hsince⟩
  · rintro (⟨pre, hpre, hsince⟩ | hsince)
    · exact ⟨pre, hpre.trans (List.prefix_append _ _), hsince⟩
    · exact ⟨_, List.prefix_rfl, hsince⟩

theorem confirmed_snoc : Confirmed (ops ++ [op]) ↔
    Confirmed ops ∨ ∃ cursor, op = .linkcmd true confirmFinishTrade cursor := by
  unfold Confirmed
  constructor
  · rintro ⟨cursor, hmem⟩
    rcases List.mem_append.mp hmem with hmem | hmem
    · exact .inl ⟨cursor, hmem⟩
    · exact .inr ⟨cursor, (List.mem_singleton.mp hmem).symm⟩
  · rintro (⟨cursor, hmem⟩ | ⟨cursor, rfl⟩)
    · exact ⟨cursor, List.mem_append_left _ hmem⟩
    · exact ⟨cursor, List.mem_append_right _ (List.mem_singleton_self _)⟩

theorem isRound_snoc :
    IsRound delay (ops ++ [op]) ↔ Danced delay (ops ++ [op]) ∧ ¬ Danced delay ops := by
  rw [IsRound, List.dropLast_concat]

theorem not_finished_nil : ¬ Finished delay [] := by
  rintro ⟨pre, hpre, hsince⟩
  rw [List.prefix_nil.mp hpre] at hsince
  cases hsince

theorem not_confirmed_nil : ¬ Confirmed [] := by
  rintro ⟨cursor, hmem⟩
  cases hmem

theorem Danced.mono {more : List Heard} (h : Danced delay ops) ( hprefix : ops <+: more) :
    Danced delay more := by
  obtain ⟨⟨pre, hpre, hsince⟩, cursor, hmem⟩ := h
  exact ⟨⟨pre, hpre.trans hprefix, hsince⟩, cursor, hprefix.subset hmem⟩

/-- A round is not part of a longer one. -/
theorem IsRound.eq_of_prefix {ops' : List Heard} (h : IsRound delay ops) (h' : IsRound delay ops')
    ( hprefix : ops <+: ops') : ops = ops' := by
  obtain ⟨rest, rfl⟩ := hprefix
  rcases rest.eq_nil_or_concat with rfl | ⟨rest, op, rfl⟩
  · exact (List.append_nil _).symm
  · rw [List.concat_eq_append, ← List.append_assoc] at h'
    exact absurd (h.1.mono (List.prefix_append _ _)) (isRound_snoc.mp h').2

/-- There is one way to cut. -/
theorem Cut.unique {heard now now' : List Heard} {rounds rounds' : List (List Heard)}
    (h : Cut delay heard rounds now) (h' : Cut delay heard rounds' now') :
    rounds' = rounds ∧ now' = now := by
  obtain ⟨rfl, hrounds, hrest⟩ := h
  obtain ⟨hall, hrounds', hrest'⟩ := h'
  induction rounds generalizing rounds' with
  | nil =>
    cases rounds' with
    | nil => exact ⟨rfl, hall.symm⟩
    | cons ops more =>
      have hprefix : ops <+: now := by
        rw [List.flatten_nil, List.nil_append] at hall
        rw [hall, List.flatten_cons, List.append_assoc]
        exact List.prefix_append _ _
      exact absurd ((hrounds' ops List.mem_cons_self).1.mono hprefix) hrest
  | cons ops more ih =>
    cases rounds' with
    | nil =>
      have hprefix : ops <+: now' := by
        rw [List.flatten_nil, List.nil_append] at hall
        rw [← hall, List.flatten_cons, List.append_assoc]
        exact List.prefix_append _ _
      exact absurd ((hrounds ops List.mem_cons_self).1.mono hprefix) hrest'
    | cons ops' more' =>
      have hfirst := hrounds ops List.mem_cons_self
      have hfirst' := hrounds' ops' List.mem_cons_self
      simp only [List.flatten_cons, List.append_assoc] at hall
      have hsame : ops = ops' := by
        rcases List.prefix_or_prefix_of_prefix (List.prefix_append ops (more.flatten ++ now))
          (hall ▸ List.prefix_append ops' (more'.flatten ++ now')) with hp | hp
        · exact hfirst.eq_of_prefix hfirst' hp
        · exact (hfirst'.eq_of_prefix hfirst hp).symm
      subst hsame
      obtain ⟨rfl, rfl⟩ := ih (fun o ho => hrounds o (List.mem_cons_of_mem _ ho))
        (List.append_cancel_left hall) fun o ho => hrounds' o (List.mem_cons_of_mem _ ho)
      exact ⟨rfl, rfl⟩

/-! ## The party of the host -/

/-- A block of a party is as long as the link makes it. -/
def Heard.Sized : Heard → Prop
  | .party data => 200 ≤ data.length
  | _ => True

theorem length_pieces {blocks : List Bytes} (h : ∀ data ∈ blocks, 200 ≤ data.length) :
    (blocks.flatMap (List.take 200)).length = 200 * blocks.length := by
  induction blocks with
  | nil => rfl
  | cons data rest ih =>
    have hdata : (data.take 200).length = 200 := List.length_take_of_le (h data (by simp))
    have hrest := ih fun d hd => h d (List.mem_cons_of_mem _ hd)
    rw [List.flatMap_cons, List.length_append, hdata, hrest, List.length_cons]
    omega

/-- The block after some others is written behind them. -/
theorem splice_pieces {blocks : List Bytes} {data : Bytes} (h : ∀ d ∈ blocks, 200 ≤ d.length)
    (hdata : 200 ≤ data.length) (hroom : blocks.length < 3) :
    splice 200 blocks.length (data.take 200) (padded 600 0 (blocks.flatMap (List.take 200))) =
      padded 600 0 ((blocks ++ [data]).flatMap (List.take 200)) := by
  have hlength := length_pieces h
  have hpiece : (data.take 200).length = 200 := List.length_take_of_le hdata
  have hfull : (blocks.flatMap (List.take 200)).length ≤ 600 := by omega
  have hlonger : (blocks.flatMap (List.take 200) ++ data.take 200).length ≤ 600 := by
    rw [List.length_append]
    omega
  rw [List.flatMap_append, List.flatMap_singleton, padded, padded, List.take_of_length_le hfull,
    List.take_of_length_le hlonger, splice, Nat.mul_comm, ← hlength, List.take_left,
    List.drop_append, List.drop_eq_nil_of_le (by omega), List.nil_append, List.drop_replicate,
    List.length_append]
  congr 2
  omega

theorem length_hostPartyOf : (hostPartyOf ops).length = 600 := length_padded

/-- The mon at a cursor is in the party. -/
theorem offeredMon_ok {hostParty : Bytes} (h : hostParty.length = 600) (cursor : Nat) :
    ∃ mon, Engine.offeredMon hostParty cursor = .ok mon := by
  have hlt : cursor % 6 < 6 := Nat.mod_lt _ (by decide)
  have hlength : (slice hostParty (cursor % partySize * partyMonSize)
      (cursor % partySize * partyMonSize + partyMonSize)).length = partyMonSize := by
    simp only [slice, List.length_drop, List.length_take, h, partySize, partyMonSize]
    omega
  exact ⟨⟨_, hlength⟩, dif_pos hlength⟩

end

/-! ## A run is cut into rounds -/

/-- What is known of the round that is being danced. -/
structure Dance.Present (delay : Nat) (d : Dance) (now : List Heard) : Prop where
  sized : ∀ op ∈ now, op.Sized
  blocks : d.hostPartyBlocks = min 3 (now.filterMap partyData).length
  hostParty : d.hostParty = hostPartyOf now
  cursor : d.hostCursor = (now.filterMap cursorData).getLast?
  wait : d.animWait = (sinceStart now).bind fun since =>
    if since ≤ delay then some (delay - since) else none
  finish : d.finishSent = true ↔ Finished delay now
  pending : d.pendingConfirm = true ↔ Confirmed now
  undanced : ¬ Danced delay now

/-- What is known of the rounds that are over. -/
structure Dance.Settled (cfg : Config) (party : List Mon) (d : Dance) (rounds : List (List Heard)) :
    Prop where
  danced : ∀ ops ∈ rounds, IsRound cfg.animDelay ops
  round : d.round = rounds.length
  commits : d.commits = rounds.length
  bound : rounds.length ≤ cfg.offeredSlots.length
  mons : d.receivedMons = rounds.filterMap received
  party : d.party = partyAfter cfg.offeredSlots party rounds

/-- Some rounds are over, and one is being danced. -/
structure Dance.Tracks (cfg : Config) (party : List Mon) (d : Dance) (rounds : List (List Heard))
    (now : List Heard) : Prop where
  settled : d.Settled cfg party rounds
  present : d.Present cfg.animDelay now

namespace Dance

variable {cfg : Config} {party : List Mon} {d d' : Dance} {rounds : List (List Heard)}
  {now ops : List Heard} {op : Heard}

theorem present_start {received : List Mon} {n k : Nat} :
    Present cfg.animDelay { party := party, round := n, receivedMons := received, commits := k }
      [] where
  sized := by simp
  blocks := rfl
  hostParty := rfl
  cursor := rfl
  wait := rfl
  finish := iff_of_false (by simp) not_finished_nil
  pending := iff_of_false (by simp) not_confirmed_nil
  undanced h := not_finished_nil h.1

theorem tracks_start : Tracks cfg party { party } [] [] :=
  ⟨⟨by simp, rfl, rfl, Nat.zero_le _, rfl, rfl⟩, present_start⟩

theorem partyAfter_snoc : partyAfter cfg.offeredSlots party (rounds ++ [ops]) =
    swapRound cfg.offeredSlots (partyAfter cfg.offeredSlots party rounds) (ops, rounds.length) := by
  rw [partyAfter, List.zipIdx_append, List.foldl_append]
  simp [partyAfter]

/-- A commit ends the round that was danced. -/
theorem Settled.commit (h : d.Settled cfg party rounds) (hround : IsRound cfg.animDelay ops)
    (hparty : d.hostParty = hostPartyOf ops)
    (hcursor : d.hostCursor = (ops.filterMap cursorData).getLast?)
    (hcommit : d.commit cfg.offeredSlots = .ok d') : d'.Tracks cfg party (rounds ++ [ops]) [] := by
  have hrounds : ∀ r ∈ rounds ++ [ops], IsRound cfg.animDelay r := by
    intro r hr
    rcases List.mem_append.mp hr with hr | hr
    · exact h.danced r hr
    · rw [List.mem_singleton.mp hr]
      exact hround
  unfold Dance.commit at hcommit
  split at hcommit
  · cases hcommit
  · next offeredSlot hslot =>
      rw [h.round] at hslot
      have hbound : (rounds ++ [ops]).length ≤ cfg.offeredSlots.length := by
        rw [List.length_append]
        exact (List.getElem?_eq_some_iff.mp hslot).1
      split at hcommit
      · next hnone =>
          cases hcommit
          have hreceived : received ops = none := by
            rw [received, ← hcursor, hnone]
            rfl
          refine ⟨⟨hrounds, ?_, ?_, hbound, ?_, ?_⟩, present_start⟩
          · simp [h.round]
          · simp [h.commits]
          · simp [h.mons, hreceived]
          · rw [partyAfter_snoc, swapRound, hslot, hreceived]
            exact h.party
      · next cursor hsome =>
          split at hcommit
          · cases hcommit
          · next mon hmon =>
              have hreceived : received ops = some mon := by
                rw [received, ← hcursor, hsome, ← hparty, Option.bind_some, hmon]
                rfl
              split at hcommit
              · cases hcommit
              · next party' hparty' =>
                  cases hcommit
                  refine ⟨⟨hrounds, ?_, ?_, hbound, ?_, ?_⟩, present_start⟩
                  · simp [h.round]
                  · simp [h.commits]
                  · simp [h.mons, hreceived]
                  · rw [partyAfter_snoc, swapRound, hslot, hreceived, ← h.party]
                    simp only [hparty', Option.getD_some]
                    rfl

/-- What is heard of a block, a cursor or a command that changes nothing. -/
theorem Present.snoc (h : d.Present cfg.animDelay now) (hsized : op.Sized)
    (hblocks : d'.hostPartyBlocks = min 3 ((now ++ [op]).filterMap partyData).length)
    (hparty : d'.hostParty = hostPartyOf (now ++ [op]))
    (hcursor : d'.hostCursor = ((now ++ [op]).filterMap cursorData).getLast?)
    (hwait : d'.animWait = (sinceStart (now ++ [op])).bind fun since =>
      if since ≤ cfg.animDelay then some (cfg.animDelay - since) else none)
    (hfinish : d'.finishSent = true ↔ Finished cfg.animDelay (now ++ [op]))
    (hpending : d'.pendingConfirm = true ↔ Confirmed (now ++ [op]))
    (hundanced : ¬ (d'.finishSent = true ∧ d'.pendingConfirm = true)) :
    d'.Present cfg.animDelay (now ++ [op]) where
  sized := by
    intro o ho
    rcases List.mem_append.mp ho with ho | ho
    · exact h.sized o ho
    · rw [List.mem_singleton.mp ho]
      exact hsized
  blocks := hblocks
  hostParty := hparty
  cursor := hcursor
  wait := hwait
  finish := hfinish
  pending := hpending
  undanced hdanced := hundanced ⟨hfinish.mpr hdanced.1, hpending.mpr hdanced.2⟩

theorem filterMap_snoc {α : Type} {f : Heard → Option α} :
    (now ++ [op]).filterMap f = now.filterMap f ++ (f op).toList := by
  rw [List.filterMap_append]
  cases hop : f op <;> simp [hop]

theorem filterMap_partyData_snoc (h : partyData op = none) :
    (now ++ [op]).filterMap partyData = now.filterMap partyData := by
  rw [filterMap_snoc, h, Option.toList_none, List.append_nil]

theorem hostPartyOf_snoc (h : partyData op = none) :
    hostPartyOf (now ++ [op]) = hostPartyOf now := by
  rw [hostPartyOf, filterMap_partyData_snoc h, ← hostPartyOf]

theorem finished_of_same (h : sinceStart (now ++ [op]) = sinceStart now) :
    Finished cfg.animDelay (now ++ [op]) ↔ Finished cfg.animDelay now := by
  rw [finished_snoc, h]
  refine ⟨?_, .inl⟩
  rintro (hfinished | hsince)
  · exact hfinished
  · exact ⟨now, List.prefix_rfl, hsince⟩

theorem Present.both (h : d.Present cfg.animDelay now) :
    ¬ (d.finishSent = true ∧ d.pendingConfirm = true) :=
  fun hboth => h.undanced ⟨h.finish.mp hboth.1, h.pending.mp hboth.2⟩

/-- A command other than a cursor, a heeded start and a heeded confirmation changes nothing. -/
theorem Present.command {heeded : Bool} {cmd cursor : Nat} (h : d.Present cfg.animDelay now)
    (hcursor : cmd ≠ setMonsToTrade) (hstart : heeded = true → cmd ≠ startTrade)
    (hconfirm : heeded = true → cmd ≠ confirmFinishTrade) :
    d.Present cfg.animDelay (now ++ [.linkcmd heeded cmd cursor]) := by
  have hsame : sinceStart (now ++ [.linkcmd heeded cmd cursor]) = sinceStart now := by
    rw [sinceStart_snoc]
    cases heeded with
    | false => rfl
    | true => exact if_neg (hstart rfl)
  have hkept : Confirmed (now ++ [.linkcmd heeded cmd cursor]) ↔ Confirmed now := by
    rw [confirmed_snoc, or_iff_left]
    rintro ⟨c, hc⟩
    cases hc
    exact hconfirm rfl rfl
  refine h.snoc trivial ?_ ?_ ?_ ?_ ?_ ?_ h.both
  · rw [filterMap_partyData_snoc rfl, h.blocks]
  · rw [hostPartyOf_snoc rfl, h.hostParty]
  · rw [filterMap_snoc, h.cursor]
    simp [cursorData, hcursor]
  · rw [hsame, h.wait]
  · rw [finished_of_same hsame, h.finish]
  · rw [hkept, h.pending]

theorem Present.hearCursor {heeded : Bool} {cursor : Nat} (h : d.Present cfg.animDelay now) :
    Dance.Present cfg.animDelay { d with hostCursor := some cursor }
      (now ++ [.linkcmd heeded setMonsToTrade cursor]) := by
  have hsame : sinceStart (now ++ [.linkcmd heeded setMonsToTrade cursor]) = sinceStart now := by
    rw [sinceStart_snoc]
    cases heeded <;> rfl
  have hkept : Confirmed (now ++ [.linkcmd heeded setMonsToTrade cursor]) ↔ Confirmed now := by
    rw [confirmed_snoc, or_iff_left]
    rintro ⟨c, hc⟩
    cases hc
  refine h.snoc trivial ?_ ?_ ?_ ?_ ?_ ?_ h.both
  · rw [filterMap_partyData_snoc rfl]
    exact h.blocks
  · rw [hostPartyOf_snoc rfl]
    exact h.hostParty
  · rw [filterMap_snoc]
    simp [cursorData]
  · rw [hsame]
    exact h.wait
  · rw [finished_of_same hsame]
    exact h.finish
  · rw [hkept]
    exact h.pending

theorem Present.hearStart {cursor : Nat} (h : d.Present cfg.animDelay now) :
    Dance.Present cfg.animDelay { d with animWait := some cfg.animDelay }
      (now ++ [.linkcmd true startTrade cursor]) := by
  have hsince : sinceStart (now ++ [.linkcmd true startTrade cursor]) = some 0 := by
    rw [sinceStart_snoc]
    rfl
  have hfinished : Finished cfg.animDelay (now ++ [.linkcmd true startTrade cursor]) ↔
      Finished cfg.animDelay now := by
    rw [finished_snoc, hsince, or_iff_left (by simp)]
  have hkept : Confirmed (now ++ [.linkcmd true startTrade cursor]) ↔ Confirmed now := by
    rw [confirmed_snoc, or_iff_left]
    rintro ⟨c, hc⟩
    cases hc
  refine h.snoc trivial ?_ ?_ ?_ ?_ ?_ ?_ h.both
  · rw [filterMap_partyData_snoc rfl]
    exact h.blocks
  · rw [hostPartyOf_snoc rfl]
    exact h.hostParty
  · rw [filterMap_snoc]
    simpa [cursorData, startTrade, setMonsToTrade] using h.cursor
  · simp [hsince]
  · rw [hfinished]
    exact h.finish
  · rw [hkept]
    exact h.pending

theorem Present.hearConfirm {cursor : Nat} (h : d.Present cfg.animDelay now)
    (hfinish : d.finishSent = false) :
    Dance.Present cfg.animDelay { d with pendingConfirm := true }
      (now ++ [.linkcmd true confirmFinishTrade cursor]) := by
  have hsame : sinceStart (now ++ [.linkcmd true confirmFinishTrade cursor]) =
      sinceStart now := by
    rw [sinceStart_snoc]
    rfl
  refine h.snoc trivial ?_ ?_ ?_ ?_ ?_ ?_ ?_
  · rw [filterMap_partyData_snoc rfl]
    exact h.blocks
  · rw [hostPartyOf_snoc rfl]
    exact h.hostParty
  · rw [filterMap_snoc]
    simpa [cursorData, confirmFinishTrade, setMonsToTrade] using h.cursor
  · rw [hsame]
    exact h.wait
  · rw [finished_of_same hsame]
    exact h.finish
  · exact iff_of_true rfl (confirmed_snoc.mpr (.inr ⟨cursor, rfl⟩))
  · simp [hfinish]

theorem Present.hearParty {data : Bytes} (h : d.Present cfg.animDelay now)
    (hsized : 200 ≤ data.length) (hhear : d.hearParty data = .ok d') :
    d'.Present cfg.animDelay (now ++ [.party data]) := by
  have hsame : sinceStart (now ++ [.party data]) = sinceStart now := by
    rw [sinceStart_snoc]
  have hkept : Confirmed (now ++ [.party data]) ↔ Confirmed now := by
    rw [confirmed_snoc, or_iff_left]
    rintro ⟨c, hc⟩
    cases hc
  have hcursor : ((now ++ [Heard.party data]).filterMap cursorData).getLast? =
      (now.filterMap cursorData).getLast? := by
    rw [filterMap_snoc]
    simp [cursorData]
  have hfinished : Finished cfg.animDelay (now ++ [Heard.party data]) ↔
      Finished cfg.animDelay now := finished_of_same hsame
  have hblocks : ∀ d ∈ now.filterMap partyData, 200 ≤ d.length := by
    intro b hb
    obtain ⟨op, hop, hdata⟩ := List.mem_filterMap.mp hb
    have hsize := h.sized op hop
    cases op with
    | party bytes =>
      simp only [partyData] at hdata
      split at hdata
      · cases hdata
      · cases hdata
        exact hsize
    | linkcmd => cases hdata
    | vblank => cases hdata
  unfold Dance.hearParty at hhear
  split at hhear
  · cases hhear
  · next lp hparse =>
      -- A block of a player is not of the party.
      cases hhear
      have hnone : partyData (.party data) = none := by simp [partyData, hparse]
      exact h.snoc hsized (by rw [filterMap_partyData_snoc hnone, h.blocks])
        (by rw [hostPartyOf_snoc hnone, h.hostParty]) (by rw [hcursor, h.cursor])
        (by rw [hsame, h.wait]) (by rw [hfinished, h.finish]) (by rw [hkept, h.pending]) h.both
  · next lp hparse =>
      have hsome : partyData (.party data) = some data := by simp [partyData, hparse]
      have hmore : (now ++ [Heard.party data]).filterMap partyData =
          now.filterMap partyData ++ [data] := by
        rw [filterMap_snoc, hsome]
        rfl
      split at hhear
      · next hroom =>
          cases hhear
          have hfew : (now.filterMap partyData).length < 3 := by
            have := h.blocks
            omega
          have hcount : d.hostPartyBlocks = (now.filterMap partyData).length := by
            rw [h.blocks, Nat.min_eq_right (Nat.le_of_lt hfew)]
          refine h.snoc hsized ?_ ?_ (by rw [hcursor]; exact h.cursor)
            (by rw [hsame]; exact h.wait) (by rw [hfinished]; exact h.finish)
            (by rw [hkept]; exact h.pending) h.both
          · rw [hmore, List.length_append, List.length_singleton, ← hcount]
            exact (Nat.min_eq_right hroom).symm
          · have hall : (now.filterMap partyData ++ [data]).take 3 =
                now.filterMap partyData ++ [data] :=
              List.take_of_length_le (by rw [List.length_append]; exact hfew)
            have hbefore : (now.filterMap partyData).take 3 = now.filterMap partyData :=
              List.take_of_length_le (Nat.le_of_lt hfew)
            rw [hostPartyOf, hmore, hall, ← splice_pieces hblocks hsized hfew, ← hcount]
            dsimp only
            rw [h.hostParty, hostPartyOf, hbefore]
      · next hfull =>
          cases hhear
          have hthree : 3 ≤ (now.filterMap partyData).length := by
            have := h.blocks
            omega
          refine h.snoc hsized ?_ ?_ (by rw [hcursor, h.cursor]) (by rw [hsame, h.wait])
            (by rw [hfinished, h.finish]) (by rw [hkept, h.pending]) h.both
          · rw [hmore, h.blocks, List.length_append, Nat.min_eq_left hthree,
              Nat.min_eq_left (Nat.le_add_right_of_le hthree)]
          · rw [hostPartyOf, hmore, List.take_append_of_le_length hthree, ← hostPartyOf,
              h.hostParty]

/-- A VBlank is heard: the animation goes on, or runs out, and then the round may be over. -/
theorem Present.hearVblank (h : d.Present cfg.animDelay now) :
    (d.animWait = none → d.Present cfg.animDelay (now ++ [.vblank])) ∧
    (∀ wait, d.animWait = some (wait + 1) →
      Dance.Present cfg.animDelay { d with animWait := some wait } (now ++ [.vblank])) ∧
    (d.animWait = some 0 → Finished cfg.animDelay (now ++ [.vblank]) ∧
      (d.pendingConfirm = false → Dance.Present cfg.animDelay
        { d with animWait := none, finishSent := true } (now ++ [.vblank]))) := by
  have hsince : sinceStart (now ++ [.vblank]) = (sinceStart now).map (· + 1) := by
    rw [sinceStart_snoc]
  have hkept : Confirmed (now ++ [.vblank]) ↔ Confirmed now := by
    rw [confirmed_snoc, or_iff_left]
    rintro ⟨c, hc⟩
    cases hc
  have hcursor : ((now ++ [Heard.vblank]).filterMap cursorData).getLast? =
      (now.filterMap cursorData).getLast? := by
    rw [filterMap_snoc]
    simp [cursorData]
  have hnext : ∀ since, sinceStart now = some since →
      sinceStart (now ++ [.vblank]) = some (since + 1) := by
    intro since hs
    rw [hsince, hs]
    rfl
  have hwait := h.wait
  have hcases : ∀ since, sinceStart now = some since →
      d.animWait = if since ≤ cfg.animDelay then some (cfg.animDelay - since) else none := by
    intro since hs
    rw [hwait, hs]
    rfl
  have hblocks : d.hostPartyBlocks =
      min 3 ((now ++ [Heard.vblank]).filterMap partyData).length := by
    rw [filterMap_partyData_snoc rfl, h.blocks]
  have hparty : d.hostParty = hostPartyOf (now ++ [.vblank]) := by
    rw [hostPartyOf_snoc rfl, h.hostParty]
  have hcur : d.hostCursor = ((now ++ [Heard.vblank]).filterMap cursorData).getLast? := by
    rw [hcursor, h.cursor]
  have hpend : d.pendingConfirm = true ↔ Confirmed (now ++ [.vblank]) := by
    rw [hkept, h.pending]
  refine ⟨fun hnone => ?_, fun wait hsome => ?_, fun hzero => ?_⟩
  · -- Nothing runs: the trade is not started, or the animation ran out before.
    cases hs : sinceStart now with
    | none =>
      refine h.snoc trivial hblocks hparty hcur ?_ ?_ hpend h.both
      · rw [hnone, hsince, hs]
        rfl
      · rw [finished_snoc, hsince, hs, or_iff_left (by simp)]
        exact h.finish
    | some since =>
      have hlate : cfg.animDelay < since := by
        by_contra hle
        rw [hcases since hs, if_pos (by omega)] at hnone
        cases hnone
      refine h.snoc trivial hblocks hparty hcur ?_ ?_ hpend h.both
      · rw [hnone, hnext since hs, Option.bind_some, if_neg (by omega)]
      · rw [finished_snoc, hnext since hs, or_iff_left (by simp; omega)]
        exact h.finish
  all_goals
    obtain ⟨since, hs, hle⟩ : ∃ since, sinceStart now = some since ∧ since ≤ cfg.animDelay := by
      cases hs : sinceStart now with
      | none =>
        rw [hs] at hwait
        simp_all
      | some since =>
        refine ⟨since, rfl, ?_⟩
        by_contra hgt
        have := hcases since hs
        rw [if_neg hgt] at this
        simp_all
    have hanim := hcases since hs
    rw [if_pos hle] at hanim
  · rw [hsome, Option.some_inj] at hanim
    refine h.snoc trivial hblocks hparty hcur ?_ ?_ hpend h.both
    · rw [hnext since hs, Option.bind_some, if_pos (by omega)]
      exact congrArg some (by omega)
    · rw [finished_snoc, hnext since hs, or_iff_left (by simp; omega)]
      exact h.finish
  · rw [hzero, Option.some_inj] at hanim
    have hfinished : Finished cfg.animDelay (now ++ [.vblank]) := by
      rw [finished_snoc, hnext since hs]
      exact .inr (congrArg some (by omega))
    refine ⟨hfinished, fun hpending => ?_⟩
    refine h.snoc trivial hblocks hparty hcur ?_ (iff_of_true rfl hfinished) hpend ?_
    · rw [hnext since hs, Option.bind_some, if_neg (by omega)]
    · simp [hpending]

/-! ## One step, and a run -/

theorem Settled.frame (h : d.Settled cfg party rounds) (hround : d'.round = d.round)
    (hcommits : d'.commits = d.commits) (hmons : d'.receivedMons = d.receivedMons)
    (hparty : d'.party = d.party) : d'.Settled cfg party rounds :=
  ⟨h.danced, hround.trans h.round, hcommits.trans h.commits, h.bound, hmons.trans h.mons,
    hparty.trans h.party⟩

theorem hearParty_frame {data : Bytes} (h : d.hearParty data = .ok d') :
    d'.round = d.round ∧ d'.commits = d.commits ∧ d'.receivedMons = d.receivedMons ∧
      d'.party = d.party := by
  unfold hearParty at h
  split at h
  · cases h
  · cases h
    exact ⟨rfl, rfl, rfl, rfl⟩
  · split at h
    all_goals
      cases h
      exact ⟨rfl, rfl, rfl, rfl⟩

/-- What is heard goes to the round that is danced, and is the last of it if it ends it. -/
theorem Tracks.hear (h : d.Tracks cfg party rounds now) (hsized : op.Sized)
    (hhear : d.hear cfg op = .ok d') :
    d'.Tracks cfg party rounds (now ++ [op]) ∨
      d'.Tracks cfg party (rounds ++ [now ++ [op]]) [] := by
  obtain ⟨hsettled, hpresent⟩ := h
  cases op with
  | party data =>
    obtain ⟨hround, hcommits, hmons, hparty⟩ := hearParty_frame hhear
    exact .inl ⟨hsettled.frame hround hcommits hmons hparty, hpresent.hearParty hsized hhear⟩
  | linkcmd heeded cmd cursor =>
    simp only [Dance.hear] at hhear
    split at hhear
    · next hcmd =>
        cases hhear
        rw [hcmd]
        exact .inl ⟨hsettled.frame rfl rfl rfl rfl, hpresent.hearCursor⟩
    next hcursor =>
    split at hhear
    · next hcmd =>
        cases hhear
        rw [hcmd]
        cases heeded with
        | true => exact .inl ⟨hsettled.frame rfl rfl rfl rfl, hpresent.hearStart⟩
        | false => exact .inl ⟨hsettled, hpresent.command (by decide) (by simp) (by simp)⟩
    next hstart =>
    split at hhear
    · next hcmd =>
        rw [hcmd]
        cases heeded with
        | false =>
          cases hhear
          exact .inl ⟨hsettled, hpresent.command (by decide) (by simp) (by simp)⟩
        | true =>
          rw [if_pos rfl] at hhear
          split at hhear
          · next hfinish =>
              -- The animation had run out before, so this ends the round.
              have hfinished := hpresent.finish.mp hfinish
              have hconfirmed : Confirmed (now ++ [.linkcmd true confirmFinishTrade cursor]) :=
                confirmed_snoc.mpr (.inr ⟨cursor, rfl⟩)
              have hround := isRound_snoc.mpr
                ⟨⟨finished_snoc.mpr (.inl hfinished), hconfirmed⟩, hpresent.undanced⟩
              refine .inr (hsettled.commit hround ?_ ?_ hhear)
              · rw [hostPartyOf_snoc rfl, hpresent.hostParty]
              · rw [filterMap_snoc, hpresent.cursor]
                simp [cursorData, confirmFinishTrade, setMonsToTrade]
          · next hfinish =>
              cases hhear
              exact .inl ⟨hsettled.frame rfl rfl rfl rfl,
                hpresent.hearConfirm (Bool.eq_false_of_not_eq_true hfinish)⟩
    · next hconfirm =>
        cases hhear
        exact .inl ⟨hsettled, hpresent.command hcursor (fun _ => hstart) fun _ => hconfirm⟩
  | vblank =>
    obtain ⟨hidle, hrunning, hout⟩ := hpresent.hearVblank
    simp only [Dance.hear] at hhear
    split at hhear
    · next hnone =>
        cases hhear
        exact .inl ⟨hsettled, hidle hnone⟩
    · next wait hsome =>
        cases hhear
        exact .inl ⟨hsettled.frame rfl rfl rfl rfl, hrunning wait hsome⟩
    · next hzero =>
        obtain ⟨hfinished, hwaits⟩ := hout hzero
        split at hhear
        · next hpending =>
            -- The host had confirmed before, so this ends the round.
            have hconfirmed := hpresent.pending.mp hpending
            have hround := isRound_snoc.mpr
              ⟨⟨hfinished, confirmed_snoc.mpr (.inl hconfirmed)⟩, hpresent.undanced⟩
            have hsame : Dance.Settled cfg party { d with animWait := none, finishSent := true }
                rounds := hsettled.frame rfl rfl rfl rfl
            refine .inr (hsame.commit hround ?_ ?_ hhear)
            · rw [hostPartyOf_snoc rfl]
              exact hpresent.hostParty
            · rw [filterMap_snoc]
              simpa [cursorData] using hpresent.cursor
        · next hpending =>
            cases hhear
            exact .inl ⟨hsettled.frame rfl rfl rfl rfl,
              hwaits (Bool.eq_false_of_not_eq_true hpending)⟩

/-- Why a run stops: a round too many is over, or a slot counts from the end beyond the party. -/
inductive Stops (cfg : Config) (party : List Mon) (rounds : List (List Heard)) : Raised → Prop
  | offeredSlots (h : ∀ ops ∈ rounds, IsRound cfg.animDelay ops)
      (hcount : rounds.length = cfg.offeredSlots.length + 1) : Stops cfg party rounds .offeredSlots
  | partySlot {slot : Int} (hmem : slot ∈ cfg.offeredSlots) (hlow : slot < -party.length) :
      Stops cfg party rounds .partySlot
  | tooShort {slot : Int} (hmem : slot ∈ cfg.offeredSlots) (hhigh : party.length ≤ slot) :
      Stops cfg party rounds .partySlot

theorem length_setSlot {slot : Int} {mon : Mon} {party' : List Mon}
    (h : setSlot party slot mon = some party') : party'.length = party.length := by
  unfold setSlot at h
  split at h
  all_goals
    split at h
    · cases h
      exact List.length_set
    · cases h

theorem setSlot_eq_none {slot : Int} {mon : Mon} (h : setSlot party slot mon = none) :
    slot < -party.length ∨ party.length ≤ slot := by
  unfold setSlot at h
  split at h
  · split at h
    · cases h
    · exact .inr (by omega)
  · split at h
    · cases h
    · exact .inl (by omega)

theorem length_partyAfter {slots : List Int} :
    (partyAfter slots party rounds).length = party.length := by
  have hswap : ∀ p r, (swapRound slots p r).length = p.length := by
    intro p r
    unfold swapRound
    split
    · next slot mon _ _ =>
        cases hset : setSlot p slot mon with
        | none => rfl
        | some p' => exact length_setSlot hset
    · rfl
  unfold partyAfter
  generalize rounds.zipIdx = entries
  induction entries generalizing party with
  | nil => rfl
  | cons entry rest ih => exact ih.trans (hswap party entry)

theorem Settled.commit_error {raised : Raised} (h : d.Settled cfg party rounds)
    (hround : IsRound cfg.animDelay ops) (hparty : d.hostParty = hostPartyOf ops)
    (hcommit : d.commit cfg.offeredSlots = .error raised) :
    Stops cfg party (rounds ++ [ops]) raised := by
  unfold Dance.commit at hcommit
  split at hcommit
  · next hslot =>
      cases hcommit
      refine .offeredSlots ?_ ?_
      · intro r hr
        rcases List.mem_append.mp hr with hr | hr
        · exact h.danced r hr
        · rw [List.mem_singleton.mp hr]
          exact hround
      · have hpast := List.getElem?_eq_none_iff.mp hslot
        rw [h.round] at hpast
        rw [List.length_append, List.length_singleton, Nat.le_antisymm h.bound hpast]
  · next offeredSlot hslot =>
      split at hcommit
      · cases hcommit
      · next cursor _ =>
          obtain ⟨mon, hmon⟩ := offeredMon_ok (@length_hostPartyOf ops) cursor
          rw [hparty, hmon] at hcommit
          dsimp only at hcommit
          split at hcommit
          · next hnone =>
              cases hcommit
              have hmem := List.mem_of_getElem? hslot
              have hlength : d.party.length = party.length := by rw [h.party, length_partyAfter]
              rcases setSlot_eq_none hnone with hlow | hhigh
              · exact .partySlot hmem (by omega)
              · exact .tooShort hmem (by omega)
          · cases hcommit

theorem hearParty_ok {data : Bytes} (hsized : 200 ≤ data.length) :
    ∃ d', d.hearParty data = .ok d' := by
  have hlength : ¬ (slice data 16 44).length < 20 := by
    rw [slice, List.length_drop, List.length_take]
    omega
  have hparse : ∃ lp ok, LinkPlayer.parseBlock data = some (lp, ok) := by
    unfold LinkPlayer.parseBlock LinkPlayer.unpack
    rw [if_neg hlength]
    exact ⟨_, _, rfl⟩
  obtain ⟨lp, ok, hparse⟩ := hparse
  unfold hearParty
  rw [hparse]
  cases ok with
  | true => exact ⟨_, rfl⟩
  | false =>
    dsimp only
    split
    all_goals exact ⟨_, rfl⟩

theorem Tracks.hear_error {raised : Raised} (h : d.Tracks cfg party rounds now)
    (hsized : op.Sized) (hhear : d.hear cfg op = .error raised) :
    Stops cfg party (rounds ++ [now ++ [op]]) raised := by
  obtain ⟨hsettled, hpresent⟩ := h
  cases op with
  | party data =>
    obtain ⟨d', hok⟩ := @hearParty_ok d data hsized
    rw [Dance.hear, hok] at hhear
    cases hhear
  | linkcmd heeded cmd cursor =>
    simp only [Dance.hear] at hhear
    split at hhear
    · cases hhear
    split at hhear
    · cases hhear
    split at hhear
    · next hcmd =>
        cases heeded with
        | false => cases hhear
        | true =>
          rw [if_pos rfl] at hhear
          split at hhear
          · next hfinish =>
              rw [hcmd]
              have hfinished := hpresent.finish.mp hfinish
              have hround := isRound_snoc.mpr ⟨⟨finished_snoc.mpr (.inl hfinished),
                confirmed_snoc.mpr (.inr ⟨cursor, rfl⟩)⟩, hpresent.undanced⟩
              refine hsettled.commit_error hround ?_ hhear
              rw [hostPartyOf_snoc rfl, hpresent.hostParty]
          · cases hhear
    · cases hhear
  | vblank =>
    obtain ⟨-, -, hout⟩ := hpresent.hearVblank
    simp only [Dance.hear] at hhear
    split at hhear
    · cases hhear
    · cases hhear
    · next hzero =>
        obtain ⟨hfinished, -⟩ := hout hzero
        split at hhear
        · next hpending =>
            have hround := isRound_snoc.mpr ⟨⟨hfinished,
              confirmed_snoc.mpr (.inl (hpresent.pending.mp hpending))⟩, hpresent.undanced⟩
            have hsame : Dance.Settled cfg party { d with animWait := none, finishSent := true }
                rounds := hsettled.frame rfl rfl rfl rfl
            refine hsame.commit_error hround ?_ hhear
            rw [hostPartyOf_snoc rfl]
            exact hpresent.hostParty
        · cases hhear

/-- What was heard is cut into the rounds that are over and the present one. -/
def Played (cfg : Config) (party : List Mon) (heard : List Heard) (d : Dance) : Prop :=
  ∃ rounds now, heard = rounds.flatten ++ now ∧ d.Tracks cfg party rounds now

/-- What was heard has come to where a run stops. -/
def Broken (cfg : Config) (party : List Mon) (heard : List Heard) (raised : Raised) : Prop :=
  ∃ rounds, rounds.flatten <+: heard ∧ Stops cfg party rounds raised

variable {heard : List Heard} {raised : Raised}

theorem Played.start : Played cfg party [] { party } := ⟨[], [], rfl, tracks_start⟩

theorem Played.length_hostParty (h : d.Played cfg party heard) : d.hostParty.length = 600 := by
  obtain ⟨rounds, now, -, htracks⟩ := h
  rw [htracks.present.hostParty, length_hostPartyOf]

theorem Played.hear (h : d.Played cfg party heard) (hsized : op.Sized) :
    (∀ d', d.hear cfg op = .ok d' → d'.Played cfg party (heard ++ [op])) ∧
    (∀ raised, d.hear cfg op = .error raised → Broken cfg party (heard ++ [op]) raised) := by
  obtain ⟨rounds, now, rfl, htracks⟩ := h
  have hsplit : rounds.flatten ++ now ++ [op] = (rounds ++ [now ++ [op]]).flatten := by simp
  refine ⟨fun d' hd' => ?_, fun raised hraised => ?_⟩
  · rcases htracks.hear hsized hd' with hnow | hover
    · exact ⟨rounds, now ++ [op], List.append_assoc _ _ _, hnow⟩
    · exact ⟨_, [], by rw [hsplit, List.append_nil], hover⟩
  · exact ⟨_, hsplit ▸ List.prefix_rfl, htracks.hear_error hsized hraised⟩

end Dance

end SwitchTrade.Trade

import SwitchTrade.Trade.Rounds

/-!
# What the host is given when it pulls

The blocks that the engine of `bridge/frlgsim/trade.py` sends when the host pulls them: the player's
block once, first of all in the first round, and in every round the three parts of the party as it
is in that round, in order.
-/

namespace SwitchTrade.Trade

open Chunks Rfu Pk3

/-- A pull of the host that was answered: in which round, with which party, and the answer. -/
structure Pull where
  round : Nat
  party : List Mon
  reqtype : Nat
  buf : Bytes

/-- A pull that is answered with a player or a part of a party. -/
def Pull.large (pull : Pull) (round : Nat) : Bool :=
  pull.round = round && reqSize pull.reqtype = 200

/-- A part of the party; there is nothing after the third. -/
def pair (party : List Mon) (i : Nat) : Bytes :=
  (partyBlocks (buildPlayerParty party)).getD i (List.replicate 200 0)

/-- What answers a pull before which there were some large ones in the same round. -/
def answer (cfg : Config) (pull : Pull) (before : Nat) : Bytes :=
  if pull.reqtype = blockReqSize100 then cfg.linkPlayer.buildTrainerCard
  else if reqSize pull.reqtype = 200 then
    if pull.round = 0 then
      if before = 0 then padded 200 0 (cfg.linkPlayer.buildBlock.getD [])
      else pair pull.party (before - 1)
    else pair pull.party before
  else List.replicate (reqSize pull.reqtype) 0

namespace Engine

/-- One pull, if it is answered: not while a block is sent. -/
def answered (cfg : Config) (e : Engine) (reqtype : Nat) : List Pull :=
  if e.sender.any fun s => s.state ≠ .done then []
  else
    match e.blockForSize cfg reqtype (reqSize reqtype) with
    | .error _ => []
    | .ok (_, buf) => [⟨e.round, e.party, reqtype, buf⟩]

/-- The pulls that are answered among those of a frame. -/
def pulls (cfg : Config) (e : Engine) : List Nat → List Pull
  | [] => []
  | reqtype :: rest =>
    e.answered cfg reqtype ++
      match e.onReq cfg reqtype with
      | .error _ => []
      | .ok e => e.pulls cfg rest

/-- The pulls that are answered in an event. -/
def pulled (cfg : Config) (e : Engine) : Event → List Pull
  | .feedInFrame (some positional) =>
    (e.scanFrame positional (e.rx.feedFrame positional)).pulls cfg (e.rx.feedFrame positional).reqs
  | _ => []

/-- The pulls that are answered in a run. -/
def pulledRun (cfg : Config) (e : Engine) : List Event → List Pull
  | [] => []
  | event :: rest =>
    e.pulled cfg event ++
      match e.step cfg event with
      | .error _ => []
      | .ok e => e.pulledRun cfg rest

/-! ## What is known of the pulls -/

/-- What is known of the pulls that were answered. -/
structure Supplied (cfg : Config) (pulls : List Pull) (e : Engine) : Prop where
  answers : ∀ pre pull post, pulls = pre ++ pull :: post →
    pull.buf = answer cfg pull (pre.countP fun q => q.large pull.round)
  rounds : ∀ pull ∈ pulls, pull.round ≤ e.round
  player : e.lpSent = true ↔ 0 < pulls.countP fun q => q.large 0
  sent : e.current.partySent = if e.round = 0 then (pulls.countP fun q => q.large 0) - 1
    else pulls.countP fun q => q.large e.round
  blocks : e.partyBlocks = Trade.partyBlocks (buildPlayerParty e.party)

variable {cfg : Config} {e e' : Engine} {before : List Pull}

theorem Supplied.same (h : Supplied cfg before e) (hstage : e'.stage = e.stage)
    (hround : e'.round = e.round) (hparty : e'.party = e.party) : Supplied cfg before e' := by
  have hsent : e'.lpSent = e.lpSent := congrArg Stage.lpSent hstage
  have hparts : e'.current.partySent = e.current.partySent := congrArg Stage.partySent hstage
  have hblocks : e'.partyBlocks = e.partyBlocks := congrArg Stage.partyBlocks hstage
  refine ⟨h.answers, ?_, ?_, ?_, ?_⟩
  · rw [hround]
    exact h.rounds
  · rw [hsent]
    exact h.player
  · rw [hparts, hround]
    exact h.sent
  · rw [hblocks, hparty]
    exact h.blocks

theorem Supplied.aside (h : Supplied cfg before e) (haside : Aside e e') :
    Supplied cfg before e' :=
  h.same haside.stage (congrArg Dance.round haside.dance) (congrArg Dance.party haside.dance)

/-- One more pull is answered. -/
theorem Supplied.snoc {pull : Pull} (h : Supplied cfg before e) (hround : pull.round = e.round)
    (hanswer : pull.buf = answer cfg pull (before.countP fun q => q.large pull.round))
    (hplayer : e'.lpSent = true ↔ 0 < (before ++ [pull]).countP fun q => q.large 0)
    (hsent : e'.current.partySent = if e.round = 0 then
      ((before ++ [pull]).countP fun q => q.large 0) - 1
      else (before ++ [pull]).countP fun q => q.large e.round)
    (hsame : e'.round = e.round) (hparty : e'.party = e.party)
    (hblocks : e'.partyBlocks = e.partyBlocks) : Supplied cfg (before ++ [pull]) e' := by
  refine ⟨fun pre p post hsplit => ?_, fun p hp => ?_, hplayer, by rw [hsame, hsent],
    by rw [hblocks, hparty]; exact h.blocks⟩
  · rcases post.eq_nil_or_concat with rfl | ⟨post, last, rfl⟩
    · obtain ⟨rfl, hlast⟩ := List.append_inj' hsplit rfl
      cases hlast
      exact hanswer
    · rw [List.concat_eq_append, ← List.cons_append, ← List.append_assoc] at hsplit
      exact h.answers pre p post (List.append_inj' hsplit rfl).1
  · rw [hsame]
    rcases List.mem_append.mp hp with hp | hp
    · exact h.rounds p hp
    · rw [List.mem_singleton.mp hp]
      exact Nat.le_of_eq hround

theorem countP_snoc {pull : Pull} {round : Nat} :
    ((before ++ [pull]).countP fun q => q.large round) =
      (before.countP fun q => q.large round) + if pull.large round then 1 else 0 := by
  rw [List.countP_append, List.countP_singleton]

/-- A pull that is not a large one changes nothing. -/
theorem Supplied.small {pull : Pull} (h : Supplied cfg before e) (hround : pull.round = e.round)
    (hanswer : pull.buf = answer cfg pull (before.countP fun q => q.large pull.round))
    (hsmall : reqSize pull.reqtype ≠ 200) (haside : Aside e e') :
    Supplied cfg (before ++ [pull]) e' := by
  have hcount : ∀ round, ((before ++ [pull]).countP fun q => q.large round) =
      before.countP fun q => q.large round := by
    intro round
    rw [countP_snoc, if_neg (by simp [Pull.large, hsmall]), Nat.add_zero]
  have hsame := h.aside haside
  have hrounds : e'.round = e.round := congrArg Dance.round haside.dance
  refine h.snoc hround hanswer ?_ ?_ hrounds (congrArg Dance.party haside.dance)
    (congrArg Stage.partyBlocks haside.stage)
  · rw [hcount]
    exact hsame.player
  · rw [hcount, hcount, ← hrounds]
    exact hsame.sent

/-- A pull is answered from what was answered before. -/
theorem Supplied.blockForSize {reqtype : Nat} {buf : Bytes} (h : Supplied cfg before e)
    (hblock : e.blockForSize cfg reqtype (reqSize reqtype) = .ok (e', buf)) :
    Supplied cfg (before ++ [⟨e.round, e.party, reqtype, buf⟩]) e' := by
  unfold Engine.blockForSize at hblock
  dsimp only at hblock
  split at hblock
  · next hcard =>
      cases hblock
      have hsize : reqSize reqtype = 100 := by rw [hcard]; rfl
      exact h.small rfl (by simp [answer, hcard]) (by simp [hsize]) ⟨⟨rfl, id⟩, rfl⟩
  next hcard =>
  split at hblock
  · next hsize =>
      have hmenu : Aside e e.openMenu := aside_openMenu
      have hround : e.openMenu.round = e.round := congrArg Dance.round hmenu.dance
      have hsent : e.openMenu.lpSent = e.lpSent := congrArg Stage.lpSent hmenu.stage
      have hparts : e.openMenu.current.partySent = e.current.partySent :=
        congrArg Stage.partySent hmenu.stage
      have hblocks : e.openMenu.partyBlocks = e.partyBlocks :=
        congrArg Stage.partyBlocks hmenu.stage
      have hparty : e.openMenu.party = e.party := congrArg Dance.party hmenu.dance
      have hlarge : ∀ (buf : Bytes) round, Pull.large ⟨e.round, e.party, reqtype, buf⟩ round =
          decide (e.round = round) := by
        intro buf round
        simp [Pull.large, hsize]
      split at hblock
      · -- The player, once and first.
        next hfirst =>
        rw [hround, hsent] at hfirst
        split at hblock
        · cases hblock
        next block hplayer =>
        cases hblock
        have hnone : (before.countP fun q => q.large 0) = 0 := by
          by_contra hsome
          have := h.player.mpr (Nat.pos_of_ne_zero hsome)
          rw [hfirst.2] at this
          cases this
        refine h.snoc rfl ?_ ?_ ?_ hround hparty hblocks
        · simp [answer, hcard, hsize, hfirst.1, hnone, hplayer]
        · rw [countP_snoc, if_pos (by rw [hlarge]; exact decide_eq_true hfirst.1)]
          exact iff_of_true rfl (Nat.succ_pos _)
        · have hzero := h.sent
          rw [if_pos hfirst.1, hnone] at hzero
          rw [if_pos hfirst.1, countP_snoc, if_pos (by rw [hlarge]; exact decide_eq_true hfirst.1),
            hnone]
          exact hparts.trans hzero
      · -- The next part of the party.
        next hlater =>
        rw [hround, hsent] at hlater
        cases hblock
        have hbuf : e.openMenu.partyBlocks.getD e.openMenu.current.partySent
            (List.replicate 200 0) = pair e.party e.current.partySent := by
          rw [hblocks, hparts, h.blocks]
          rfl
        refine h.snoc rfl ?_ ?_ ?_ hround hparty hblocks
        · dsimp only
          rw [hbuf, h.sent]
          by_cases hzero : e.round = 0
          · have hsome : (before.countP fun q => q.large 0) ≠ 0 := by
              intro hnone
              have hplayer : ¬ e.lpSent = true := by
                rw [h.player, hnone]
                exact Nat.lt_irrefl 0
              exact hlater ⟨hzero, Bool.eq_false_of_not_eq_true hplayer⟩
            simp [answer, hcard, hsize, hzero, hsome]
          · simp [answer, hcard, hsize, hzero]
        · dsimp only
          rw [hsent, h.player, countP_snoc, hlarge]
          by_cases hzero : e.round = 0
          · have hplayer : e.lpSent = true := by
              by_contra hnot
              exact hlater ⟨hzero, Bool.eq_false_of_not_eq_true hnot⟩
            exact iff_of_true (h.player.mp hplayer) (Nat.lt_add_right _ (h.player.mp hplayer))
          · rw [if_neg (by simp [hzero]), Nat.add_zero]
        · dsimp only
          rw [hparts, h.sent, countP_snoc, countP_snoc, hlarge, hlarge]
          by_cases hzero : e.round = 0
          · have hplayer : e.lpSent = true := by
              by_contra hnot
              exact hlater ⟨hzero, Bool.eq_false_of_not_eq_true hnot⟩
            have hpos := h.player.mp hplayer
            rw [if_pos hzero, if_pos hzero, if_pos (by simp [hzero])]
            omega
          · rw [if_neg hzero, if_neg hzero, if_pos (by simp)]
  next hsize =>
  split at hblock
  · next hhundred =>
      exfalso
      unfold reqSize at hhundred
      split_ifs at hhundred
      all_goals simp_all [blockReqSize100]
  · cases hblock
    exact h.small rfl (by simp [answer, hcard, hsize]) hsize (.refl e)

/-- One pull, answered or passed over. -/
theorem Supplied.onReq {reqtype : Nat} (h : Supplied cfg before e)
    (hreq : e.onReq cfg reqtype = .ok e') :
    Supplied cfg (before ++ e.answered cfg reqtype) e' := by
  unfold answered
  unfold Engine.onReq at hreq
  split at hreq
  · next hbusy =>
      cases hreq
      rw [if_pos hbusy, List.append_nil]
      exact h
  · next hfree =>
      rw [if_neg hfree]
      cases hblock : e.blockForSize cfg reqtype (reqSize reqtype) with
      | error raised =>
        rw [hblock] at hreq
        cases hreq
      | ok supplied =>
        rw [hblock] at hreq
        cases hreq
        exact (h.blockForSize hblock).aside (aside_beginSend supplied.2)

/-- A pull that raises is not answered. -/
theorem answered_of_raises {reqtype : Nat} {raised : Raised}
    (h : e.onReq cfg reqtype = .error raised) : e.answered cfg reqtype = [] := by
  unfold answered
  unfold Engine.onReq at h
  split at h
  · cases h
  · next hfree =>
      rw [if_neg hfree]
      cases hblock : e.blockForSize cfg reqtype (reqSize reqtype) with
      | error raised => rfl
      | ok supplied =>
        rw [hblock] at h
        cases h

/-- The pulls of a frame, up to the one that raises if there is one. -/
theorem Supplied.pulls (h : Supplied cfg before e) (reqs : List Nat) :
    ∃ e', Supplied cfg (before ++ e.pulls cfg reqs) e' ∧
      ∀ e₁, e.onReqs cfg reqs = .ok e₁ → e₁ = e' := by
  induction reqs generalizing e before with
  | nil =>
    refine ⟨e, ?_, fun e₁ hreqs => (Except.ok.inj hreqs).symm⟩
    rw [Engine.pulls, List.append_nil]
    exact h
  | cons reqtype rest ih =>
    unfold Engine.pulls
    cases hfirst : e.onReq cfg reqtype with
    | error raised =>
      refine ⟨e, ?_, ?_⟩
      · rw [answered_of_raises hfirst, List.append_nil, List.append_nil]
        exact h
      · intro e₁ hreqs
        rw [onReqs, hfirst] at hreqs
        cases hreqs
    | ok e₁ =>
      obtain ⟨e', hs, hends⟩ := ih (h.onReq hfirst)
      rw [List.append_assoc] at hs
      refine ⟨e', hs, fun e₂ hreqs => hends e₂ ?_⟩
      rw [onReqs, hfirst] at hreqs
      exact hreqs

/-! ## What a commit does to the supply -/

/-- Nothing of the supply has changed, or a new round has the party as it is now. -/
inductive Rearmed (e e' : Engine) : Prop
  | same (stage : e'.stage = e.stage) (round : e'.round = e.round) (party : e'.party = e.party)
  | next (round : e'.round = e.round + 1) (player : e'.lpSent = e.lpSent)
      (sent : e'.current.partySent = 0)
      (blocks : e'.partyBlocks = Trade.partyBlocks (buildPlayerParty e'.party))

theorem Aside.rearmed (h : Aside e e') : Rearmed e e' :=
  .same h.stage (congrArg Dance.round h.dance) (congrArg Dance.party h.dance)

theorem Supplied.rearmed (h : Supplied cfg before e) (hrearmed : Rearmed e e') :
    Supplied cfg before e' := by
  cases hrearmed with
  | same hstage hround hparty => exact h.same hstage hround hparty
  | next hround hplayer hsent hblocks =>
    refine ⟨h.answers, fun pull hp => ?_, by rw [hplayer]; exact h.player, ?_, hblocks⟩
    · rw [hround]
      exact Nat.le_succ_of_le (h.rounds pull hp)
    · have hnone : (before.countP fun q => q.large (e.round + 1)) = 0 := by
        rw [List.countP_eq_zero]
        intro pull hp hlarge
        have hle := h.rounds pull hp
        simp only [Pull.large, Bool.and_eq_true, decide_eq_true_eq] at hlarge
        omega
      rw [hsent, hround, if_neg (Nat.succ_ne_zero _), hnone]

theorem Rearmed.after {e₁ : Engine} (h : Rearmed e₁ e') (hstage : e₁.stage = e.stage)
    (hround : e₁.round = e.round) (hparty : e₁.party = e.party) : Rearmed e e' := by
  cases h with
  | same hstage' hround' hparty' =>
    exact .same (hstage'.trans hstage) (hround'.trans hround) (hparty'.trans hparty)
  | next hround' hplayer hsent hblocks =>
    exact .next (by rw [hround', hround]) (hplayer.trans (congrArg Stage.lpSent hstage)) hsent
      hblocks

theorem rearmed_commit (h : e.commit cfg = .ok e') : Rearmed e e' := by
  have hend : ∀ (e₁ : Engine) slot, e₁.round = e.round → e₁.lpSent = e.lpSent →
      Rearmed e (e₁.endRound cfg slot) := by
    intro e₁ slot hround hplayer
    rw [endRound]
    dsimp only
    split
    all_goals exact .next (congrArg (· + 1) hround) hplayer rfl rfl
  unfold commit at h
  dsimp only at h
  split at h
  · cases h
  split at h
  · cases h
    exact hend _ _ rfl rfl
  split at h
  · cases h
  split at h
  · cases h
  · cases h
    exact hend _ _ rfl rfl

theorem rearmed_advanceTimers (h : e.advanceTimers cfg = .ok e') : Rearmed e e' := by
  have hcancel : e.countCancel.stage = e.stage ∧ e.countCancel.round = e.round ∧
      e.countCancel.party = e.party := by
    unfold countCancel
    split
    all_goals exact ⟨rfl, rfl, rfl⟩
  obtain ⟨hstage, hround, hparty⟩ := hcancel
  unfold advanceTimers at h
  dsimp only at h
  split at h
  · cases h
    exact .same hstage hround hparty
  · cases h
    exact .same hstage hround hparty
  · split at h
    · exact (rearmed_commit h).after hstage hround hparty
    · cases h
      exact .same hstage hround hparty

theorem rearmed_onLinkcmd {suppress : Bool} {cmd cursor : Nat}
    (h : e.onLinkcmd cfg suppress cmd cursor = .ok e') : Rearmed e e' := by
  have hrelay : Aside e (e.notifyRemote cfg suppress cmd cursor) := aside_notifyRemote ..
  refine Rearmed.after ?_ hrelay.stage (congrArg Dance.round hrelay.dance)
    (congrArg Dance.party hrelay.dance)
  unfold onLinkcmd at h
  generalize e.notifyRemote cfg suppress cmd cursor = e at h
  dsimp only at h
  split_ifs at h
  · exact (aside_runConfirm h).rearmed.after rfl rfl rfl
  all_goals first
    | exact rearmed_commit h
    | (cases h; exact .same rfl rfl rfl)

theorem rearmed_onHostBlock {count : Nat} {data : Bytes}
    (h : e.onHostBlock cfg count data = .ok e') : Rearmed e e' := by
  unfold onHostBlock at h
  split_ifs at h
  · cases h
    exact .same rfl rfl rfl
  · exact rearmed_onLinkcmd h
  · have hmenu : Aside e e.openMenu := aside_openMenu
    refine Rearmed.after ?_ hmenu.stage (congrArg Dance.round hmenu.dance)
      (congrArg Dance.party hmenu.dance)
    unfold onHostParty at h
    generalize e.openMenu = e at h
    dsimp only at h
    split at h
    · cases h
    · cases h
      split
      all_goals exact .same rfl rfl rfl
    · split at h
      · cases h
        split
        all_goals exact .same rfl rfl rfl
      · cases h
        exact .same rfl rfl rfl
  · cases h
    exact .same rfl rfl rfl
  · cases h
    exact .same rfl rfl rfl

theorem Supplied.hostBlocks {blocks : List (Nat × Bytes)} (h : Supplied cfg before e)
    (hblocks : e.onHostBlocks cfg blocks = .ok e') : Supplied cfg before e' := by
  induction blocks generalizing e with
  | nil =>
    cases hblocks
    exact h
  | cons block rest ih =>
    unfold onHostBlocks at hblocks
    split at hblocks
    · cases hblocks
    · next hblock => exact ih (h.rearmed (rearmed_onHostBlock hblock)) hblocks

/-! ## A run -/

theorem Supplied.tick (h : Supplied cfg before e) {words : List Nat}
    (htick : e.tick cfg = .ok (e', words)) : Supplied cfg before e' := by
  have hhead := h.aside aside_tickHead
  unfold Engine.tick at htick
  split at htick
  · next hcase =>
      cases htick
      rw [hcase] at hhead
      exact hhead
  · next hcase =>
      rw [hcase] at hhead
      split at htick
      · cases htick
      · next hadvance =>
          obtain rfl := congrArg Prod.fst (Except.ok.inj htick)
          exact (hhead.rearmed (rearmed_advanceTimers hadvance)).aside aside_tickTail

/-- The pulls of an event, also of one that raises. -/
theorem Supplied.pulled (h : Supplied cfg before e) (event : Event) :
    ∃ e', Supplied cfg (before ++ e.pulled cfg event) e' := by
  have hnothing : ∃ e', Supplied cfg (before ++ []) e' := by
    rw [List.append_nil]
    exact ⟨e, h⟩
  cases event with
  | feedInFrame frame =>
    cases frame with
    | none => exact hnothing
    | some positional =>
      have hfed : Supplied cfg before { e with rx := (e.rx.feedFrame positional).rx } :=
        h.same rfl rfl rfl
      have hscans := hfed.aside (aside_scanFrame positional (e.rx.feedFrame positional))
      obtain ⟨e', hs, -⟩ := hscans.pulls (e.rx.feedFrame positional).reqs
      exact ⟨e', hs⟩
  | applyRemote msgType payload => exact hnothing
  | noteSelfSeated => exact hnothing
  | tick => exact hnothing
  | pollSendDone => exact hnothing

theorem Supplied.step {event : Event} (h : Supplied cfg before e)
    (hstep : e.step cfg event = .ok e') : Supplied cfg (before ++ e.pulled cfg event) e' := by
  have hnothing : ∀ e', Supplied cfg before e' → Supplied cfg (before ++ []) e' := by
    intro e' h'
    rw [List.append_nil]
    exact h'
  cases event with
  | feedInFrame frame =>
    cases frame with
    | none =>
      cases hstep
      exact hnothing _ h
    | some positional =>
      simp only [Engine.step, feedInFrame, receiveFrame] at hstep
      split at hstep
      · cases hstep
      next hreceive =>
      split at hstep
      · cases hstep
      next hblocks =>
      cases hstep
      have hfed : Supplied cfg before { e with rx := (e.rx.feedFrame positional).rx } :=
        h.same rfl rfl rfl
      have hscans := hfed.aside (aside_scanFrame positional (e.rx.feedFrame positional))
      obtain ⟨e₂, hs, hends⟩ := hscans.pulls (e.rx.feedFrame positional).reqs
      obtain rfl := hends _ hreceive
      exact (hs.hostBlocks hblocks).same rfl rfl rfl
  | applyRemote msgType payload =>
    simp only [Engine.step, applyRemote] at hstep
    split at hstep
    · cases hstep
      exact hnothing _ h
    · exact hnothing _ (h.rearmed (rearmed_onLinkcmd hstep))
  | noteSelfSeated =>
    cases hstep
    exact hnothing _ (h.aside aside_noteSelfSeated)
  | tick =>
    simp only [Engine.step] at hstep
    cases htick : e.tick cfg with
    | error raised =>
      rw [htick] at hstep
      cases hstep
    | ok result =>
      rw [htick] at hstep
      cases hstep
      exact hnothing _ (h.tick htick)
  | pollSendDone =>
    simp only [Engine.step, pollSendDone] at hstep
    split at hstep
    · cases hstep
    next e₁ hadvance =>
    have htimers := h.rearmed (rearmed_advanceTimers hadvance)
    split at hstep
    · cases htick : e₁.tick cfg with
      | error raised =>
        rw [htick] at hstep
        cases hstep
      | ok result =>
        rw [htick] at hstep
        cases hstep
        exact hnothing _ (htimers.tick htick)
    · cases hstep
      exact hnothing _ htimers

/-- The pulls of a run, with those of a last event that raises. -/
theorem Supplied.run (h : Supplied cfg before e) (events : List Event) :
    ∃ e', Supplied cfg (before ++ e.pulledRun cfg events) e' ∧
      ∀ e₁, e.run cfg events = .ok e₁ → e₁ = e' := by
  induction events generalizing e before with
  | nil =>
    refine ⟨e, ?_, fun e₁ hrun => (Except.ok.inj hrun).symm⟩
    rw [pulledRun, List.append_nil]
    exact h
  | cons event rest ih =>
    cases hstep : e.step cfg event with
    | error raised =>
      obtain ⟨e', hs⟩ := h.pulled event
      refine ⟨e', ?_, fun e₁ hrun => ?_⟩
      · rw [pulledRun, hstep, List.append_nil]
        exact hs
      · rw [Engine.run, hstep] at hrun
        cases hrun
    | ok e₁ =>
      obtain ⟨e', hs, hends⟩ := ih (h.step hstep)
      refine ⟨e', ?_, fun e₂ hrun => hends e₂ ?_⟩
      · rw [pulledRun, hstep, ← List.append_assoc]
        exact hs
      · rw [Engine.run, hstep] at hrun
        exact hrun

end Engine

end SwitchTrade.Trade

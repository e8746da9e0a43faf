import SwitchTrade.Trade.Dance
import SwitchTrade.Rfu.Confirmed

/-!
# The engine dances

The engine of `bridge/frlgsim/trade.py` refines the machine of rounds: whatever frames, messages
and VBlanks it is given, in whatever order, what it keeps of the trade is what that machine keeps of
what the engine heard.
-/

namespace SwitchTrade.Trade

open Chunks Rfu Pk3

namespace Engine

/-- What the engine keeps of the trade. -/
def dance (e : Engine) : Dance where
  party := e.party
  round := e.round
  receivedMons := e.receivedMons
  commits := e.commits
  hostParty := e.current.hostParty
  hostPartyBlocks := e.current.hostPartyBlocks
  hostCursor := e.current.hostCursor
  animWait := e.current.animWait
  finishSent := e.current.finishSent
  pendingConfirm := e.current.pendingConfirm

/-! ## What is heard -/

/-- What is heard in a block of the host. -/
def heardBlock (e : Engine) (count : Nat) (data : Bytes) : List Heard :=
  if count = countLinkcmd then [.linkcmd (!e.cancelled) (field data 0 2) (field data 2 4)]
  else if count = countParty then [.party data]
  else []

def heardBlocks (cfg : Config) (e : Engine) : List (Nat × Bytes) → List Heard
  | [] => []
  | (count, data) :: rest =>
    e.heardBlock count data ++
      match e.onHostBlock cfg count data with
      | .error _ => []
      | .ok e => e.heardBlocks cfg rest

/-- What is heard in an event. -/
def heard (cfg : Config) (e : Engine) : Event → List Heard
  | .feedInFrame none => []
  | .feedInFrame (some positional) =>
    match e.receiveFrame cfg positional (e.rx.feedFrame positional) with
    | .error _ => []
    | .ok e' => e'.heardBlocks cfg (hostBlocks (e.rx.feedFrame positional))
  | .applyRemote msgType payload =>
    match remoteCommand msgType payload with
    | none => []
    | some (cmd, cursor) => [.linkcmd (!e.cancelled) cmd cursor]
  | .noteSelfSeated => []
  | .tick => if e.tickHead.2.isNone then [.vblank] else []
  | .pollSendDone => [.vblank]

/-- What is heard in a run. -/
def heardRun (cfg : Config) (e : Engine) : List Event → List Heard
  | [] => []
  | event :: rest =>
    e.heard cfg event ++
      match e.step cfg event with
      | .error _ => []
      | .ok e => e.heardRun cfg rest

/-! ## What does not touch the trade -/

/-- The buffer of each peer has room for its fragments. -/
def Whole (e : Engine) : Prop := ∀ r ∈ e.rx.peers, r.buf.length = r.count * fragBytes

/-- What the engine keeps of the blocks it supplies. -/
structure Stage where
  lpSent : Bool
  partySent : Nat
  partyBlocks : List Bytes

def stage (e : Engine) : Stage := ⟨e.lpSent, e.current.partySent, e.partyBlocks⟩

/-- A move that is not of the trade. -/
structure Quiet (e e' : Engine) : Prop where
  dance : e'.dance = e.dance
  whole : e.Whole → e'.Whole

/-- A move that is not of the trade and supplies nothing. -/
structure Aside (e e' : Engine) : Prop extends Quiet e e' where
  stage : e'.stage = e.stage

theorem Quiet.trans {e e' e'' : Engine} (h : Quiet e e') (h' : Quiet e' e'') : Quiet e e'' :=
  ⟨h'.dance.trans h.dance, fun hw => h'.whole (h.whole hw)⟩

theorem Aside.refl (e : Engine) : Aside e e := ⟨⟨rfl, id⟩, rfl⟩

theorem Aside.trans {e e' e'' : Engine} (h : Aside e e') (h' : Aside e' e'') : Aside e e'' :=
  ⟨h.toQuiet.trans h'.toQuiet, h'.stage.trans h.stage⟩

variable {cfg : Config} {e e' : Engine}

theorem aside_beginSend (buf : Bytes) : Aside e (e.beginSend cfg buf) := by
  refine ⟨⟨rfl, fun h r hr => ?_⟩, rfl⟩
  rcases List.mem_or_eq_of_mem_set hr with hr | rfl
  · exact h r hr
  · rfl

theorem aside_noteSelfSeated : Aside e e.noteSelfSeated := by
  unfold noteSelfSeated
  split <;> exact ⟨⟨rfl, id⟩, rfl⟩

theorem aside_notifyRemote (suppress : Bool) (cmd cursor : Nat) :
    Aside e (e.notifyRemote cfg suppress cmd cursor) := by
  unfold notifyRemote
  split_ifs <;> exact ⟨⟨rfl, id⟩, rfl⟩

theorem cancelled_notifyRemote (suppress : Bool) (cmd cursor : Nat) :
    (e.notifyRemote cfg suppress cmd cursor).cancelled = e.cancelled := by
  unfold notifyRemote
  split_ifs <;> rfl

theorem aside_openMenu : Aside e e.openMenu := by
  unfold openMenu
  split <;> exact ⟨⟨rfl, id⟩, rfl⟩

theorem quiet_blockForSize {reqtype size : Nat} {buf : Bytes}
    (h : e.blockForSize cfg reqtype size = .ok (e', buf)) : Quiet e e' := by
  unfold blockForSize at h
  dsimp only at h
  split at h
  · cases h
    exact ⟨rfl, id⟩
  split at h
  · split at h
    · split at h
      · cases h
      · cases h
        exact aside_openMenu.toQuiet.trans ⟨rfl, id⟩
    · cases h
      exact aside_openMenu.toQuiet.trans ⟨rfl, id⟩
  split at h
  all_goals
    cases h
    exact ⟨rfl, id⟩

/-- A pull fails only if the player does not fit its block. -/
theorem blockForSize_error {reqtype size : Nat} {raised : Raised}
    (h : e.blockForSize cfg reqtype size = .error raised) :
    raised = .linkPlayer ∧ cfg.linkPlayer.buildBlock = none := by
  unfold blockForSize at h
  dsimp only at h
  split at h
  · cases h
  split at h
  · split at h
    · split at h
      · next hnone =>
          cases h
          exact ⟨rfl, hnone⟩
      · cases h
    · cases h
  split at h
  all_goals cases h

theorem quiet_onReqs {reqs : List Nat} :
    (∀ e', e.onReqs cfg reqs = .ok e' → Quiet e e') ∧
    (∀ raised, e.onReqs cfg reqs = .error raised →
      raised = .linkPlayer ∧ cfg.linkPlayer.buildBlock = none) := by
  have hreq : ∀ (e : Engine) reqtype, (∀ e', e.onReq cfg reqtype = .ok e' → Quiet e e') ∧
      (∀ raised, e.onReq cfg reqtype = .error raised →
        raised = .linkPlayer ∧ cfg.linkPlayer.buildBlock = none) := by
    intro e reqtype
    unfold onReq
    split
    · refine ⟨fun e' he => ?_, fun raised hraised => by cases hraised⟩
      cases he
      exact ⟨rfl, id⟩
    · split
      · next raised hblock =>
          refine ⟨(fun e' he => by cases he), fun r hr => ?_⟩
          cases hr
          exact blockForSize_error hblock
      · next hblock =>
          refine ⟨fun e' he => ?_, fun raised hraised => by cases hraised⟩
          cases he
          exact (quiet_blockForSize hblock).trans (aside_beginSend _).toQuiet
  induction reqs generalizing e with
  | nil =>
    refine ⟨fun e' he => ?_, fun raised hraised => by cases hraised⟩
    cases he
    exact ⟨rfl, id⟩
  | cons reqtype rest ih =>
    obtain ⟨hok, herror⟩ := hreq e reqtype
    unfold onReqs
    split
    · next raised hfirst =>
        refine ⟨(fun e' he => by cases he), fun r hr => ?_⟩
        cases hr
        exact herror _ hfirst
    · next e' hfirst =>
        have hrest := @ih e'
        exact ⟨fun e'' he => (hok e' hfirst).trans (hrest.1 e'' he), hrest.2⟩

theorem aside_seatScan (positional : List (Nat × Bytes)) : Aside e (e.seatScan positional) := by
  have hslot : ∀ (e : Engine) (slot : Bytes), Aside e (e.seatSlot slot).1 := by
    intro e slot
    unfold seatSlot
    split
    · dsimp only
      split_ifs <;> exact ⟨⟨rfl, id⟩, rfl⟩
    · exact .refl e
  induction positional generalizing e with
  | nil => exact .refl e
  | cons entry rest ih =>
    have hentry := hslot e entry.2
    unfold seatScan
    split
    · next hseat =>
        rw [hseat] at hentry
        exact hentry
    · next hseat =>
        rw [hseat] at hentry
        exact hentry.trans ih

theorem aside_scanSeat (positional : List (Nat × Bytes)) : Aside e (e.scanSeat positional) := by
  unfold scanSeat
  split
  · exact .refl e
  · exact aside_seatScan positional

theorem aside_scanExit (positional : List (Nat × Bytes)) : Aside e (e.scanExit positional) := by
  unfold scanExit
  split <;> exact ⟨⟨rfl, id⟩, rfl⟩

theorem aside_endSaveChain (reexchange : Bool) : Aside e (e.endSaveChain reexchange) := by
  unfold endSaveChain
  split <;> exact ⟨⟨rfl, id⟩, rfl⟩

/-- The scans of a frame. -/
theorem aside_scanFrame (positional : List (Nat × Bytes)) (fed : Fed) :
    Aside { e with rx := fed.rx } (e.scanFrame positional fed) := by
  have hbarrier : ∀ e : Engine, Aside e (e.scanBarrier positional) := fun _ => ⟨⟨rfl, id⟩, rfl⟩
  exact (((aside_scanSeat positional).trans (aside_scanExit positional)).trans (hbarrier _)).trans
    (aside_endSaveChain _)

/-! ## The receiver -/

/-- A block that is fed a slot as it is parsed keeps room for its fragments. -/
theorem length_feed {r : RecvBlock} {raw : Bytes} {slot : Slot}
    (h : r.buf.length = r.count * fragBytes) (hparse : parseSlot raw = some slot) :
    (r.feed slot).buf.length = (r.feed slot).count * fragBytes := by
  cases slot with
  | init count ownerRaw =>
    simp only [RecvBlock.feed, RecvBlock.onInit]
    split
    · exact List.length_replicate
    · exact h
  | block index frag =>
    have hfrag : frag.length = 12 := by
      unfold parseSlot at hparse
      dsimp only at hparse
      split_ifs at hparse
      all_goals cases hparse
      exact length_padded
    simp only [RecvBlock.feed, RecvBlock.onBlock]
    split
    · exact h
    · next hopen =>
        have hindex : index < r.count := by simp_all
        have hpiece : (frag.take fragBytes).length = fragBytes :=
          List.length_take_of_le (Nat.le_of_eq hfrag.symm)
        rw [length_splice hpiece (by rw [h]; exact end_le hindex)]
        exact h
  | req reqtype => exact h
  | other op => exact h

/-- A frame is received: the peers keep room, and the blocks are as long as their fragments. -/
theorem length_feedFrame {rx : BlockReceiver} (positional : List (Nat × Bytes))
    (h : ∀ r ∈ rx.peers, r.buf.length = r.count * fragBytes) :
    (∀ r ∈ (rx.feedFrame positional).rx.peers, r.buf.length = r.count * fragBytes) ∧
    ∀ block ∈ (rx.feedFrame positional).completed, block.2.2.length = block.2.1 * fragBytes := by
  have hslot : ∀ (fed : Fed) (entry : Nat × Bytes),
      (∀ r ∈ fed.rx.peers, r.buf.length = r.count * fragBytes) →
      (∀ block ∈ fed.completed, block.2.2.length = block.2.1 * fragBytes) →
      (∀ r ∈ (BlockReceiver.feedSlot fed entry).rx.peers, r.buf.length = r.count * fragBytes) ∧
      ∀ block ∈ (BlockReceiver.feedSlot fed entry).completed,
        block.2.2.length = block.2.1 * fragBytes := by
    intro fed entry hpeers hblocks
    unfold BlockReceiver.feedSlot
    split
    · exact ⟨hpeers, hblocks⟩
    next slot hparse =>
    split
    · exact ⟨hpeers, hblocks⟩
    dsimp only
    split
    · exact ⟨hpeers, hblocks⟩
    next peer hpeer =>
    have hfed := length_feed (hpeers peer (List.mem_of_getElem? hpeer)) hparse
    refine ⟨fun r hr => ?_, fun block hb => ?_⟩
    · rcases List.mem_or_eq_of_mem_set hr with hr | rfl
      · exact hpeers r hr
      · exact hfed
    · rcases List.mem_append.mp hb with hb | hb
      · exact hblocks block hb
      · simp only [Option.toList_map, List.mem_map, Option.mem_toList] at hb
        obtain ⟨done, hdone, rfl⟩ := hb
        unfold RecvBlock.completed at hdone
        split at hdone
        · split at hdone
          · cases hdone
            exact hfed
          · cases hdone
        · cases hdone
  have hall : ∀ (positional : List (Nat × Bytes)) (fed : Fed),
      (∀ r ∈ fed.rx.peers, r.buf.length = r.count * fragBytes) →
      (∀ block ∈ fed.completed, block.2.2.length = block.2.1 * fragBytes) →
      (∀ r ∈ (positional.foldl BlockReceiver.feedSlot fed).rx.peers,
        r.buf.length = r.count * fragBytes) ∧
      ∀ block ∈ (positional.foldl BlockReceiver.feedSlot fed).completed,
        block.2.2.length = block.2.1 * fragBytes := by
    intro positional
    induction positional with
    | nil => exact fun fed hpeers hblocks => ⟨hpeers, hblocks⟩
    | cons entry rest ih =>
      intro fed hpeers hblocks
      obtain ⟨hpeers', hblocks'⟩ := hslot fed entry hpeers hblocks
      exact ih _ hpeers' hblocks'
  exact hall positional _ h (by simp)

/-! ## VBlanks that do not touch the trade -/

theorem aside_tickSender (s : BlockSender) : Aside e (e.tickSender s).1 := by
  unfold tickSender
  dsimp only
  split_ifs <;> exact ⟨⟨rfl, id⟩, rfl⟩

theorem aside_quiescent : Aside e e.quiescent.1 := ⟨⟨rfl, id⟩, rfl⟩

theorem aside_passCancel : Aside e e.passCancel := by
  unfold passCancel
  dsimp only
  split_ifs <;> exact ⟨⟨rfl, id⟩, rfl⟩

theorem aside_tickHead : Aside e e.tickHead.1 := by
  unfold tickHead
  split
  · exact aside_tickSender _
  · dsimp only
    split_ifs
    all_goals exact aside_passCancel.trans ⟨⟨rfl, id⟩, rfl⟩

theorem aside_select : Aside e (e.select cfg) := by
  unfold select
  dsimp only
  split_ifs <;> exact ⟨⟨rfl, id⟩, rfl⟩

theorem aside_push (buf : Bytes) : Aside e (e.push cfg buf).1 := by
  have hnote : Aside e (e.notePush buf) := by
    unfold notePush
    split <;> exact ⟨⟨rfl, id⟩, rfl⟩
  have hsend : Aside (e.notePush buf) ((e.notePush buf).beginSend cfg buf) := aside_beginSend buf
  exact (hnote.trans hsend).trans ⟨⟨rfl, id⟩, rfl⟩

theorem aside_warpBeforeSeat : Aside e e.warpBeforeSeat.1 := by
  unfold warpBeforeSeat
  dsimp only
  split_ifs <;> exact ⟨⟨rfl, id⟩, rfl⟩

theorem aside_warpAfterSeat : Aside e e.warpAfterSeat.1 := by
  unfold warpAfterSeat
  split
  · exact ⟨⟨rfl, id⟩, rfl⟩
  · dsimp only
    split_ifs <;> exact ⟨⟨rfl, id⟩, rfl⟩

theorem aside_tickTail : Aside e (e.tickTail cfg).1 := by
  have hseam : Aside e e.initiateSeam := by
    unfold initiateSeam
    split <;> exact ⟨⟨rfl, id⟩, rfl⟩
  have hselect : Aside e (e.initiateSeam.select cfg) := hseam.trans aside_select
  unfold tickTail
  dsimp only
  split
  · exact hselect.trans (aside_push _)
  · split_ifs
    · exact hselect.trans aside_warpBeforeSeat
    · exact hselect.trans aside_warpAfterSeat
    · exact hselect.trans aside_quiescent

theorem aside_runConfirm (h : e.runConfirm cfg = .ok e') : Aside e e' := by
  unfold runConfirm at h
  dsimp only at h
  split at h
  · cases h
    exact .refl e
  split at h
  · cases h
    exact ⟨⟨rfl, id⟩, rfl⟩
  split at h
  · cases h
  all_goals
    cases h
    exact ⟨⟨rfl, id⟩, rfl⟩

/-- The prompt is answered, where the host's party is whole. -/
theorem runConfirm_ok (h : e.current.hostParty.length = 600) :
    ∃ e', e.runConfirm cfg = .ok e' := by
  have hverdict : ∀ e : Engine, e.current.hostParty.length = 600 →
      ∃ verdict, e.confirmVerdict cfg = .ok verdict := by
    intro e h
    have hpartner : ∃ invalid, e.partnerMonInvalid cfg = .ok invalid := by
      unfold partnerMonInvalid
      split
      · next cursor _ _ =>
          obtain ⟨mon, hmon⟩ := offeredMon_ok h cursor
          rw [hmon]
          exact ⟨_, rfl⟩
      · exact ⟨_, rfl⟩
    obtain ⟨invalid, hinvalid⟩ := hpartner
    unfold confirmVerdict
    rw [hinvalid]
    cases invalid with
    | true => exact ⟨_, rfl⟩
    | false => exact ⟨_, rfl⟩
  unfold runConfirm
  dsimp only
  split
  · exact ⟨_, rfl⟩
  split
  · exact ⟨_, rfl⟩
  · obtain ⟨verdict, hv⟩ :=
      hverdict { e with current := { e.current with confirmed := true } } h
    rw [hv]
    cases verdict with
    | bothMonsValid => exact ⟨_, rfl⟩
    | playerMonInvalid => exact ⟨_, rfl⟩
    | partnerMonInvalid => exact ⟨_, rfl⟩

/-! ## The timers and the commit -/

theorem dance_endRound (offeredSlot : Int) : (e.endRound cfg offeredSlot).dance = e.dance.next := by
  unfold endRound
  dsimp only
  split <;> rfl

theorem dance_commit : (e.commit cfg).map dance = e.dance.commit cfg.offeredSlots := by
  unfold commit Dance.commit
  dsimp only [dance]
  cases cfg.offeredSlots[e.round]? with
  | none => rfl
  | some offeredSlot =>
    cases e.current.hostCursor with
    | none => exact congrArg Except.ok (dance_endRound _)
    | some cursor =>
      dsimp only
      cases offeredMon e.current.hostParty cursor with
      | error message => rfl
      | ok received =>
        dsimp only
        cases setSlot e.party offeredSlot received with
        | none => rfl
        | some party => exact congrArg Except.ok (dance_endRound _)

/-- The timers are what a VBlank is to the trade. -/
theorem dance_advanceTimers : (e.advanceTimers cfg).map dance = e.dance.hear cfg .vblank := by
  have hcancel : e.countCancel.dance = e.dance := by
    unfold countCancel
    split <;> rfl
  rw [← hcancel]
  unfold advanceTimers Dance.hear
  dsimp only [dance]
  cases hwait : e.countCancel.current.animWait with
  | none => simp only [Except.map, dance, hwait]
  | some wait =>
    cases wait with
    | succ wait => rfl
    | zero =>
      dsimp only
      split
      · exact dance_commit
      · rfl

/-! ## What does not touch the receiver -/

theorem rx_endRound (offeredSlot : Int) : (e.endRound cfg offeredSlot).rx = e.rx := by
  unfold endRound
  dsimp only
  split <;> rfl

theorem rx_commit (h : e.commit cfg = .ok e') : e'.rx = e.rx := by
  unfold commit at h
  dsimp only at h
  split at h
  · cases h
  split at h
  · cases h
    exact rx_endRound _
  split at h
  · cases h
  split at h
  · cases h
  · cases h
    exact rx_endRound _

theorem rx_advanceTimers (h : e.advanceTimers cfg = .ok e') : e'.rx = e.rx := by
  have hcancel : e.countCancel.rx = e.rx := by
    unfold countCancel
    split <;> rfl
  rw [← hcancel]
  unfold advanceTimers at h
  dsimp only at h
  split at h
  · cases h
    rfl
  · cases h
    rfl
  · split at h
    · exact (rx_commit h).trans rfl
    · cases h
      rfl

theorem rx_onLinkcmd {suppress : Bool} {cmd cursor : Nat}
    (h : e.onLinkcmd cfg suppress cmd cursor = .ok e') : e'.rx = e.rx := by
  have hrelay : (e.notifyRemote cfg suppress cmd cursor).rx = e.rx := by
    unfold notifyRemote
    split_ifs <;> rfl
  have hconfirm : ∀ e e' : Engine, e.runConfirm cfg = .ok e' → e'.rx = e.rx := by
    intro e e' h
    unfold runConfirm at h
    dsimp only at h
    split at h
    · cases h
      rfl
    split at h
    · cases h
      rfl
    split at h
    · cases h
    all_goals
      cases h
      rfl
  rw [← hrelay]
  unfold onLinkcmd at h
  generalize e.notifyRemote cfg suppress cmd cursor = e at h
  dsimp only at h
  split_ifs at h
  · exact (hconfirm _ _ h).trans rfl
  all_goals first
    | exact rx_commit h
    | (cases h; rfl)

theorem rx_onHostBlock {count : Nat} {data : Bytes} (h : e.onHostBlock cfg count data = .ok e') :
    e'.rx = e.rx := by
  unfold onHostBlock at h
  split_ifs at h
  · cases h
    rfl
  · exact rx_onLinkcmd h
  · have hmenu : e.openMenu.rx = e.rx := by
      unfold openMenu
      split <;> rfl
    rw [← hmenu]
    unfold onHostParty at h
    generalize e.openMenu = e at h
    dsimp only at h
    split at h
    · cases h
    · cases h
      split <;> rfl
    · split at h
      · cases h
        split <;> rfl
      · cases h
        rfl
  · cases h
    rfl
  · cases h
    rfl

/-! ## Commands and blocks -/

/-- A command is what it is to the trade, where the host's party is whole. -/
theorem dance_onLinkcmd (h : e.current.hostParty.length = 600) (suppress : Bool)
    (cmd cursor : Nat) : (e.onLinkcmd cfg suppress cmd cursor).map dance =
      e.dance.hear cfg (.linkcmd (!e.cancelled) cmd cursor) := by
  have hrelay : (e.notifyRemote cfg suppress cmd cursor).dance = e.dance :=
    (aside_notifyRemote suppress cmd cursor).dance
  have hcancelled := @cancelled_notifyRemote cfg e suppress cmd cursor
  have hparty : (e.notifyRemote cfg suppress cmd cursor).current.hostParty.length = 600 := by
    rw [← show (e.notifyRemote cfg suppress cmd cursor).dance.hostParty =
      (e.notifyRemote cfg suppress cmd cursor).current.hostParty from rfl, hrelay]
    exact h
  rw [← hrelay, ← hcancelled]
  unfold onLinkcmd Dance.hear
  generalize e.notifyRemote cfg suppress cmd cursor = e at hparty
  dsimp only
  by_cases hcursor : cmd = setMonsToTrade
  · rw [if_pos hcursor, if_pos hcursor]
    split
    · obtain ⟨e', he'⟩ := @runConfirm_ok cfg
        ({ e with current := { e.current with hostCursor := some cursor } }.enter .s6Confirm) hparty
      rw [he']
      exact congrArg Except.ok (aside_runConfirm he').dance
    · rfl
  rw [if_neg hcursor, if_neg hcursor]
  by_cases hstart : cmd = startTrade
  · rw [if_pos hstart, if_pos hstart]
    cases hcancelled : e.cancelled with
    | true => rfl
    | false => rfl
  rw [if_neg hstart, if_neg hstart]
  by_cases hconfirm : cmd = confirmFinishTrade
  · rw [if_pos hconfirm, if_pos hconfirm]
    cases hcancelled : e.cancelled with
    | true => rfl
    | false =>
      rw [if_neg (show ¬ false = true by decide), if_pos (show (!false) = true by decide)]
      by_cases hfinish : e.current.finishSent = true
      · rw [if_pos hfinish, if_pos (show e.dance.finishSent = true from hfinish)]
        exact dance_commit
      · rw [if_neg hfinish, if_neg (show ¬ e.dance.finishSent = true from hfinish)]
        rfl
  rw [if_neg hconfirm, if_neg hconfirm]
  split_ifs <;> rfl

theorem dance_onHostParty (data : Bytes) :
    (e.onHostParty data).map dance = e.dance.hear cfg (.party data) := by
  have hmenu : e.openMenu.dance = e.dance := aside_openMenu.dance
  unfold Dance.hear Dance.hearParty onHostParty
  rw [← hmenu]
  generalize e.openMenu = e
  dsimp only
  cases LinkPlayer.parseBlock data with
  | none => rfl
  | some parsed =>
    obtain ⟨lp, ok⟩ := parsed
    cases ok with
    | true =>
      dsimp only
      split <;> rfl
    | false =>
      dsimp only
      by_cases hroom : e.current.hostPartyBlocks < 3
      · rw [if_pos hroom, if_pos (show e.dance.hostPartyBlocks < 3 from hroom)]
        split <;> rfl
      · rw [if_neg hroom, if_neg (show ¬ e.dance.hostPartyBlocks < 3 from hroom)]
        rfl

/-! ## A run -/

variable {party : List Mon} {played : List Heard} {raised : Raised}

/-- What an answer of the engine makes of what was played. -/
structure Continues (cfg : Config) (party : List Mon) (played : List Heard)
    (x : Except Raised Engine) : Prop where
  plays : ∀ e', x = .ok e' → e'.dance.Played cfg party played
  whole : ∀ e', x = .ok e' → e'.Whole
  raises : ∀ raised, x = .error raised →
    (raised = .linkPlayer ∧ cfg.linkPlayer.buildBlock = none) ∨
      Dance.Broken cfg party played raised

/-- What was played has come to the engine. -/
structure Stands (cfg : Config) (party : List Mon) (played : List Heard) (e : Engine) : Prop where
  plays : e.dance.Played cfg party played
  whole : e.Whole

theorem Stands.quiet (h : e.Stands cfg party played) (hquiet : Quiet e e') :
    e'.Stands cfg party played :=
  ⟨by rw [hquiet.dance]; exact h.plays, hquiet.whole h.whole⟩

theorem Stands.continues (h : e.Stands cfg party played) : Continues cfg party played (.ok e) where
  plays e' he := by
    cases he
    exact h.plays
  whole e' he := by
    cases he
    exact h.whole
  raises raised hraised := by cases hraised

theorem Continues.stands {x : Except Raised Engine} (h : Continues cfg party played x)
    (hx : x = .ok e') : e'.Stands cfg party played :=
  ⟨h.plays e' hx, h.whole e' hx⟩

theorem Stands.moves (h : e.Stands cfg party played) (hdance : e'.dance = e.dance)
    (hrx : e'.rx = e.rx) : Continues cfg party played (.ok e') :=
  (h.quiet ⟨hdance, fun hw => by rw [Whole, hrx]; exact hw⟩).continues

/-- An answer that is to the trade what it hears. -/
theorem continues_of_map {x : Except Raised Engine} {op : Heard}
    (h : e.Stands cfg party played) (hsized : op.Sized) (hrx : ∀ e', x = .ok e' → e'.rx = e.rx)
    (hmap : x.map dance = e.dance.hear cfg op) : Continues cfg party (played ++ [op]) x := by
  obtain ⟨hok, herror⟩ := h.plays.hear hsized
  refine ⟨fun e' he => ?_, fun e' he => ?_, fun raised hraised => ?_⟩
  · rw [he] at hmap
    exact hok _ hmap.symm
  · rw [Whole, hrx e' he]
    exact h.whole
  · rw [hraised] at hmap
    exact .inr (herror _ hmap.symm)

theorem continues_onHostBlock {count : Nat} {data : Bytes} (h : e.Stands cfg party played)
    (hsized : data.length = count * fragBytes) :
    Continues cfg party (played ++ e.heardBlock count data) (e.onHostBlock cfg count data) := by
  have hrx : ∀ e', e.onHostBlock cfg count data = .ok e' → e'.rx = e.rx :=
    fun e' => rx_onHostBlock
  unfold onHostBlock at hrx ⊢
  unfold heardBlock
  by_cases hlink : count = countLinkcmd
  · have hcard : ¬ (count = countTrainerCard ∧ e.entry.complete = false) := by
      rw [hlink]
      rintro ⟨hcount, -⟩
      cases hcount
    rw [if_neg hcard, if_pos hlink] at hrx ⊢
    rw [if_pos hlink]
    exact continues_of_map h trivial hrx (dance_onLinkcmd h.plays.length_hostParty _ _ _)
  rw [if_neg hlink] at hrx ⊢
  rw [if_neg hlink]
  by_cases hparty : count = countParty
  · have hcard : ¬ (count = countTrainerCard ∧ e.entry.complete = false) := by
      rw [hparty]
      rintro ⟨hcount, -⟩
      cases hcount
    rw [if_neg hcard, if_pos hparty] at hrx ⊢
    rw [if_pos hparty]
    refine continues_of_map h ?_ hrx (dance_onHostParty data)
    rw [hparty] at hsized
    exact Nat.le_trans (by decide) (Nat.le_of_eq hsized.symm)
  rw [if_neg hparty, if_neg hparty, List.append_nil]
  split_ifs
  all_goals exact h.moves rfl rfl

theorem continues_onHostBlocks {blocks : List (Nat × Bytes)} (h : e.Stands cfg party played)
    (hsized : ∀ block ∈ blocks, block.2.length = block.1 * fragBytes) :
    Continues cfg party (played ++ e.heardBlocks cfg blocks) (e.onHostBlocks cfg blocks) := by
  induction blocks generalizing e played with
  | nil =>
    rw [heardBlocks, List.append_nil]
    exact h.continues
  | cons block rest ih =>
    obtain ⟨count, data⟩ := block
    have hfirst := continues_onHostBlock h (hsized _ List.mem_cons_self)
    unfold onHostBlocks heardBlocks
    cases hblock : e.onHostBlock cfg count data with
    | ok e' =>
      rw [← List.append_assoc]
      exact ih (hfirst.stands hblock) fun b hb => hsized b (List.mem_cons_of_mem _ hb)
    | error r =>
      rw [List.append_nil]
      rw [hblock] at hfirst
      exact hfirst

theorem continues_feedInFrame {positional : List (Nat × Bytes)} (h : e.Stands cfg party played) :
    Continues cfg party (played ++ e.heard cfg (.feedInFrame (some positional)))
      (e.feedInFrame cfg (some positional)) := by
  obtain ⟨hpeers, hblocks⟩ := length_feedFrame positional h.whole
  have hfed : Stands cfg party played { e with rx := (e.rx.feedFrame positional).rx } :=
    ⟨h.plays, hpeers⟩
  have hscans := hfed.quiet (aside_scanFrame positional (e.rx.feedFrame positional)).toQuiet
  obtain ⟨hok, herror⟩ := @quiet_onReqs cfg _ (e.rx.feedFrame positional).reqs
  unfold heard feedInFrame
  dsimp only
  cases hreceive : e.receiveFrame cfg positional (e.rx.feedFrame positional) with
  | error raised =>
    refine ⟨(fun e' he => by cases he), (fun e' he => by cases he), fun r hr => ?_⟩
    cases hr
    exact .inl (herror _ hreceive)
  | ok e' =>
    have hstands := hscans.quiet (hok e' hreceive)
    have hsized : ∀ block ∈ hostBlocks (e.rx.feedFrame positional),
        block.2.length = block.1 * fragBytes := by
      intro block hb
      obtain ⟨done, hdone, rfl⟩ := List.mem_map.mp hb
      exact hblocks done (List.mem_of_mem_filter hdone)
    have hall := @continues_onHostBlocks cfg _ _ _ _ hstands hsized
    dsimp only
    cases hhost : e'.onHostBlocks cfg (hostBlocks (e.rx.feedFrame positional)) with
    | error raised =>
      rw [hhost] at hall
      exact hall
    | ok e'' => exact (hall.stands hhost).moves rfl rfl

theorem continues_advanceTimers (h : e.Stands cfg party played) :
    Continues cfg party (played ++ [.vblank]) (e.advanceTimers cfg) :=
  continues_of_map h trivial (fun _ => rx_advanceTimers) dance_advanceTimers

theorem continues_tick (h : e.Stands cfg party played) :
    Continues cfg party (played ++ e.heard cfg .tick) ((e.tick cfg).map Prod.fst) := by
  have hhead := h.quiet aside_tickHead.toQuiet
  unfold heard tick
  dsimp only
  cases hcase : e.tickHead with
  | mk e' words =>
    rw [hcase] at hhead
    cases words with
    | some words =>
      rw [if_neg (by simp), List.append_nil]
      exact hhead.continues
    | none =>
      have htimers : Continues cfg party (played ++ [.vblank]) (e'.advanceTimers cfg) :=
        continues_advanceTimers hhead
      rw [if_pos (show (e', (none : Option (List Nat))).2.isNone = true from rfl)]
      dsimp only
      cases hadvance : e'.advanceTimers cfg with
      | error raised =>
        rw [hadvance] at htimers
        exact htimers
      | ok e'' => exact ((htimers.stands hadvance).quiet aside_tickTail.toQuiet).continues

theorem continues_pollSendDone (h : e.Stands cfg party played) :
    Continues cfg party (played ++ [.vblank]) (e.pollSendDone cfg) := by
  have htimers := continues_advanceTimers h
  unfold pollSendDone
  cases hadvance : e.advanceTimers cfg with
  | error raised =>
    rw [hadvance] at htimers
    exact htimers
  | ok e' =>
    have hstands := htimers.stands hadvance
    dsimp only
    split
    · next hhold =>
        -- Only the sender is ticked.
        obtain ⟨s, hs⟩ := Option.isSome_iff_exists.mp (Option.isSome_of_any hhold)
        have htick : e'.tick cfg = .ok (e'.tickSender s) := by
          unfold tick tickHead
          rw [hs]
        rw [htick]
        exact (hstands.quiet (aside_tickSender s).toQuiet).continues
    · exact hstands.continues

/-- One event. -/
theorem continues_step (h : e.Stands cfg party played) (event : Event) :
    Continues cfg party (played ++ e.heard cfg event) (e.step cfg event) := by
  cases event with
  | feedInFrame frame =>
    cases frame with
    | none =>
      rw [heard, List.append_nil]
      exact h.continues
    | some positional => exact continues_feedInFrame h
  | applyRemote msgType payload =>
    unfold heard step applyRemote
    dsimp only
    cases remoteCommand msgType payload with
    | none =>
      rw [List.append_nil]
      exact h.continues
    | some command =>
      exact continues_of_map h trivial (fun _ => rx_onLinkcmd)
        (dance_onLinkcmd h.plays.length_hostParty _ _ _)
  | noteSelfSeated =>
    rw [heard, List.append_nil]
    exact (h.quiet aside_noteSelfSeated.toQuiet).continues
  | tick => exact continues_tick h
  | pollSendDone => exact continues_pollSendDone h

/-- A run, event by event. -/
theorem continues_run (h : e.Stands cfg party played) (events : List Event) :
    Continues cfg party (played ++ e.heardRun cfg events) (e.run cfg events) := by
  induction events generalizing e played with
  | nil =>
    rw [heardRun, List.append_nil]
    exact h.continues
  | cons event rest ih =>
    have hfirst := continues_step h event
    unfold run heardRun
    cases hstep : e.step cfg event with
    | ok e' =>
      rw [← List.append_assoc]
      exact ih (hfirst.stands hstep)
    | error raised =>
      rw [hstep] at hfirst
      rw [List.append_nil]
      exact hfirst

end Engine

/-! ## Every trade is a round -/

/-- What the checks of a new engine leave. -/
theorem newEngine_ok {cfg cfg' : Config} {party : List Mon} {tradeSlot : Int}
    {offeredSlots : Option (List Int)} {e : Engine}
    (h : newEngine cfg party tradeSlot offeredSlots = .ok (cfg', e)) :
    e.Stands cfg' party [] ∧ cfg'.offeredSlots.length = cfg'.trades ∧
      ∀ slot ∈ cfg'.offeredSlots, slot < party.length := by
  unfold newEngine at h
  split at h
  · cases h
  split at h
  · cases h
  next slots hslots =>
  split at h
  · cases h
  next hrange =>
  split at h
  · cases h
  cases h
  refine ⟨⟨Dance.Played.start, ?_⟩, ?_, ?_⟩
  · intro r hr
    rw [(List.mem_replicate.mp hr).2]
    rfl
  · unfold resolveOfferedSlots at hslots
    split at hslots
    · split_ifs at hslots with hlength
      cases hslots
      exact not_not.mp hlength
    · dsimp only at hslots
      split at hslots
      all_goals
        cases hslots
        simp
  · intro slot hslot
    by_contra hhigh
    exact hrange (List.any_eq_true.mpr ⟨slot, hslot, decide_eq_true (by omega)⟩)

/-- Whatever the engine is given, in whatever order, what it hears is cut into rounds in one way:
each is as long as it takes for the trade to be started, the animation to run out and the host to
confirm. Each round is committed, once, and brings the mon at the host's last cursor in the first
three blocks of its party; there are no more than were configured, for one more raises. -/
theorem trades_are_rounds {cfg cfg' : Config} {party : List Mon} {tradeSlot : Int}
    {offeredSlots : Option (List Int)} {e₀ : Engine}
    (h : newEngine cfg party tradeSlot offeredSlots = .ok (cfg', e₀)) (events : List Event) :
    (∀ e, e₀.run cfg' events = .ok e →
      ∃ rounds now, Cut cfg'.animDelay (e₀.heardRun cfg' events) rounds now ∧
        (∀ rounds' now', Cut cfg'.animDelay (e₀.heardRun cfg' events) rounds' now' →
          rounds' = rounds ∧ now' = now) ∧
        rounds.length ≤ cfg'.trades ∧ e.commits = rounds.length ∧ e.round = rounds.length ∧
        e.receivedMons = rounds.filterMap received ∧
        e.party = partyAfter cfg'.offeredSlots party rounds) ∧
    (∀ raised, e₀.run cfg' events = .error raised →
      (raised = .linkPlayer ∧ cfg'.linkPlayer.buildBlock = none) ∨
      (raised = .partySlot ∧ ∃ slot ∈ cfg'.offeredSlots, slot < -party.length) ∨
      (raised = .offeredSlots ∧ ∃ rounds : List (List Heard),
        rounds.flatten <+: e₀.heardRun cfg' events ∧
          (∀ ops ∈ rounds, IsRound cfg'.animDelay ops) ∧ rounds.length = cfg'.trades + 1)) := by
  obtain ⟨hstands, hlength, hslots⟩ := newEngine_ok h
  have hrun := Engine.continues_run hstands events
  refine ⟨fun e he => ?_, fun raised hraised => ?_⟩
  · obtain ⟨rounds, now, hsplit, htracks⟩ := hrun.plays e he
    rw [List.nil_append] at hsplit
    have hcut : Cut cfg'.animDelay (e₀.heardRun cfg' events) rounds now :=
      ⟨hsplit, htracks.settled.danced, htracks.present.undanced⟩
    exact ⟨rounds, now, hcut, fun rounds' now' hcut' => hcut.unique hcut',
      hlength ▸ htracks.settled.bound, htracks.settled.commits,
      htracks.settled.round, htracks.settled.mons, htracks.settled.party⟩
  · rcases hrun.raises raised hraised with hplayer | ⟨rounds, hprefix, hstops⟩
    · exact .inl hplayer
    · cases hstops with
      | offeredSlots hdanced hcount =>
        exact .inr (.inr ⟨rfl, rounds, hprefix, hdanced, by rw [hcount, hlength]⟩)
      | partySlot hmem hlow => exact .inr (.inl ⟨rfl, _, hmem, hlow⟩)
      | tooShort hmem hhigh => exact absurd (hslots _ hmem) (Int.not_lt.mpr hhigh)

/-- A party of two mons. -/
def sampleParty : List Mon :=
  [⟨List.replicate 100 1, rfl⟩, ⟨List.replicate 100 2, rfl⟩]

def sampleConfig : Config := { linkPlayer := {}, animDelay := 0, offeredSlots := [] }

/-- A frame with a command of the host. -/
def sampleCommand (cmd : Nat) : List (Nat × Bytes) :=
  let block := linkcmdBlock cmd 0
  [(0, buildSlot 0 (initWords 2 0)), (0, buildSlot 0 (sendBlockWords 0 (chunk 12 0 block))),
    (0, buildSlot 0 (sendBlockWords 1 (chunk 12 1 block)))]

/-- The remote peer selects and confirms, the host starts, and the animation runs out. -/
def sampleEvents : List Event :=
  [.applyRemote remoteTradeSelect [2], .feedInFrame (some (sampleCommand startTrade)),
    .applyRemote remoteTradeConfirm [], .tick]

theorem trades_are_rounds_early_confirm : ∃ cfg e₀,
    newEngine sampleConfig sampleParty 0 none = .ok (cfg, e₀) ∧
    ((e₀.run cfg sampleEvents).toOption.map fun e => (e.commits, e.receivedMons.length)) =
      some (1, 1) ∧
    ∀ e, e₀.run cfg sampleEvents = .ok e → ∃ rounds now,
      Cut cfg.animDelay (e₀.heardRun cfg sampleEvents) rounds now ∧ e.commits = rounds.length := by
  refine ⟨_, _, rfl, by decide +kernel, fun e he => ?_⟩
  obtain ⟨rounds, now, hcut, -, -, hcommits, -⟩ :=
    (@trades_are_rounds sampleConfig _ sampleParty 0 none _ rfl sampleEvents).1 e he
  exact ⟨rounds, now, hcut, hcommits⟩

end SwitchTrade.Trade

import SwitchTrade.Pk3.FromPk3
import SwitchTrade.Rfu.BarrierResponder
import SwitchTrade.Rfu.BlockSender
import SwitchTrade.Trade.EntryPhase
import SwitchTrade.Trade.LinkPlayer

/-!
# The trade engine

`TradeEngine` of `bridge/frlgsim/trade.py`: the state machine that plays the follower in a trade. It
is fed the frames of the host and what the remote peer did, and each VBlank it is asked for the
words of one slot, or, while the window is full, only to move its state on (`poll_send_done`). Its
log is left out. `Engine.current` holds the fields that `_reset_round_state` sets back, each with
the value it has at the start.
-/

namespace SwitchTrade.Trade

open Chunks LittleEndian Rfu Pk3

/-! ## Commands -/

def readyToTrade : Nat := 0xAABB

def setMonsToTrade : Nat := 0xDDDD

def initBlock : Nat := 0xBBBB

def startTrade : Nat := 0xCCDD

def readyFinishTrade : Nat := 0xABCD

def confirmFinishTrade : Nat := 0xDCBA

def requestCancel : Nat := 0xEEAA

def readyCancelTrade : Nat := 0xBBCC

def playerCancelTrade : Nat := 0xDDEE

def bothCancelTrade : Nat := 0xEEBB

def partnerCancelTrade : Nat := 0xEECC

/-- `REMOTE_TRADE_SELECT`. -/
def remoteTradeSelect : Nat := 1

/-- `REMOTE_TRADE_CONFIRM`. -/
def remoteTradeConfirm : Nat := 2

/-- `REMOTE_TRADE_CANCEL`. -/
def remoteTradeCancel : Nat := 3

def partySize : Nat := 6

/-- `COUNT_LINKCMD`. -/
def countLinkcmd : Nat := 2

/-- `COUNT_PARTY`. -/
def countParty : Nat := 17

/-- `COUNT_RIBBON`. -/
def countRibbon : Nat := 4

/-- `COUNT_TRAINER_CARD`. -/
def countTrainerCard : Nat := 9

/-- `SPECIES_MEW`. -/
def speciesMew : Nat := 151

/-- `SPECIES_DEOXYS`. -/
def speciesDeoxys : Nat := 410

/-- `INVALID_CANCEL_DELAY`. -/
def invalidCancelDelay : Nat := 180

/-- `BLOCK_REQ_SIZE_100`. -/
def blockReqSize100 : Nat := 2

/-- `REQ_SIZE.get(reqtype, 200)`. -/
def reqSize (reqtype : Nat) : Nat :=
  if reqtype = 2 then 100 else if reqtype = 3 then 220 else if reqtype = 4 then 40 else 200

/-- `WARP_STANDBY_EMITS`. -/
def warpStandbyEmits : Nat := 6

/-- `POST_SEAT_STANDBY_DELAY`. -/
def postSeatStandbyDelay : Nat := 20

/-- `STANDBY_REARM_GAP`. -/
def standbyRearmGap : Nat := 60

/-- `SAVE_CHAIN_TIMEOUT`. -/
def saveChainTimeout : Nat := 600

/-- `BUFFERTRADE_SETTLE`. -/
def buffertradeSettle : Nat := 600

/-- `SEND_PLAYER_IDS`. -/
def sendPlayerIds : Nat := 0x7700

/-- `SEND_HELD_KEYS`. -/
def sendHeldKeys : Nat := 0xBE00

/-- `linkcmd_block`. -/
def linkcmdBlock (cmd : Nat) (cursor : Int) : Bytes :=
  toBytes 2 (cmd % 2 ^ 16) ++ toBytes 2 (cursor % 2 ^ 16).toNat ++ List.replicate 16 0

/-! ## Parties -/

/-- `Mon.is_empty`. -/
def isEmpty (mon : Mon) : Bool := field mon.raw 0 8 = 0

/-- `Mon.species`. -/
def species (mon : Mon) : Option Nat := (decodeMon mon.raw).map Decoded.species

/-- `build_player_party` of six mons at most. -/
def buildPlayerParty (mons : List Mon) : Bytes := padded 600 0 (mons.flatMap Mon.raw)

/-- `party_blocks`. -/
def partyBlocks (party600 : Bytes) : List Bytes := (List.range 3).map fun i => chunk 200 i party600

/-- `party[slot] = mon`; none where the index is out of range. A negative one counts from the
end. -/
def setSlot (party : List Mon) (slot : Int) (mon : Mon) : Option (List Mon) :=
  if 0 ≤ slot then
    if slot.toNat < party.length then some (party.set slot.toNat mon) else none
  else if (-slot).toNat ≤ party.length then some (party.set (party.length - (-slot).toNat) mon)
  else none

/-- How a list of slots is written in a message. -/
def slotsText (slots : List Int) : String := "[" ++ ", ".intercalate (slots.map toString) ++ "]"

/-- `resolve_offered_slots(offered_slots, trade_slot, trades, party_size)`. -/
def resolveOfferedSlots (offeredSlots : Option (List Int)) (tradeSlot : Int) (trades : Nat)
    (partySize : Nat) : Except String (List Int) :=
  match offeredSlots with
  | some slots =>
    if slots.length ≠ trades then
      .error ("offered_slots must have " ++ toString trades ++ " entries, got "
        ++ toString slots.length)
    else if slots.any (· < 0) then
      .error ("offered_slots must be non-negative, got " ++ slotsText slots)
    else if ¬ slots.Nodup then
      .error ("offered_slots must be distinct (no slot re-offered), got " ++ slotsText slots)
    else .ok slots
  | none =>
    let seeded := (List.range trades).map fun (i : Nat) => tradeSlot + (i : Int)
    if seeded.any fun slot => (partySize : Int) ≤ slot then
      .ok ((List.range trades).map Int.ofNat)
    else .ok seeded

/-! ## The engine -/

/-- `S1_LINK` to `S_CANCEL`. -/
inductive TradeState where
  | s1Link
  | s4Party
  | s5Select
  | s6Confirm
  | s7Anim
  | s8Done
  | sCancel
  deriving DecidableEq, Repr

/-- What the engine is built with, and what the simulator sets before it runs. -/
structure Config where
  linkPlayer : LinkPlayer
  animDelay : Nat := 1935
  decline : Bool := false
  refusePartnerDeoxysMew : Bool := false
  trades : Nat := 1
  offeredSlots : List Int
  trustPia : Bool := false
  live : Bool := false
  leaderMode : Bool := false
  remoteHook : Bool := false
  maxEmits : Option Nat := none

/-- What `_reset_round_state` sets back. -/
structure Round where
  partySent : Nat := 0
  hostParty : Bytes := List.replicate 600 0
  hostPartyBlocks : Nat := 0
  hostCursor : Option Nat := none
  selected : Bool := false
  gotRibbons : Bool := false
  leaderLocalCancelReady : Bool := false
  btSettle : Nat := 0
  animWait : Option Nat := none
  finishSent : Bool := false
  pendingConfirm : Bool := false
  confirmed : Bool := false
  cancelWait : Option Nat := none
  barrierInitiatedMenu : Bool := false
  barrierInitiatedSeam : Bool := false
  deriving DecidableEq, Repr

/-- The standbys between the exchange of the players and the exchange of the parties. -/
structure Warp where
  barrierInitiatedWarp1 : Bool := false
  barrierInitiatedWarp2 : Bool := false
  barrierInitiatedWarp3 : Bool := false
  barrierInitiatedWarp4 : Bool := false
  warp1Emits : Nat := 0
  warp2Emits : Nat := 0
  warp3Emits : Nat := 0
  warp4Emits : Nat := 0
  warp3Regap : Nat := 0
  warp4Regap : Nat := 0
  selfSeated : Bool := false
  postSeatWait : Nat := 0
  deriving DecidableEq, Repr

structure Engine where
  party : List Mon
  tradeSlot : Int
  round : Nat := 0
  receivedMons : List Mon := []
  receivedMon : Option Mon := none
  leaving : Bool := false
  requestedCancel : Bool := false
  leftGracefully : Bool := false
  offered : List Int := []
  rx : BlockReceiver := {}
  sender : Option BlockSender := none
  state : TradeState := .s1Link
  stateHistory : List TradeState := [.s1Link]
  barrier : BarrierResponder
  entry : EntryPhase := {}
  lpSent : Bool := false
  partyBlocks : List Bytes
  hostInSeat : Bool := false
  hostReady : Bool := false
  playerIdsSeen : Bool := false
  hostLinkPlayer : Option LinkPlayer := none
  current : Round := {}
  leaderLocalReady : Bool := false
  pendingPush : Option Bytes := none
  cancelAfterSend : Bool := false
  commits : Nat := 0
  finishSentAtLastCommit : Bool := false
  done : Bool := false
  cancelled : Bool := false
  warp : Warp := {}
  saveBarriers : Bool := false
  saveSettle : Nat := 0
  cancelBarrierActive : Bool := false
  returnFieldBarrierActive : Bool := false
  postCancelOverworld : Bool := false
  hostExiting : Bool := false
  /-- The calls of `remote_hook`. -/
  relayed : List (Nat × Bytes) := []

/-- What the engine can raise. -/
inductive Raised where
  /-- `offered_slots[round]` after the last round. -/
  | offeredSlots
  /-- `party[offered_slot]`. -/
  | partySlot
  /-- `Mon` of other than 100 bytes. -/
  | partyMon
  /-- `build_block` of a player whose version does not fit. -/
  | linkPlayer
  /-- `parse_block` of too few bytes. -/
  | parseBlock
  deriving DecidableEq, Repr

/-- `TradeEngine(party, trade_slot, link_player, ...)`, with `cfg.offeredSlots` not resolved yet. -/
def newEngine (cfg : Config) (party : List Mon) (tradeSlot : Int)
    (offeredSlots : Option (List Int)) : Except String (Config × Engine) :=
  if cfg.trades < 1 ∨ 6 < cfg.trades then
    .error ("trades must be 1..6, got " ++ toString cfg.trades)
  else
    match resolveOfferedSlots offeredSlots tradeSlot cfg.trades party.length with
    | .error message => .error message
    | .ok slots =>
      if slots.any fun slot => (party.length : Int) ≤ slot then
        .error ("offered_slots " ++ slotsText slots ++ " exceed party size "
          ++ toString party.length)
      else if partySize < party.length then
        .error ("party holds at most " ++ toString partySize ++ " mons")
      else
        .ok ({ cfg with offeredSlots := slots },
          { party
            tradeSlot := slots.getD 0 0
            barrier := { maxEmits := cfg.maxEmits }
            partyBlocks := Trade.partyBlocks (buildPlayerParty party) })

namespace Engine

/-- The setter of `state`. -/
def enter (e : Engine) (state : TradeState) : Engine :=
  { e with
    state
    stateHistory :=
      if e.stateHistory.getLast? = some state then e.stateHistory else e.stateHistory ++ [state] }

/-- `established`. -/
def established (e : Engine) : Bool := e.lpSent && e.hostLinkPlayer.isSome

/-- `note_self_seated`. -/
def noteSelfSeated (e : Engine) : Engine :=
  if e.warp.selfSeated then e
  else { e with warp := { e.warp with selfSeated := true, postSeatWait := postSeatStandbyDelay } }

/-! ## A round and its end -/

/-- `_reset_round_state`. -/
def resetRoundState (e : Engine) : Engine :=
  { e with partyBlocks := Trade.partyBlocks (buildPlayerParty e.party), current := {} }

/-- `_arm_next_round`. -/
def armNextRound (cfg : Config) (e : Engine) : Engine :=
  let e := e.resetRoundState
  { e with tradeSlot := cfg.offeredSlots.getD e.round 0 }.enter .s1Link

/-- `_arm_leave_round`. -/
def armLeaveRound (e : Engine) : Engine := e.resetRoundState.enter .s1Link

/-- `_commit` from where the offered slot is given away. -/
def endRound (cfg : Config) (e : Engine) (offeredSlot : Int) : Engine :=
  let e := { e with offered := e.offered ++ [offeredSlot], round := e.round + 1 }.enter .s8Done
  let e := { e with saveBarriers := true, saveSettle := 0 }
  if e.round < cfg.trades then e.armNextRound cfg else { e with leaving := true }.armLeaveRound

/-- The mon of the host's party at its cursor. -/
def offeredMon (hostParty : Bytes) (cursor : Nat) : Except String Mon :=
  let off := cursor % partySize * partyMonSize
  Mon.new (slice hostParty off (off + partyMonSize))

/-- `_commit`. -/
def commit (cfg : Config) (e : Engine) : Except Raised Engine :=
  let e := { e with
    finishSentAtLastCommit := e.current.finishSent
    commits := e.commits + 1 }
  match cfg.offeredSlots[e.round]? with
  | none => .error .offeredSlots
  | some offeredSlot =>
    match e.current.hostCursor with
    | none => .ok (e.endRound cfg offeredSlot)
    | some cursor =>
      match offeredMon e.current.hostParty cursor with
      | .error _ => .error .partyMon
      | .ok received =>
        match setSlot e.party offeredSlot received with
        | none => .error .partySlot
        | some party =>
          .ok ({ e with
            receivedMon := some received
            receivedMons := e.receivedMons ++ [received]
            party }.endRound cfg offeredSlot)

/-- The countdown to the cancel, in `_advance_timers`. -/
def countCancel (e : Engine) : Engine :=
  match e.current.cancelWait with
  | none => e
  | some 0 =>
    { e with
      current := { e.current with cancelWait := none }
      pendingPush := some (linkcmdBlock readyCancelTrade 0) }
  | some (wait + 1) => { e with current := { e.current with cancelWait := some wait } }

/-- `_advance_timers`. -/
def advanceTimers (cfg : Config) (e : Engine) : Except Raised Engine :=
  let e := e.countCancel
  match e.current.animWait with
  | none => .ok e
  | some (wait + 1) => .ok { e with current := { e.current with animWait := some wait } }
  | some 0 =>
    let e := { e with
      current := { e.current with animWait := none, finishSent := true }
      pendingPush := some (linkcmdBlock readyFinishTrade 0) }
    if e.current.pendingConfirm then
      { e with current := { e.current with pendingConfirm := false } }.commit cfg
    else .ok e

/-! ## Validity -/

/-- `_num_other_alive`. -/
def numOtherAlive (e : Engine) (slot : Int) : Nat :=
  (e.party.zipIdx.filter fun entry => decide ((entry.2 : Int) ≠ slot) && !isEmpty entry.1).length

/-- `_is_valid_slot`. -/
def isValidSlot (e : Engine) (slot : Int) : Bool :=
  if 0 ≤ slot then
    match e.party[slot.toNat]? with
    | none => false
    | some mon => !isEmpty mon && decide (0 < e.numOtherAlive slot)
  else false

/-- `_trade_menu_live`. -/
def tradeMenuLive (cfg : Config) (e : Engine) : Bool :=
  let base := decide (3 ≤ e.current.hostPartyBlocks) && e.lpSent &&
    decide (e.partyBlocks.length ≤ e.current.partySent)
  if cfg.live then
    base && (e.current.gotRibbons || decide (buffertradeSettle ≤ e.current.btSettle))
  else base

/-- What `_confirm_verdict` returns. -/
inductive Verdict where
  | playerMonInvalid
  | bothMonsValid
  | partnerMonInvalid
  deriving DecidableEq, Repr

/-- `_partner_mon_invalid`. -/
def partnerMonInvalid (cfg : Config) (e : Engine) : Except Raised Bool :=
  match cfg.refusePartnerDeoxysMew, e.current.hostCursor with
  | true, some cursor =>
    match offeredMon e.current.hostParty cursor with
    | .error _ => .error .partyMon
    | .ok mon => .ok (decide (species mon = some speciesMew ∨ species mon = some speciesDeoxys))
  | _, _ => .ok false

/-- `_confirm_verdict`. -/
def confirmVerdict (cfg : Config) (e : Engine) : Except Raised Verdict :=
  match e.partnerMonInvalid cfg with
  | .error raised => .error raised
  | .ok true => .ok .partnerMonInvalid
  | .ok false =>
    .ok (if e.numOtherAlive e.tradeSlot = 0 then .playerMonInvalid else .bothMonsValid)

/-- `_run_confirm`. -/
def runConfirm (cfg : Config) (e : Engine) : Except Raised Engine :=
  if e.current.confirmed then .ok e
  else
    let e := { e with current := { e.current with confirmed := true } }
    if cfg.decline then
      .ok { e with pendingPush := some (linkcmdBlock readyCancelTrade 0), cancelled := true }
    else
      match e.confirmVerdict cfg with
      | .error raised => .error raised
      | .ok .bothMonsValid => .ok { e with pendingPush := some (linkcmdBlock initBlock 0) }
      | .ok _ =>
        .ok { e with
          current := { e.current with cancelWait := some invalidCancelDelay }
          cancelled := true }

/-! ## Commands of the host -/

/-- `_notify_remote`. -/
def notifyRemote (cfg : Config) (e : Engine) (suppress : Bool) (cmd cursor : Nat) : Engine :=
  let relay (msgType : Nat) (payload : Bytes) : Engine :=
    { e with relayed := e.relayed ++ [(msgType, payload)] }
  if !cfg.remoteHook || suppress then e
  else if cmd = setMonsToTrade then relay remoteTradeSelect [UInt8.ofNat (cursor % partySize)]
  else if cmd = confirmFinishTrade then relay remoteTradeConfirm []
  else if cmd = playerCancelTrade ∨ cmd = bothCancelTrade ∨ cmd = partnerCancelTrade then
    relay remoteTradeCancel []
  else e

/-- `_on_linkcmd`; `suppress` is `_remote_suppress`. -/
def onLinkcmd (cfg : Config) (e : Engine) (suppress : Bool) (cmd cursor : Nat) :
    Except Raised Engine :=
  let e := e.notifyRemote cfg suppress cmd cursor
  if cmd = setMonsToTrade then
    let e := { e with current := { e.current with hostCursor := some cursor } }
    if e.state = .s5Select ∨ e.state = .s4Party then (e.enter .s6Confirm).runConfirm cfg
    else .ok e
  else if cmd = startTrade then
    if e.cancelled then .ok e
    else
      let e := e.enter .s7Anim
      .ok { e with current := { e.current with animWait := some cfg.animDelay } }
  else if cmd = confirmFinishTrade then
    if e.cancelled then .ok e
    else if e.current.finishSent then e.commit cfg
    else .ok { e with current := { e.current with pendingConfirm := true } }
  else if cmd = bothCancelTrade ∨ cmd = playerCancelTrade ∨ cmd = partnerCancelTrade then
    let e := { e.enter .sCancel with cancelled := true }
    let e := if e.requestedCancel then { e with leftGracefully := true } else e
    if cmd = bothCancelTrade then
      .ok { e with cancelBarrierActive := true, barrier := e.barrier.initiate .standby }
    else .ok { e with done := true }
  else .ok e

/-- The command that `apply_remote` makes of a message of the remote peer. -/
def remoteCommand (msgType : Nat) (payload : Bytes) : Option (Nat × Nat) :=
  if msgType = remoteTradeSelect then some (setMonsToTrade, (payload.getD 0 0).toNat)
  else if msgType = remoteTradeConfirm then some (confirmFinishTrade, 0)
  else if msgType = remoteTradeCancel then some (playerCancelTrade, 0)
  else none

/-- `apply_remote`. -/
def applyRemote (cfg : Config) (e : Engine) (msgType : Nat) (payload : Bytes) :
    Except Raised Engine :=
  match remoteCommand msgType payload with
  | none => .ok e
  | some (cmd, cursor) => e.onLinkcmd cfg true cmd cursor

/-! ## Blocks -/

/-- The sender of a block. -/
def newSender (cfg : Config) (buf : Bytes) : BlockSender :=
  BlockSender.new buf (if cfg.leaderMode then 0 else 1) (cfg.leaderMode || cfg.trustPia)

/-- `_begin_send`. -/
def beginSend (cfg : Config) (e : Engine) (buf : Bytes) : Engine :=
  { e with
    rx := { e.rx with peers := e.rx.peers.set 1 {} }
    sender := some (newSender cfg buf) }

/-- The trade menu opens, once the host is in its seat. -/
def openMenu (e : Engine) : Engine :=
  if e.hostInSeat then { e with entry := e.entry.onTradeMenuOpen } else e

/-- `_block_for_size`. -/
def blockForSize (cfg : Config) (e : Engine) (reqtype size : Nat) :
    Except Raised (Engine × Bytes) :=
  if reqtype = blockReqSize100 then
    .ok ({ e with entry := e.entry.onCardReq.onCardSupplied }, cfg.linkPlayer.buildTrainerCard)
  else if size = 200 then
    let e := e.openMenu
    if e.round = 0 ∧ e.lpSent = false then
      match cfg.linkPlayer.buildBlock with
      | none => .error .linkPlayer
      | some block => .ok ({ e with lpSent := true }, padded 200 0 block)
    else
      let i := e.current.partySent
      .ok ({ e with current := { e.current with partySent := i + 1 } },
        e.partyBlocks.getD i (List.replicate 200 0))
  else if size = 100 then .ok (e, cfg.linkPlayer.buildTrainerCard)
  else .ok (e, List.replicate size 0)

/-- `_on_req`. -/
def onReq (cfg : Config) (e : Engine) (reqtype : Nat) : Except Raised Engine :=
  if e.sender.any fun s => s.state ≠ .done then .ok e
  else
    match e.blockForSize cfg reqtype (reqSize reqtype) with
    | .error raised => .error raised
    | .ok (e, buf) => .ok (e.beginSend cfg buf)

/-- A block of the players or of the party, in `_on_host_block`. -/
def onHostParty (e : Engine) (data : Bytes) : Except Raised Engine :=
  let e := e.openMenu
  match LinkPlayer.parseBlock data with
  | none => .error .parseBlock
  | some (lp, true) =>
    .ok (if e.hostLinkPlayer.isNone then { e with hostLinkPlayer := some lp } else e)
  | some (_, false) =>
    if e.current.hostPartyBlocks < 3 then
      let e := { e with current := { e.current with
        hostParty := splice 200 e.current.hostPartyBlocks (data.take 200) e.current.hostParty
        hostPartyBlocks := e.current.hostPartyBlocks + 1 } }
      .ok (if e.current.hostPartyBlocks = 3 ∧ e.state = .s1Link then e.enter .s4Party else e)
    else .ok e

/-- `_on_host_block`. -/
def onHostBlock (cfg : Config) (e : Engine) (count : Nat) (data : Bytes) : Except Raised Engine :=
  if count = countTrainerCard ∧ e.entry.complete = false then
    .ok { e with entry := e.entry.onHostCard data }
  else if count = countLinkcmd then e.onLinkcmd cfg false (field data 0 2) (field data 2 4)
  else if count = countParty then e.onHostParty data
  else if count = countRibbon then
    .ok { e with current := { e.current with gotRibbons := true } }
  else .ok e

/-! ## Frames -/

/-- What the seat scan of `feed_in_frame` does at a slot, and whether it stops there. -/
def seatSlot (e : Engine) (slot : Bytes) : Engine × Bool :=
  match parseSlot slot with
  | some (.other op) =>
    if op = sendPlayerIds then ({ e with playerIdsSeen := true }, false)
    else if op = sendHeldKeys then
      let e :=
        if e.hostInSeat then e
        else { e with
          hostInSeat := true
          entry := e.entry.onSeatReached
          barrier := e.barrier.resetToIdle }
      if wordAt slot 1 &&& 0xFF = 0x16 then ({ e with hostReady := true }, true) else (e, false)
    else (e, false)
  | _ => (e, false)

/-- The seat scan of `feed_in_frame`. -/
def seatScan (e : Engine) : List (Nat × Bytes) → Engine
  | [] => e
  | (_, slot) :: rest =>
    match e.seatSlot slot with
    | (e, true) => e
    | (e, false) => e.seatScan rest

/-- Whether a slot tells that the host leaves the room. -/
def exitSlot (slot : Bytes) : Bool :=
  parseSlot slot = some (.other sendHeldKeys) && wordAt slot 1 &&& 0xFF = 0x17

/-- What `on_in_slot` reads of a slot with a barrier operation. -/
def barrierSlot (slot : Bytes) : Option InSlot :=
  match parseSlot slot with
  | some (.other op) =>
    if op = readyExitStandby ∨ op = readyCloseLink then some ⟨some op, some (wordAt slot 1)⟩
    else none
  | _ => none

/-- `_host_barrier_in_frame`. -/
def hostBarrierInFrame (positional : List (Nat × Bytes)) : Option InSlot :=
  (positional.filter fun entry => entry.1 ≠ 1).findSome? fun entry => barrierSlot entry.2

/-- The seat scan, until the host is ready. -/
def scanSeat (e : Engine) (positional : List (Nat × Bytes)) : Engine :=
  if e.hostReady then e else e.seatScan positional

/-- The scan of `feed_in_frame` for the host leaving the room. -/
def scanExit (e : Engine) (positional : List (Nat × Bytes)) : Engine :=
  if e.postCancelOverworld && !e.hostExiting && positional.any fun entry => exitSlot entry.2 then
    { e with hostExiting := true }
  else e

/-- The scan of `feed_in_frame` for a barrier. -/
def scanBarrier (e : Engine) (positional : List (Nat × Bytes)) : Engine :=
  let hostSlot := hostBarrierInFrame positional
  { e with
    barrier := (e.barrier.onInSlot hostSlot).1.observeFrame hostSlot.isSome
    saveSettle :=
      if e.saveBarriers then if hostSlot.isSome then 0 else e.saveSettle + 1 else e.saveSettle }

/-- The blocks of the host among those that a frame completed. -/
def hostBlocks (fed : Fed) : List (Nat × Bytes) :=
  (fed.completed.filter fun block => block.1 = 0).map Prod.snd

def onReqs (cfg : Config) (e : Engine) : List Nat → Except Raised Engine
  | [] => .ok e
  | reqtype :: rest =>
    match e.onReq cfg reqtype with
    | .error raised => .error raised
    | .ok e => e.onReqs cfg rest

def onHostBlocks (cfg : Config) (e : Engine) : List (Nat × Bytes) → Except Raised Engine
  | [] => .ok e
  | (count, data) :: rest =>
    match e.onHostBlock cfg count data with
    | .error raised => .error raised
    | .ok e => e.onHostBlocks cfg rest

/-- The end of the save chain by a host that pulls or sends a block. -/
def endSaveChain (e : Engine) (reexchange : Bool) : Engine :=
  if e.saveBarriers && reexchange then
    { e with saveBarriers := false, barrier := e.barrier.resetToIdle }
  else e

/-- `host_reexchange`. -/
def reexchange (fed : Fed) : Bool := !fed.reqs.isEmpty || !(hostBlocks fed).isEmpty

/-- `feed_in_frame` up to the pulls of the host. -/
def scanFrame (e : Engine) (positional : List (Nat × Bytes)) (fed : Fed) : Engine :=
  ((({ e with rx := fed.rx }.scanSeat positional).scanExit positional).scanBarrier
    positional).endSaveChain (reexchange fed)

/-- `feed_in_frame` up to the blocks of the host. -/
def receiveFrame (cfg : Config) (e : Engine) (positional : List (Nat × Bytes)) (fed : Fed) :
    Except Raised Engine :=
  (e.scanFrame positional fed).onReqs cfg fed.reqs

/-- `feed_in_frame`, where the frame is none or its slots by player. -/
def feedInFrame (cfg : Config) (e : Engine) (frame : Option (List (Nat × Bytes))) :
    Except Raised Engine :=
  match frame with
  | none => .ok e
  | some positional =>
    let fed := e.rx.feedFrame positional
    match e.receiveFrame cfg positional fed with
    | .error raised => .error raised
    | .ok e =>
      match e.onHostBlocks cfg (hostBlocks fed) with
      | .error raised => .error raised
      | .ok e =>
        .ok { e with current := { e.current with
          btSettle := if reexchange fed then 0 else e.current.btSettle + 1 } }

/-! ## VBlanks -/

/-- The block that is being sent, in `tick`. -/
def tickSender (e : Engine) (s : BlockSender) : Engine × List Nat :=
  let (s, words) := s.tick (e.rx.peers[1]?)
  let e := { e with sender := if s.state = .done then none else some s }
  if s.state = .done && e.cancelAfterSend && !e.done then
    let e := { e with cancelAfterSend := false }.enter .sCancel
    (if e.leaving then e else { e with done := true }, words)
  else (e, words)

/-- The words of a responder that has the slot. -/
def quiescent (e : Engine) : Engine × List Nat :=
  let (barrier, words) := e.barrier.wantEmit
  ({ e with barrier }, words.getD idleWords)

/-- Whether the responder is `active`. -/
def barrierActive (e : Engine) : Bool := e.barrier.mode ≠ .idle

/-- The standbys (d) and (e) of a cancel, in `tick`: they have the slot while they last. -/
def passCancel (e : Engine) : Engine :=
  let e :=
    if e.cancelBarrierActive && !e.barrierActive then
      { e with
        cancelBarrierActive := false
        returnFieldBarrierActive := true
        barrier := e.barrier.initiate .standby }
    else e
  if e.returnFieldBarrierActive && !e.barrierActive then
    { e with returnFieldBarrierActive := false, done := true, postCancelOverworld := true }
  else e

/-- What `tick` does before the timers: the engine and the words of the slot if they are settled. -/
def tickHead (e : Engine) : Engine × Option (List Nat) :=
  match e.sender with
  | some s =>
    let (e, words) := e.tickSender s
    (e, some words)
  | none =>
    let e := e.passCancel
    if (e.cancelBarrierActive || e.returnFieldBarrierActive || e.postCancelOverworld) &&
        e.barrierActive then
      let (e, words) := e.quiescent
      (e, some words)
    else if e.saveBarriers then
      if !e.barrierActive && decide (saveChainTimeout < e.saveSettle) then
        ({ e with saveBarriers := false }, none)
      else
        let (e, words) := e.quiescent
        (e, some words)
    else (e, none)

/-- The selection in `tick`, at the live menu. -/
def select (cfg : Config) (e : Engine) : Engine :=
  if !e.current.selected && e.state = .s4Party && e.tradeMenuLive cfg && e.pendingPush.isNone then
    let e := { e with
      current := { e.current with selected := true }
      entry := e.entry.onTradeMenuLive }
    if e.leaving then
      if cfg.leaderMode then
        { e with current := { e.current with leaderLocalCancelReady := true } }
      else
        { e with
          pendingPush := some (linkcmdBlock requestCancel 0)
          requestedCancel := true
          cancelled := true }
    else if e.isValidSlot e.tradeSlot then
      let e := e.enter .s5Select
      if cfg.leaderMode then { e with leaderLocalReady := true }
      else { e with pendingPush := some (linkcmdBlock readyToTrade e.tradeSlot) }
    else
      { e.enter .s5Select with
        pendingPush := some (linkcmdBlock requestCancel 0)
        requestedCancel := true
        cancelled := true }
  else e

/-- What `tick` notes of a block that is pushed: whether it cancels. -/
def notePush (e : Engine) (buf : Bytes) : Engine :=
  if field buf 0 2 = requestCancel ∨ field buf 0 2 = readyCancelTrade then
    { e with pendingPush := none, cancelAfterSend := true, cancelled := true }
  else { e with pendingPush := none }

/-- A pending push is begun, in `tick`. -/
def push (cfg : Config) (e : Engine) (buf : Bytes) : Engine × List Nat :=
  let e := (e.notePush buf).beginSend cfg buf
  let (s, words) := (newSender cfg buf).tick (e.rx.peers[1]?)
  ({ e with sender := some s }, words)

/-- `_sustain_standby`: the emits, the gap and the words. -/
def sustainStandby (count emits regap : Nat) : Nat × Nat × List Nat :=
  if emits < warpStandbyEmits then (emits + 1, 0, exitStandbyWords count)
  else if standbyRearmGap ≤ regap + 1 then (0, 0, idleWords)
  else (emits, regap + 1, idleWords)

/-- The standbys before the seat, in `tick`. -/
def warpBeforeSeat (e : Engine) : Engine × List Nat :=
  if e.entry.cardSupplied = false then
    let w := { e.warp with barrierInitiatedWarp1 := true }
    if w.warp1Emits < warpStandbyEmits then
      ({ e with warp := { w with warp1Emits := w.warp1Emits + 1 } }, exitStandbyWords 0)
    else ({ e with warp := w }, idleWords)
  else
    let w := { e.warp with barrierInitiatedWarp2 := true }
    if w.warp2Emits < warpStandbyEmits then
      ({ e with warp := { w with warp2Emits := w.warp2Emits + 1 } }, exitStandbyWords 1)
    else ({ e with warp := w }, idleWords)

/-- The standbys after the seat, in `tick`. -/
def warpAfterSeat (e : Engine) : Engine × List Nat :=
  match e.warp.postSeatWait with
  | wait + 1 => ({ e with warp := { e.warp with postSeatWait := wait } }, idleWords)
  | 0 =>
    let hc := e.barrier.hostCount.getD 0
    if hc < 2 then
      let (emits, regap, words) := sustainStandby 2 e.warp.warp3Emits e.warp.warp3Regap
      ({ e with warp := { e.warp with
        barrierInitiatedWarp3 := true, warp3Emits := emits, warp3Regap := regap } }, words)
    else if hc < 3 then
      let (emits, regap, words) := sustainStandby 3 e.warp.warp4Emits e.warp.warp4Regap
      ({ e with warp := { e.warp with
        barrierInitiatedWarp4 := true, warp4Emits := emits, warp4Regap := regap } }, words)
    else (e, idleWords)

/-- The standby (b), in `tick`. -/
def initiateSeam (e : Engine) : Engine :=
  if e.current.animWait.isSome && !e.current.barrierInitiatedSeam then
    { e with
      current := { e.current with barrierInitiatedSeam := true }
      barrier := e.barrier.initiate .standby }
  else e

/-- What `tick` does after the timers. -/
def tickTail (cfg : Config) (e : Engine) : Engine × List Nat :=
  let e := e.initiateSeam.select cfg
  match e.pendingPush with
  | some buf => e.push cfg buf
  | none =>
    if e.established && !e.hostInSeat then e.warpBeforeSeat
    else if e.established && e.warp.selfSeated && !e.entry.seatPhaseOver then e.warpAfterSeat
    else e.quiescent

/-- `tick`. -/
def tick (cfg : Config) (e : Engine) : Except Raised (Engine × List Nat) :=
  match e.tickHead with
  | (e, some words) => .ok (e, words)
  | (e, none) =>
    match e.advanceTimers cfg with
    | .error raised => .error raised
    | .ok e => .ok (e.tickTail cfg)

/-- `poll_send_done`. -/
def pollSendDone (cfg : Config) (e : Engine) : Except Raised Engine :=
  match e.advanceTimers cfg with
  | .error raised => .error raised
  | .ok e =>
    if e.sender.any fun s => s.state = .hold then (e.tick cfg).map Prod.fst else .ok e

end Engine

/-! ## Runs -/

/-- What happens to the engine. -/
inductive Event where
  | feedInFrame (frame : Option (List (Nat × Bytes)))
  | applyRemote (msgType : Nat) (payload : Bytes)
  | noteSelfSeated
  | tick
  | pollSendDone

namespace Engine

def step (cfg : Config) (e : Engine) : Event → Except Raised Engine
  | .feedInFrame frame => e.feedInFrame cfg frame
  | .applyRemote msgType payload => e.applyRemote cfg msgType payload
  | .noteSelfSeated => .ok e.noteSelfSeated
  | .tick => (e.tick cfg).map Prod.fst
  | .pollSendDone => e.pollSendDone cfg

def run (cfg : Config) (e : Engine) : List Event → Except Raised Engine
  | [] => .ok e
  | event :: rest =>
    match e.step cfg event with
    | .error raised => .error raised
    | .ok e => e.run cfg rest

end Engine

end SwitchTrade.Trade

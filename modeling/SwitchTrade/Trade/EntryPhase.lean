import SwitchTrade.Rfu.Slot

/-!
# The entry phases

`EntryPhase` of `bridge/frlgsim/trade.py`: from the union room to the trade menu. `advanceTo` only
ever goes to a later phase, and enters each one that is passed over on the way in the history.
-/

namespace SwitchTrade.Trade

open Rfu

inductive Phase where
  | warpQuiesce1
  | cardExchange
  | seatBarrier
  | warpQuiesce2
  | tradeMenu
  | inTrade
  deriving DecidableEq, Repr

/-- `ENTRY_PHASES`. -/
def entryPhases : List Phase :=
  [.warpQuiesce1, .cardExchange, .seatBarrier, .warpQuiesce2, .tradeMenu, .inTrade]

/-- `ENTRY_PHASES.index`. -/
def Phase.index (phase : Phase) : Nat := entryPhases.idxOf phase

structure EntryPhase where
  phase : Phase := .warpQuiesce1
  phaseHistory : List Phase := [.warpQuiesce1]
  cardPulled : Bool := false
  cardSupplied : Bool := false
  hostCard : Option Bytes := none
  seatPhaseOver : Bool := false
  complete : Bool := false
  deriving DecidableEq, Repr

namespace EntryPhase

/-- `_advance_to`. -/
def advanceTo (p : EntryPhase) (phase : Phase) : EntryPhase :=
  if phase.index ≤ p.phase.index then p
  else
    { p with
      phase := phase
      phaseHistory :=
        p.phaseHistory ++ (entryPhases.take (phase.index + 1)).drop (p.phase.index + 1)
      seatPhaseOver := p.seatPhaseOver || Phase.tradeMenu.index ≤ phase.index
      complete := p.complete || phase = .inTrade }

/-- `on_card_req`. -/
def onCardReq (p : EntryPhase) : EntryPhase :=
  if p.complete then p else { p with cardPulled := true }.advanceTo .cardExchange

/-- `on_card_supplied`. -/
def onCardSupplied (p : EntryPhase) : EntryPhase :=
  if p.complete then p else { p with cardSupplied := true }

/-- `on_host_card`. -/
def onHostCard (p : EntryPhase) (data100 : Bytes) : EntryPhase :=
  if p.complete then p
  else { p with hostCard := some (data100.take 100) }.advanceTo .cardExchange

/-- `on_seat_reached`. -/
def onSeatReached (p : EntryPhase) : EntryPhase :=
  if p.complete then p else p.advanceTo .seatBarrier

/-- `on_trade_menu_open`. -/
def onTradeMenuOpen (p : EntryPhase) : EntryPhase := p.advanceTo .tradeMenu

/-- `on_trade_menu_live`. -/
def onTradeMenuLive (p : EntryPhase) : EntryPhase := p.advanceTo .inTrade

end EntryPhase

end SwitchTrade.Trade

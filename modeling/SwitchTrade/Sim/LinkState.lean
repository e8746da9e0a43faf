import SwitchTrade.Rfu.Slot

/-!
# The keys held in the seat

`LinkState` of `bridge/frlgsim/linkstate.py`: in the overworld and in the seat every slot that would
be idle carries a key. The key is the one that keeps the link alive, but for the two that are sent
once: the one of sitting down and the one of leaving the room. What the model leaves out is the
mirror of the own link state, which is read by tests only, and `host_exiting`, which nothing calls.
-/

namespace SwitchTrade.Sim

/-- `LINK_KEY_CODE_EMPTY`. -/
def linkKeyCodeEmpty : Nat := 0x11

/-- `LINK_KEY_CODE_READY`. -/
def linkKeyCodeReady : Nat := 0x16

/-- `LINK_KEY_CODE_EXIT_ROOM`. -/
def linkKeyCodeExitRoom : Nat := 0x17

/-- `PRE_SEAT` to `SEND_NOTHING`. -/
inductive SeatState where
  | preSeat
  | seated
  | exiting
  | sendNothing
  deriving DecidableEq, Repr

structure LinkState where
  state : SeatState := .preSeat
  heldKeyCount : Nat := 0
  pendingOnce : Option Nat := none
  seated : Bool := false
  exiting : Bool := false
  deriving DecidableEq, Repr

namespace LinkState

/-- `sit`. -/
def sit (l : LinkState) : LinkState :=
  if l.seated then l else { l with seated := true, pendingOnce := some linkKeyCodeReady }

/-- `exit`. -/
def exit (l : LinkState) : LinkState :=
  if l.exiting then l
  else { l with exiting := true, pendingOnce := some linkKeyCodeExitRoom, state := .exiting }

/-- `_emit`. -/
def emit (l : LinkState) (keycode : Nat) : LinkState × List Nat :=
  let count := (l.heldKeyCount + 1) &&& 0xFF
  ({ l with heldKeyCount := count },
    [0xBE00, ((count &&& 0xFF) <<< 8) ||| (keycode &&& 0xFF), 0, 0, 0, 0, 0])

/-- `tick`. -/
def tick (l : LinkState) : LinkState × List Nat :=
  match l.pendingOnce with
  | some key =>
    emit { l with
      pendingOnce := none
      state := if key = linkKeyCodeReady then .seated else l.state } key
  | none => l.emit linkKeyCodeEmpty

/-- The key a tick sends. -/
def key (l : LinkState) : Nat := l.pendingOnce.getD linkKeyCodeEmpty

theorem tick_words (l : LinkState) :
    l.tick.2 = (l.emit l.key).2 ∧ l.tick.1.heldKeyCount = (l.heldKeyCount + 1) &&& 0xFF := by
  unfold tick key
  cases l.pendingOnce with
  | none => exact ⟨rfl, rfl⟩
  | some key => exact ⟨rfl, rfl⟩

theorem tick_head (l : LinkState) : l.tick.2.headD 0 = 0xBE00 := by
  rw [l.tick_words.1]
  rfl

end LinkState

end SwitchTrade.Sim

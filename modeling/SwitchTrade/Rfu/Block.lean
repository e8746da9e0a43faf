import SwitchTrade.Rfu.Slot
import Mathlib.Data.List.ReduceOption

/-!
# The reassembly of blocks

`RecvBlock` and `BlockReceiver` of `bridge/frlgsim/block.py`: the fragments that arrived are a
bit mask, and each is written into its place in a buffer.
-/

namespace SwitchTrade.Rfu

open Chunks

/-- `FRAG_BYTES`. -/
def fragBytes : Nat := 12

/-- `frag_count`. -/
def fragCount (nbytes : Nat) : Nat := max 1 ((nbytes + (fragBytes - 1)) / fragBytes)

/-- `all_received_mask`. -/
def allReceivedMask (count : Nat) : Nat := (1 <<< count) - 1

/-! ## One peer -/

structure RecvBlock where
  count : Nat := 0
  owner : Option Nat := none
  flags : Nat := 0
  buf : Bytes := []
  receiving : Bool := false
  done : Bool := false
  lastIndex : Int := -1
  epochs : Nat := 0
  deriving DecidableEq, Repr

namespace RecvBlock

/-- `on_init`. -/
def onInit (r : RecvBlock) (count : Nat) (owner : Option Nat) : RecvBlock :=
  if !r.receiving || r.done || count ≠ r.count then
    { count := count
      owner := owner
      flags := 0
      buf := List.replicate (count * fragBytes) 0
      receiving := true
      done := false
      lastIndex := -1
      epochs := r.epochs + 1 }
  else r

/-- `on_block`. -/
def onBlock (r : RecvBlock) (index : Nat) (frag12 : Bytes) : RecvBlock :=
  if !r.receiving || !(index < r.count) then r
  else
    let flags := r.flags ||| (1 <<< index)
    { r with
      lastIndex := index
      flags := flags
      buf := splice fragBytes index (frag12.take fragBytes) r.buf
      done := if flags = allReceivedMask r.count then true else r.done }

/-- What one slot does to the peer it is of. -/
def feed (r : RecvBlock) : Slot → RecvBlock
  | .init count ownerRaw => r.onInit count (some ownerRaw)
  | .block index frag => r.onBlock index frag
  | .req _ => r
  | .other _ => r

/-- The block that a slot completes. -/
def completed (r : RecvBlock) (slot : Slot) : Option (Nat × Bytes) :=
  match slot with
  | .block _ _ =>
    if (r.feed slot).done && !r.done then some ((r.feed slot).count, (r.feed slot).buf) else none
  | _ => none

end RecvBlock

/-! ## All peers -/

structure BlockReceiver where
  peers : List RecvBlock := List.replicate 5 {}
  lastReq : Option Nat := none
  lastCmd : List (Nat × Slot) := []
  deriving DecidableEq, Repr

/-- What `feed_frame` returns, and the receiver after it. -/
structure Fed where
  rx : BlockReceiver
  completed : List (Nat × Nat × Bytes)
  reqs : List Nat
  deriving DecidableEq, Repr

namespace BlockReceiver

/-- The loop body of `feed_frame`. -/
def feedSlot (fed : Fed) (positional : Nat × Bytes) : Fed :=
  match parseSlot positional.2 with
  | none => fed
  | some d =>
    let mpid := positional.1
    let rx := { fed.rx with
      lastCmd := (mpid, d) :: fed.rx.lastCmd.filter fun entry => entry.1 ≠ mpid }
    match d with
    | .req reqtype =>
      { fed with rx := { rx with lastReq := some reqtype }, reqs := fed.reqs ++ [reqtype] }
    | d =>
      match rx.peers[mpid]? with
      | none => { fed with rx := rx }
      | some peer =>
        { fed with
          rx := { rx with peers := rx.peers.set mpid (peer.feed d) }
          completed := fed.completed ++
            ((peer.completed d).map fun block => (mpid, block)).toList }

/-- `feed_frame`. -/
def feedFrame (rx : BlockReceiver) (positional : List (Nat × Bytes)) : Fed :=
  positional.foldl feedSlot ⟨rx, [], []⟩

end BlockReceiver

/-! ## Slot by slot -/

namespace RecvBlock

/-- The blocks that a row of slots completes, slot by slot. -/
def trace (r : RecvBlock) : List Slot → List (Option (Nat × Bytes))
  | [] => []
  | slot :: slots => r.completed slot :: (r.feed slot).trace slots

theorem trace_append {r : RecvBlock} {slots more : List Slot} :
    r.trace (slots ++ more) = r.trace slots ++ (slots.foldl feed r).trace more := by
  induction slots generalizing r with
  | nil => rfl
  | cons slot slots ih => exact congrArg (r.completed slot :: ·) ih

end RecvBlock

namespace BlockReceiver

/-- The slots of one peer in a row of frames. -/
def slotsOf (mpid : Nat) (positional : List (Nat × Bytes)) : List Slot :=
  (positional.filter fun entry => entry.1 = mpid).filterMap fun entry => parseSlot entry.2

/-- The blocks reported for one peer. -/
def reportsOf (mpid : Nat) (completed : List (Nat × Nat × Bytes)) : List (Nat × Bytes) :=
  (completed.filter fun entry => entry.1 = mpid).map Prod.snd

section

variable {fed : Fed} {mpid : Nat} {peer : RecvBlock}

theorem slotsOf_cons {entry : Nat × Bytes} {positional : List (Nat × Bytes)} :
    slotsOf mpid (entry :: positional) = slotsOf mpid [entry] ++ slotsOf mpid positional := by
  rw [slotsOf, slotsOf, slotsOf, ← List.filterMap_append, ← List.filter_append]
  rfl

theorem reportsOf_append {completed more : List (Nat × Nat × Bytes)} :
    reportsOf mpid (completed ++ more) = reportsOf mpid completed ++ reportsOf mpid more := by
  rw [reportsOf, reportsOf, reportsOf, List.filter_append, List.map_append]

/-- A slot is fed to the peer it is of and to no other. -/
theorem feedSlot_peer {entry : Nat × Bytes} (h : fed.rx.peers[mpid]? = some peer) :
    (feedSlot fed entry).rx.peers[mpid]? =
        some ((slotsOf mpid [entry]).foldl RecvBlock.feed peer) ∧
      reportsOf mpid (feedSlot fed entry).completed = reportsOf mpid fed.completed ++
        (peer.trace (slotsOf mpid [entry])).reduceOption := by
  obtain ⟨sender, raw⟩ := entry
  cases hparsed : parseSlot raw with
  | none =>
    have hslots : slotsOf mpid [(sender, raw)] = [] := by
      by_cases hof : sender = mpid <;> simp [slotsOf, hof, hparsed]
    simp only [feedSlot, hparsed, hslots]
    exact ⟨h, (List.append_nil _).symm⟩
  | some d =>
    by_cases hof : sender = mpid
    · subst hof
      have hslots : slotsOf sender [(sender, raw)] = [d] := by simp [slotsOf, hparsed]
      have hlt : sender < fed.rx.peers.length := (List.getElem?_eq_some_iff.mp h).1
      have hreport : ∀ slot, reportsOf sender
          ((peer.completed slot).map fun block => (sender, block)).toList =
            (peer.trace [slot]).reduceOption := by
        intro slot
        rw [RecvBlock.trace, RecvBlock.trace]
        cases peer.completed slot <;> simp [reportsOf, List.reduceOption]
      rw [hslots]
      cases d with
      | req reqtype =>
        simp only [feedSlot, hparsed]
        exact ⟨h, (List.append_nil _).symm⟩
      | init count ownerRaw | block index frag | other op =>
        simp only [feedSlot, hparsed, h]
        refine ⟨List.getElem?_set_self hlt, ?_⟩
        rw [reportsOf_append, hreport]
    · have hslots : slotsOf mpid [(sender, raw)] = [] := by simp [slotsOf, hof]
      rw [hslots]
      have hother : ∀ {report : Option (Nat × Bytes)},
          reportsOf mpid (report.map fun block => (sender, block)).toList = [] := by
        intro report
        cases report <;> simp [reportsOf, hof]
      cases d with
      | req reqtype =>
        simp only [feedSlot, hparsed]
        exact ⟨h, (List.append_nil _).symm⟩
      | init count ownerRaw | block index frag | other op =>
        simp only [feedSlot, hparsed]
        split
        · exact ⟨h, (List.append_nil _).symm⟩
        · simp only
          rw [List.getElem?_set_ne hof, reportsOf_append, hother]
          exact ⟨h, rfl⟩

/-- The frames feed a peer its slots, in order, and what is reported of it is what they
complete. -/
theorem feedFrame_peer {positional : List (Nat × Bytes)}
    (h : fed.rx.peers[mpid]? = some peer) :
    (positional.foldl feedSlot fed).rx.peers[mpid]? =
        some ((slotsOf mpid positional).foldl RecvBlock.feed peer) ∧
      reportsOf mpid (positional.foldl feedSlot fed).completed = reportsOf mpid fed.completed ++
        (peer.trace (slotsOf mpid positional)).reduceOption := by
  induction positional generalizing fed peer with
  | nil => exact ⟨h, (List.append_nil _).symm⟩
  | cons entry positional ih =>
    obtain ⟨hpeer, hreports⟩ := @feedSlot_peer _ _ _ entry h
    obtain ⟨hpeer', hreports'⟩ := ih hpeer
    rw [slotsOf_cons, List.foldl_cons]
    refine ⟨?_, ?_⟩
    · rw [hpeer', List.foldl_append]
    · rw [hreports', hreports, RecvBlock.trace_append, List.reduceOption_append, List.append_assoc]

end

end BlockReceiver

end SwitchTrade.Rfu

import SwitchTrade.Rfu.Block

/-!
# The sender of a block

`BlockSender` of `bridge/frlgsim/block.py`. A tick is given what the peer reflected of the block
so far and returns the words to send: the INIT until it is reflected, then fragment after fragment,
then the last fragment, or one that is missing, until all are reflected.
-/

namespace SwitchTrade.Rfu

open Chunks

/-- The `state` of a sender. -/
inductive SendState where
  | init
  | stream
  | hold
  | done
  deriving DecidableEq, Repr

structure BlockSender where
  data : Bytes
  count : Nat
  owner : Nat := 1
  state : SendState := .init
  index : Nat := 0
  initSends : Nat := 0
  holdSends : Nat := 0
  rr : Nat := 0
  watchdogInit : Nat := 4
  watchdogHold : Nat := 6
  trustPia : Bool := false
  deriving DecidableEq, Repr

/-- The words of an idle slot. -/
def idleWords : List Nat := List.replicate 7 0

namespace BlockSender

/-- `BlockSender(data, owner, trust_pia=trust_pia)`. -/
def new (data : Bytes) (owner : Nat) (trustPia : Bool) : BlockSender :=
  { data, count := fragCount data.length, owner, trustPia }

/-- `_chunk`. -/
def chunk (s : BlockSender) (index : Nat) : Bytes := Chunks.chunk fragBytes index s.data

/-- `_init_acked`. -/
def initAcked (s : BlockSender) : Option RecvBlock → Bool
  | none => false
  | some ack => ack.receiving && ack.count = s.count

/-- `_missing`. -/
def missing (s : BlockSender) : Option RecvBlock → List Nat
  | none => []
  | some ack =>
    if ack.count ≠ s.count then []
    else (List.range s.count).filter fun i => !ack.flags.testBit i

/-- The `STREAM` part of `tick`. -/
def tickStream (s : BlockSender) : BlockSender × List Nat :=
  let words := sendBlockWords s.index (s.chunk s.index)
  if s.count ≤ s.index + 1 then
    ({ s with state := if s.trustPia then .done else .hold, holdSends := 0 }, words)
  else ({ s with index := s.index + 1 }, words)

/-- The `HOLD` part of `tick`. -/
def tickHold (s : BlockSender) (ack : Option RecvBlock) : BlockSender × List Nat :=
  let s := { s with holdSends := s.holdSends + 1 }
  let last := s.count - 1
  let resend := sendBlockWords last (s.chunk last)
  match ack with
  | some r =>
    if r.lastIndex = (last : Int) then
      if r.flags = allReceivedMask s.count then ({ s with state := .done }, idleWords)
      else
        let missing := s.missing ack
        if missing.length = 0 then (s, resend)
        else
          let rr := (s.rr + 1) % missing.length
          let index := missing.getD rr 0
          ({ s with rr }, sendBlockWords index (s.chunk index))
    else (s, resend)
  | none =>
    if s.watchdogHold < s.holdSends then ({ s with state := .done }, idleWords) else (s, resend)

/-- `tick`. -/
def tick (s : BlockSender) (ack : Option RecvBlock) : BlockSender × List Nat :=
  match s.state with
  | .done => (s, idleWords)
  | .init =>
    let s := { s with initSends := s.initSends + 1 }
    let armed :=
      if s.trustPia then s.initAcked ack || s.watchdogInit < s.initSends
      else s.initAcked ack || (ack.isNone && s.watchdogInit < s.initSends)
    if armed then { s with state := .stream, index := 0 }.tickStream
    else (s, initWords s.count s.owner)
  | .stream => s.tickStream
  | .hold => s.tickHold ack

/-! ## What a tick does -/

/-- What holds of a sender from its start on. -/
structure Sound (s : BlockSender) : Prop where
  count : s.count = fragCount s.data.length
  index : s.index < s.count
  waits : s.trustPia = false

theorem fragCount_pos (n : Nat) : 0 < fragCount n :=
  Nat.lt_of_lt_of_le Nat.one_pos (Nat.le_max_left _ _)

theorem Sound.new {data : Bytes} {owner : Nat} : (new data owner false).Sound :=
  ⟨rfl, fragCount_pos _, rfl⟩

/-- What a tick keeps. -/
structure Keeps (s s' : BlockSender) : Prop where
  data : s'.data = s.data
  count : s'.count = s.count
  owner : s'.owner = s.owner
  sound : s'.Sound

/-- A tick of a sender that sees what is reflected: it sends the INIT because that is not reflected
yet, or a fragment because it is, or it is done because all is reflected. -/
inductive Ticked (s : BlockSender) (ack : RecvBlock) : BlockSender × List Nat → Prop
  | calls {s' : BlockSender} (keeps : Keeps s s') (before : s.state = .init)
      (after : s'.state = .init) : Ticked s ack (s', initWords s.count s.owner)
  | sends {s' : BlockSender} {index : Nat} (keeps : Keeps s s')
      (before : s.state = .init → ack.receiving = true ∧ ack.count = s.count)
      (undone : s.state ≠ .done) (after : s'.state = .stream ∨ s'.state = .hold)
      (lt : index < s.count) : Ticked s ack (s', sendBlockWords index (s.chunk index))
  | ends {s' : BlockSender} (keeps : Keeps s s') (before : s.state = .hold ∨ s.state = .done)
      (full : s.state = .hold → ack.flags = allReceivedMask s.count) (after : s'.state = .done) :
      Ticked s ack (s', idleWords)

section

variable {s : BlockSender} {ack : RecvBlock}

theorem Sound.tickStream_eq (h : s.Sound) (hstate : s.state = .stream) :
    ∃ s', s.tickStream = (s', sendBlockWords s.index (s.chunk s.index)) ∧
      (s'.state = .stream ∨ s'.state = .hold) ∧ Keeps s s' := by
  unfold tickStream
  simp only
  split
  · rw [h.waits]
    exact ⟨_, rfl, .inr rfl, rfl, rfl, rfl, h.count, h.index, rfl⟩
  · rename_i hlast
    exact ⟨_, rfl, .inl hstate, rfl, rfl, rfl, h.count, Nat.lt_of_not_ge hlast, h.waits⟩

theorem Sound.tickHold_ticked (h : s.Sound) (hstate : s.state = .hold) :
    Ticked s ack (s.tickHold (some ack)) := by
  have hkeeps : ∀ state holdSends rr,
      Keeps s { s with state := state, holdSends := holdSends, rr := rr } :=
    fun _ _ _ => ⟨rfl, rfl, rfl, h.count, h.index, h.waits⟩
  have hinit : s.state = .init → ack.receiving = true ∧ ack.count = s.count := by
    rw [hstate]
    nofun
  have hundone : s.state ≠ .done := by
    rw [hstate]
    nofun
  have hlast : s.count - 1 < s.count := by
    have hpos := h.index
    omega
  unfold tickHold
  simp only
  split
  · split
    · rename_i hfull
      exact .ends (hkeeps _ _ _) (.inl hstate) (fun _ => hfull) rfl
    · split
      · exact .sends (hkeeps _ _ _) hinit hundone (.inr hstate) hlast
      · -- One of the fragments that are missing, and those are of the block.
        rename_i hmissing
        have hrr : (s.rr + 1) % (s.missing (some ack)).length < (s.missing (some ack)).length :=
          Nat.mod_lt _ (Nat.pos_of_ne_zero hmissing)
        have hlt : ∀ i ∈ s.missing (some ack), i < s.count := by
          intro i hi
          unfold missing at hi
          simp only at hi
          split at hi
          · cases hi
          · exact List.mem_range.mp (List.mem_filter.mp hi).1
        refine .sends (hkeeps _ _ _) hinit hundone (.inr hstate) (hlt _ ?_)
        have hmem : (s.missing (some ack)).getD ((s.rr + 1) % (s.missing (some ack)).length) 0 ∈
            s.missing (some ack) := by
          rw [List.getD_eq_getElem?_getD, List.getElem?_eq_getElem hrr]
          exact List.getElem_mem hrr
        exact hmem
  · exact .sends (hkeeps _ _ _) hinit hundone (.inr hstate) hlast

theorem Sound.ticked (h : s.Sound) : Ticked s ack (s.tick (some ack)) := by
  unfold tick
  split
  · rename_i hstate
    refine .ends ⟨rfl, rfl, rfl, h⟩ (.inr hstate) ?_ hstate
    rw [hstate]
    nofun
  · rename_i hstate
    simp only [h.waits, Bool.false_eq_true, if_false]
    split
    · rename_i hacked
      have harmed : ack.receiving = true ∧ ack.count = s.count := by
        simpa [initAcked] using hacked
      have hcalled :
          Sound { s with initSends := s.initSends + 1, state := .stream, index := 0 } :=
        ⟨h.count, Nat.zero_lt_of_lt h.index, h.waits⟩
      obtain ⟨s', heq, hafter, hkeeps⟩ := hcalled.tickStream_eq rfl
      have hundone : s.state ≠ .done := by
        rw [hstate]
        nofun
      have htick := @Ticked.sends s ack s' 0 ⟨hkeeps.data, hkeeps.count, hkeeps.owner, hkeeps.sound⟩
        (fun _ => harmed) hundone hafter (Nat.zero_lt_of_lt h.index)
      rw [h.waits] at heq
      exact heq ▸ htick
    · exact .calls ⟨rfl, rfl, rfl, h.count, h.index, rfl⟩ hstate hstate
  · rename_i hstate
    obtain ⟨s', heq, hafter, hkeeps⟩ := h.tickStream_eq hstate
    rw [heq]
    refine .sends hkeeps ?_ ?_ hafter h.index
    · rw [hstate]
      nofun
    · rw [hstate]
      nofun
  · rename_i hstate
    exact h.tickHold_ticked hstate

end

end BlockSender

end SwitchTrade.Rfu

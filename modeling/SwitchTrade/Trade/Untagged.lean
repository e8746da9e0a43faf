import SwitchTrade.Trade.TradeEngine

/-!
# The bits of the tag

The slots of a child carry a rolling tag in three bits of the first word (`SlotBuilder.build`). What
the engine has for a slot leaves them free, whatever state it is in (`Engine.untagged_tick`), and so
the tag is read back of the slot (`tagOf_buildSlot`).
-/

namespace SwitchTrade.Rfu

/-- The three bits of the tag. -/
def tagOf (cmd14 : Bytes) : Nat := (wordAt cmd14 0 >>> 5) &&& 7

/-- The first of the words leaves the bits of the tag free. -/
def Untagged (words : List Nat) : Prop := words.headD 0 &&& 0xE0 = 0

section

variable {words : List Nat} {tag : Nat}

theorem wordAt_buildSlot (hwords : words ≠ []) :
    wordAt (buildSlot tag words) 0 = (words.headD 0 ||| (tag <<< 5)) &&& 0xFFFF := by
  cases words with
  | nil => exact absurd rfl hwords
  | cons word0 rest =>
    have hslot : ∃ more, buildSlot tag (word0 :: rest) =
        wordBytes ((word0 ||| (tag <<< 5)) &&& 0xFFFF) ++ more := by
      rw [buildSlot, wordsToSlot, List.cons_append]
      exact ⟨_, rfl⟩
    obtain ⟨more, hmore⟩ := hslot
    rw [hmore]
    exact (@wordAt_wordBytes _ 0 more (low16_lt _)).1

theorem tagOf_buildSlot (hwords : words ≠ []) (huntagged : Untagged words) (htag : tag < 8) :
    tagOf (buildSlot tag words) = tag := by
  have hfree : words.headD 0 >>> 5 &&& 7 = 0 := by
    have hshift := congrArg (· >>> 5) huntagged
    simpa [Nat.shiftRight_and_distrib] using hshift
  have hown : tag &&& 7 = tag := Nat.and_two_pow_sub_one_of_lt_two_pow (n := 3) htag
  have hback : tag <<< 5 >>> 5 = tag := Nat.shiftLeft_shiftRight tag 5
  have hlow : (0xFFFF >>> 5 : Nat) &&& 7 = 7 := by decide
  rw [tagOf, wordAt_buildSlot hwords, Nat.shiftRight_and_distrib, Nat.and_assoc, hlow,
    Nat.shiftRight_or_distrib, hback, Nat.and_or_distrib_right, hfree, hown, Nat.zero_or]

/-- A slot that is built of words that are not idle is not idle. -/
theorem buildSlot_ne_idle (hwords : words.headD 0 &&& 0xFFFF ≠ 0) :
    buildSlot tag words ≠ wordsToSlot [] := by
  intro hidle
  have hne : words ≠ [] := by
    rintro rfl
    exact hwords rfl
  have hword := @wordAt_buildSlot words tag hne
  rw [hidle, Nat.and_or_distrib_right] at hword
  have hzero : wordAt (wordsToSlot []) 0 = 0 := by decide
  rw [hzero] at hword
  exact hwords (Nat.or_eq_zero_iff.mp hword.symm).1

end

/-! ## The words of a block -/

theorem untagged_idleWords : Untagged idleWords := by
  unfold Untagged idleWords
  decide

theorem untagged_initWords (count owner : Nat) : Untagged (initWords count owner) := by
  show opInit &&& 0xE0 = 0
  decide

theorem untagged_sendBlockWords (index : Nat) (chunk12 : Bytes) :
    Untagged (sendBlockWords index chunk12) := by
  have hall : ∀ i < 32, (opBlock ||| i) &&& 0xE0 = 0 := by decide
  exact hall (index &&& fragIndexMask) (Nat.lt_of_le_of_lt Nat.and_le_right (by decide))

theorem BlockSender.untagged_tickStream (s : BlockSender) : Untagged s.tickStream.2 := by
  unfold tickStream
  split <;> exact untagged_sendBlockWords _ _

theorem BlockSender.untagged_tickHold (s : BlockSender) (ack : Option RecvBlock) :
    Untagged (s.tickHold ack).2 := by
  unfold tickHold
  simp only
  split
  · split
    · split
      · exact untagged_idleWords
      · split <;> exact untagged_sendBlockWords _ _
    · exact untagged_sendBlockWords _ _
  · split
    · exact untagged_idleWords
    · exact untagged_sendBlockWords _ _

theorem BlockSender.untagged_tick (s : BlockSender) (ack : Option RecvBlock) :
    Untagged (s.tick ack).2 := by
  cases hs : s.state with
  | done =>
    rw [tick, hs]
    exact untagged_idleWords
  | init =>
    have hboth : ∀ armed : Bool, ∀ s' s'' : BlockSender,
        Untagged (if armed then s'.tickStream else (s'', initWords s.count s.owner)).2 := by
      intro armed s' s''
      cases armed with
      | true => exact s'.untagged_tickStream
      | false => exact untagged_initWords _ _
    rw [tick, hs]
    exact hboth _ _ _
  | stream =>
    rw [tick, hs]
    exact s.untagged_tickStream
  | hold =>
    rw [tick, hs]
    exact s.untagged_tickHold ack

/-! ## The words of a responder -/

theorem untagged_exitStandbyWords (count : Nat) : Untagged (exitStandbyWords count) := by
  show readyExitStandby &&& 0xE0 = 0
  decide

theorem untagged_closeLinkWords (count : Nat) : Untagged (closeLinkWords count) := by
  show readyCloseLink &&& 0xE0 = 0
  decide

theorem BarrierResponder.untagged_wantEmit (b : BarrierResponder) {words : List Nat}
    (h : b.wantEmit.2 = some words) : Untagged words := by
  have hwords : ∀ b : BarrierResponder, Untagged
      (if b.mode = .standby then exitStandbyWords b.localCount
        else closeLinkWords b.localCount) := by
    intro b
    split
    · exact untagged_exitStandbyWords _
    · exact untagged_closeLinkWords _
  unfold wantEmit at h
  simp only at h
  split at h
  · cases h
  · split at h
    · cases h
      exact hwords b
    · split at h <;> split at h <;> cases h
      · exact hwords _
      · exact hwords _

end SwitchTrade.Rfu

namespace SwitchTrade.Trade

open Rfu

/-! ## The words of the engine -/

namespace Engine

variable {cfg : Config} {e e' : Engine}

theorem untagged_tickSender (s : BlockSender) : Untagged (e.tickSender s).2 := by
  have hwords : (e.tickSender s).2 = (s.tick e.rx.peers[1]?).2 := by
    unfold tickSender
    simp only
    split
    · split <;> rfl
    · rfl
  rw [hwords]
  exact s.untagged_tick _

theorem untagged_quiescent : Untagged e.quiescent.2 := by
  show Untagged (e.barrier.wantEmit.2.getD idleWords)
  cases h : e.barrier.wantEmit.2 with
  | none => exact untagged_idleWords
  | some words => exact e.barrier.untagged_wantEmit h

theorem untagged_tickHead {words : List Nat} (h : e.tickHead.2 = some words) : Untagged words := by
  cases hs : e.sender with
  | some s =>
    rw [tickHead, hs] at h
    cases h
    exact untagged_tickSender s
  | none =>
    rw [tickHead, hs] at h
    simp only at h
    split at h
    · cases h
      exact untagged_quiescent
    · split at h
      · split at h
        · cases h
        · cases h
          exact untagged_quiescent
      · cases h

theorem untagged_push (buf : Bytes) : Untagged (e.push cfg buf).2 :=
  (newSender cfg buf).untagged_tick _

theorem untagged_sustainStandby (count emits regap : Nat) :
    Untagged (sustainStandby count emits regap).2.2 := by
  unfold sustainStandby
  split
  · exact untagged_exitStandbyWords _
  · split <;> exact untagged_idleWords

theorem untagged_warpBeforeSeat : Untagged e.warpBeforeSeat.2 := by
  unfold warpBeforeSeat
  split
  · simp only
    split
    · exact untagged_exitStandbyWords _
    · exact untagged_idleWords
  · simp only
    split
    · exact untagged_exitStandbyWords _
    · exact untagged_idleWords

theorem untagged_warpAfterSeat : Untagged e.warpAfterSeat.2 := by
  cases hwait : e.warp.postSeatWait with
  | succ wait =>
    rw [warpAfterSeat, hwait]
    exact untagged_idleWords
  | zero =>
    rw [warpAfterSeat, hwait]
    simp only
    split
    · exact untagged_sustainStandby _ _ _
    · split
      · exact untagged_sustainStandby _ _ _
      · exact untagged_idleWords

theorem untagged_tickTail : Untagged (e.tickTail cfg).2 := by
  unfold tickTail
  simp only
  split
  · exact untagged_push _
  · split
    · exact untagged_warpBeforeSeat
    · split
      · exact untagged_warpAfterSeat
      · exact untagged_quiescent

/-- Whatever the engine has for a slot leaves the bits of the tag free. -/
theorem untagged_tick {words : List Nat} (h : e.tick cfg = .ok (e', words)) : Untagged words := by
  cases hhead : e.tickHead with
  | mk e₁ settled =>
    cases settled with
    | some words' =>
      rw [tick, hhead] at h
      cases h
      exact untagged_tickHead (congrArg Prod.snd hhead)
    | none =>
      rw [tick, hhead] at h
      simp only at h
      cases htimers : e₁.advanceTimers cfg with
      | error raised => rw [htimers] at h; cases h
      | ok e₂ =>
        rw [htimers, Except.ok.injEq] at h
        have htail := @untagged_tickTail cfg e₂
        rwa [h] at htail

end Engine

end SwitchTrade.Trade

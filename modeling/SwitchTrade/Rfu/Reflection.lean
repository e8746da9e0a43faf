import SwitchTrade.Rfu.BlockSender

/-!
# A slot built, reflected and heard

`SlotBuilder.build` and `parent_reflect_child` of `bridge/frlgsim/rfu.py`. Of a slot a peer's
`RecvBlock` only takes notice of an INIT or a fragment (`heard`), and reflecting a slot, which takes
the rolling tag off, changes neither (`heard_reflect`).
-/

namespace SwitchTrade.Rfu

open Chunks

/-- `SlotBuilder.build` under the tag it has come to. -/
def build (tag : Nat) (words : List Nat) : Bytes :=
  if words.headD 0 &&& 0xFFFF = 0 then wordsToSlot [] else buildSlot tag words

/-- `parent_reflect_child`. -/
def parentReflectChild (cmd14 : Bytes) : Bytes := cmd14.set 0 (cmd14.getD 0 0 &&& 0x1F)

/-- The INIT or the fragment that a slot is. -/
def heard (raw : Bytes) : Option Slot :=
  match parseSlot raw with
  | some (.init count ownerRaw) => some (.init count ownerRaw)
  | some (.block index frag) => some (.block index frag)
  | _ => none

/-- What a slot of its peer does to a `RecvBlock`. -/
def RecvBlock.hear (r : RecvBlock) (raw : Bytes) : RecvBlock :=
  match parseSlot raw with
  | none => r
  | some slot => r.feed slot

theorem RecvBlock.hear_eq {r : RecvBlock} {raw : Bytes} :
    r.hear raw = ((heard raw).map r.feed).getD r := by
  unfold RecvBlock.hear heard
  cases parseSlot raw with
  | none => rfl
  | some slot => cases slot <;> rfl

/-! ## What is heard of a slot -/

theorem heard_of_quiet {raw : Bytes} (h : Quiet raw) : heard raw = none := by
  obtain ⟨-, hinit, hblock⟩ := h
  unfold heard parseSlot
  split
  · rename_i hparsed
    split at hparsed
    · cases hparsed
    · split at hparsed
      · cases hparsed
      · simp only [if_neg hinit, if_neg hblock] at hparsed
        split at hparsed <;> cases hparsed
  · rename_i hparsed
    split at hparsed
    · cases hparsed
    · split at hparsed
      · cases hparsed
      · simp only [if_neg hinit, if_neg hblock] at hparsed
        split at hparsed <;> cases hparsed
  · rfl

theorem quiet_idle : Quiet (wordsToSlot []) := ⟨rfl, by decide, by decide⟩

theorem build_idle {tag : Nat} : Quiet (build tag idleWords) := quiet_idle

section

variable {tag count owner index : Nat} {chunk12 : Bytes}

theorem build_initWords :
    build tag (initWords count owner) = buildSlot tag (initWords count owner) := by
  have hword : opInit &&& 0xFFFF ≠ 0 := by decide
  exact if_neg hword

theorem build_sendBlockWords (h : index < 32) :
    build tag (sendBlockWords index chunk12) = buildSlot tag (sendBlockWords index chunk12) := by
  have hword : (opBlock ||| (index &&& fragIndexMask)) &&& 0xFFFF ≠ 0 := by
    have hall : ∀ i < 32, (opBlock ||| (i &&& fragIndexMask)) &&& 0xFFFF ≠ 0 := by decide
    exact hall index h
  exact if_neg hword

theorem heard_initWords (htag : tag < 8) (hcount : count < 2 ^ 16) :
    heard (build tag (initWords count owner)) = some (.init count (ownerRaw owner)) := by
  rw [build_initWords, heard, parseSlot_initWords htag hcount]

theorem heard_sendBlockWords (htag : tag < 8) (hindex : index < 32) :
    heard (build tag (sendBlockWords index chunk12)) =
      some (.block index (padded 12 0 chunk12)) := by
  rw [build_sendBlockWords hindex, heard, parseSlot_sendBlockWords htag hindex]

theorem length_build {words : List Nat} : (build tag words).length = commSlotLength := by
  unfold build
  split
  · rfl
  · exact length_buildSlot

end

/-! ## The tag taken off -/

theorem and_rfucmdMask {x y : Nat} (h : x / 256 = y / 256) :
    x &&& rfucmdMask = y &&& rfucmdMask := by
  apply Nat.eq_of_testBit_eq
  intro i
  rw [Nat.testBit_and, Nat.testBit_and]
  rcases Nat.lt_or_ge i 8 with hlow | hhigh
  · have hmask : ∀ j < 8, rfucmdMask.testBit j = false := by decide
    rw [hmask i hlow, Bool.and_false, Bool.and_false]
  · obtain ⟨k, rfl⟩ := Nat.exists_eq_add_of_le' hhigh
    have hbit : ∀ z : Nat, z.testBit (k + 8) = (z / 256).testBit k := fun z =>
      (Nat.testBit_div_two_pow z k).symm
    rw [hbit x, hbit y, h]

theorem reflect_wordAt {raw : Bytes} :
    wordAt (parentReflectChild raw) 0 &&& rfucmdMask = wordAt raw 0 &&& rfucmdMask ∧
      wordAt (parentReflectChild raw) 0 &&& fragIndexMask = wordAt raw 0 &&& fragIndexMask := by
  cases raw with
  | nil => exact ⟨rfl, rfl⟩
  | cons low rest =>
    have hlow := low.toNat_lt
    have htaken : (low &&& 0x1F).toNat = low.toNat % 32 := by
      rw [UInt8.toNat_and]
      exact Nat.and_two_pow_sub_one_eq_mod low.toNat 5
    have hmod : ∀ x : Nat, x &&& fragIndexMask = x % 32 := fun x =>
      Nat.and_two_pow_sub_one_eq_mod x 5
    have hword : wordAt (parentReflectChild (low :: rest)) 0 =
        low.toNat % 32 + 256 * (rest.getD 0 0).toNat := by
      rw [← htaken]
      rfl
    have hplain : wordAt (low :: rest) 0 = low.toNat + 256 * (rest.getD 0 0).toNat := rfl
    rw [hword, hplain]
    refine ⟨and_rfucmdMask ?_, ?_⟩
    · omega
    · rw [hmod, hmod]
      omega

/-- A slot of 14 bytes is heard by its operation. -/
theorem heard_eq {raw : Bytes} (h : raw.length = commSlotLength) :
    heard raw =
      if wordAt raw 0 &&& rfucmdMask = opInit then
        some (.init (wordAt raw 1) (raw.getD 4 0).toNat)
      else if wordAt raw 0 &&& rfucmdMask = opBlock then
        some (.block (wordAt raw 0 &&& fragIndexMask) ((raw.drop 2).take 12))
      else none := by
  by_cases hinit : wordAt raw 0 &&& rfucmdMask = opInit
  · rw [if_pos hinit, heard, parseSlot_of_op h (by rw [hinit]; decide), if_pos hinit]
  · by_cases hblock : wordAt raw 0 &&& rfucmdMask = opBlock
    · rw [if_neg hinit, if_pos hblock, heard, parseSlot_of_op h (by rw [hblock]; decide),
        if_neg hinit, if_pos hblock]
    · rw [if_neg hinit, if_neg hblock]
      exact heard_of_quiet ⟨h, hinit, hblock⟩

theorem length_reflect {raw : Bytes} : (parentReflectChild raw).length = raw.length :=
  List.length_set

theorem heard_reflect {raw : Bytes} (h : raw.length = commSlotLength) :
    heard (parentReflectChild raw) = heard raw := by
  have hrest : ∀ i, i ≠ 0 → (parentReflectChild raw).getD i 0 = raw.getD i 0 := by
    intro i hi
    rw [parentReflectChild, List.getD_eq_getElem?_getD, List.getElem?_set_ne (Ne.symm hi),
      List.getD_eq_getElem?_getD]
  have hdrop : (parentReflectChild raw).drop 2 = raw.drop 2 := by
    rw [parentReflectChild, List.drop_set_of_lt (by decide)]
  have hword : wordAt (parentReflectChild raw) 1 = wordAt raw 1 := by
    rw [wordAt, wordAt, hrest (2 * 1) (by decide), hrest (2 * 1 + 1) (by decide)]
  rw [heard_eq (length_reflect.trans h), heard_eq h, reflect_wordAt.1, reflect_wordAt.2, hdrop,
    hword, hrest 4 (by decide)]

end SwitchTrade.Rfu

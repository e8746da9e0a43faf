import SwitchTrade.Transition.Chunks
import Mathlib.Algebra.Group.Nat.Defs

/-!
# Command slots

The 14-byte slots of `bridge/frlgsim/rfu.py` in so far as blocks are sent in them: the words of
`SEND_BLOCK_INIT` and `SEND_BLOCK`, a slot built of seven words with the rolling tag of the child,
and what `parse_slot` reads back. `_parse_command` of `tools/payload_decoder.py` reads the same
slots with other names.
-/

namespace SwitchTrade.Rfu

open Chunks

abbrev Bytes := List UInt8

/-- `COMM_SLOT_LENGTH`. -/
def commSlotLength : Nat := 14

/-- `RFUCMD_MASK`. -/
def rfucmdMask : Nat := 0xFF00

/-- `FRAG_INDEX_MASK`. -/
def fragIndexMask : Nat := 0x1F

/-- `OWNER_FLAG`. -/
def ownerFlag : Nat := 0x80

/-- `SEND_BLOCK_INIT`. -/
def opInit : Nat := 0x8800

/-- `SEND_BLOCK`. -/
def opBlock : Nat := 0x8900

/-- `SEND_BLOCK_REQ`. -/
def opReq : Nat := 0xA100

/-! ## Words and bytes -/

/-- `(x & 0xFFFF).to_bytes(2, "little")`. -/
def wordBytes (x : Nat) : Bytes := [UInt8.ofNat x, UInt8.ofNat (x / 256)]

/-- `int.from_bytes(slot[2 * i:2 * i + 2], "little")`. -/
def wordAt (slot : Bytes) (i : Nat) : Nat :=
  (slot.getD (2 * i) 0).toNat + 256 * (slot.getD (2 * i + 1) 0).toNat

/-- `_words_to_slot`. -/
def wordsToSlot (words : List Nat) : Bytes :=
  ((words ++ List.replicate (7 - words.length) 0).take 7).flatMap wordBytes

/-- The little-endian words of bytes. -/
def bytesWords : Bytes → List Nat
  | low :: high :: rest => (low.toNat + 256 * high.toNat) :: bytesWords rest
  | _ => []

/-- `init_words`. -/
def initWords (count owner : Nat) : List Nat :=
  [opInit, count &&& 0xFFFF, (owner ||| ownerFlag) &&& 0xFFFF, 0, 0, 0, 0]

/-- `send_block_words`. -/
def sendBlockWords (index : Nat) (chunk12 : Bytes) : List Nat :=
  (opBlock ||| (index &&& fragIndexMask)) :: bytesWords (padded 12 0 chunk12)

/-- `SlotBuilder.build` of words that are not idle, under the tag it has come to; without a child's
tag it is `serialize`. -/
def buildSlot (tag : Nat) : List Nat → Bytes
  | [] => wordsToSlot []
  | word0 :: words => wordsToSlot (((word0 ||| (tag <<< 5)) &&& 0xFFFF) :: words)

/-! ## Parsing -/

/-- What `parse_slot` returns, in so far as blocks are concerned. -/
inductive Slot where
  | init (count ownerRaw : Nat)
  | block (index : Nat) (frag : Bytes)
  | req (reqtype : Nat)
  | other (op : Nat)
  deriving DecidableEq, Repr

/-- `parse_slot` of the 14 bytes of a slot. -/
def parseSlot (slot : Bytes) : Option Slot :=
  if slot.length < 2 then none
  else if slot.take commSlotLength = List.replicate (min slot.length commSlotLength) 0 then none
  else
    let word0 := wordAt slot 0
    let op := word0 &&& rfucmdMask
    if op = opInit then some (.init (wordAt slot 1) (slot.getD 4 0).toNat)
    else if op = opBlock then
      some (.block (word0 &&& fragIndexMask) (padded 12 0 ((slot.drop 2).take 12)))
    else if op = opReq then some (.req (wordAt slot 1))
    else some (.other op)

/-- A slot with neither an INIT nor a fragment. -/
def Quiet (raw : Bytes) : Prop :=
  raw.length = commSlotLength ∧ wordAt raw 0 &&& rfucmdMask ≠ opInit ∧
    wordAt raw 0 &&& rfucmdMask ≠ opBlock

/-- What `_parse_command` returns, in so far as `RfuBlockAssembler` reads it. -/
structure RfuCommand where
  opcode : Nat
  multiplayerId : Option Nat
  blockIndex : Option Nat := none
  blockCount : Option Nat := none
  blockOwner : Option Nat := none
  fragment : Option Bytes := none
  requestType : Option Nat := none
  deriving DecidableEq, Repr

/-- `_parse_command`. -/
def parseCommand (raw : Bytes) (multiplayerId : Option Nat) : RfuCommand :=
  let padding := padded commSlotLength 0 raw
  let word0 := wordAt padding 0
  let opcode := word0 &&& 0xFF00
  if opcode = opInit then
    { opcode, multiplayerId, blockCount := some (wordAt padding 1),
      blockOwner := some ((padding.getD 4 0).toNat &&& 0x7F) }
  else if opcode = opBlock then
    { opcode, multiplayerId, blockIndex := some (word0 &&& 0x1F),
      fragment := some ((padding.drop 2).take 12) }
  else if opcode = opReq then { opcode, multiplayerId, requestType := some (wordAt padding 1) }
  else { opcode, multiplayerId }

/-! ## What is sent is read back -/

theorem length_wordsToSlot (words : List Nat) : (wordsToSlot words).length = 14 := by
  rw [wordsToSlot, List.length_flatMap]
  have htwo : (fun x : Nat => (wordBytes x).length) = fun _ => 2 := rfl
  rw [htwo, List.map_const', List.sum_replicate_nat, List.length_take, List.length_append,
    List.length_replicate]
  omega

theorem wordBytes_bytesWords {bytes : Bytes} (h : bytes.length % 2 = 0) :
    (bytesWords bytes).flatMap wordBytes = bytes := by
  induction bytes using bytesWords.induct with
  | case1 low high rest ih =>
    have hrest : rest.length % 2 = 0 := by
      rw [List.length_cons, List.length_cons] at h
      omega
    rw [bytesWords, List.flatMap_cons, ih hrest]
    have hlow := low.toNat_lt
    have hhigh := high.toNat_lt
    have hfirst : UInt8.ofNat (low.toNat + 256 * high.toNat) = low := by
      apply UInt8.toNat_inj.mp
      rw [UInt8.toNat_ofNat']
      omega
    have hsecond : UInt8.ofNat ((low.toNat + 256 * high.toNat) / 256) = high := by
      apply UInt8.toNat_inj.mp
      rw [UInt8.toNat_ofNat']
      omega
    rw [wordBytes, hfirst, hsecond]
    rfl
  | case2 bytes hshort =>
    cases bytes with
    | nil => rfl
    | cons low rest =>
      cases rest with
      | nil => cases h
      | cons high rest => exact absurd rfl (hshort low high rest)

theorem length_bytesWords {bytes : Bytes} : (bytesWords bytes).length = bytes.length / 2 := by
  induction bytes using bytesWords.induct with
  | case1 low high rest ih =>
    rw [bytesWords, List.length_cons, ih, List.length_cons, List.length_cons]
    omega
  | case2 bytes hshort =>
    cases bytes with
    | nil => rfl
    | cons low rest =>
      cases rest with
      | nil => simp [bytesWords]
      | cons high rest => exact absurd rfl (hshort low high rest)

theorem wordAt_wordBytes {x y : Nat} {rest : Bytes} (hx : x < 2 ^ 16) :
    wordAt (wordBytes x ++ rest) 0 = x ∧
      (y < 2 ^ 16 → wordAt (wordBytes x ++ (wordBytes y ++ rest)) 1 = y) := by
  have hbytes : ∀ z < 2 ^ 16, (UInt8.ofNat z).toNat + 256 * (UInt8.ofNat (z / 256)).toNat = z := by
    intro z hz
    rw [UInt8.toNat_ofNat', UInt8.toNat_ofNat']
    omega
  exact ⟨hbytes x hx, hbytes y⟩

/-- A slot of seven words is their bytes. -/
theorem buildSlot_cons {tag word0 : Nat} {words : List Nat} (h : words.length = 6) :
    buildSlot tag (word0 :: words) =
      wordBytes ((word0 ||| (tag <<< 5)) &&& 0xFFFF) ++ words.flatMap wordBytes := by
  have hseven : (((word0 ||| (tag <<< 5)) &&& 0xFFFF) :: words).length = 7 := by
    rw [List.length_cons, h]
  rw [buildSlot, wordsToSlot, hseven, Nat.sub_self, List.replicate_zero, List.append_nil,
    ← hseven, List.take_length, List.flatMap_cons]

/-- The tag of the child leaves the operation and the index of a fragment. -/
theorem tagged_word {tag : Nat} (htag : tag < 8) :
    (opInit ||| (tag <<< 5)) &&& 0xFFFF &&& rfucmdMask = opInit ∧
      ∀ index < 32, ((opBlock ||| (index &&& fragIndexMask)) ||| (tag <<< 5)) &&& 0xFFFF &&&
          rfucmdMask = opBlock ∧
        ((opBlock ||| (index &&& fragIndexMask)) ||| (tag <<< 5)) &&& 0xFFFF &&&
          fragIndexMask = index := by
  have hall : ∀ t < 8, (opInit ||| (t <<< 5)) &&& 0xFFFF &&& rfucmdMask = opInit ∧
      ∀ index < 32, ((opBlock ||| (index &&& fragIndexMask)) ||| (t <<< 5)) &&& 0xFFFF &&&
          rfucmdMask = opBlock ∧
        ((opBlock ||| (index &&& fragIndexMask)) ||| (t <<< 5)) &&& 0xFFFF &&&
          fragIndexMask = index := by
    decide +kernel
  exact hall tag htag

/-- The raw owner byte of an INIT. -/
def ownerRaw (owner : Nat) : Nat := ((owner ||| ownerFlag) &&& 0xFFFF) % 256

theorem low16_lt (x : Nat) : x &&& 0xFFFF < 2 ^ 16 :=
  Nat.lt_of_le_of_lt Nat.and_le_right (by decide)

theorem length_buildSlot {tag : Nat} {words : List Nat} :
    (buildSlot tag words).length = commSlotLength := by
  cases words with
  | nil => exact length_wordsToSlot _
  | cons word0 words => exact length_wordsToSlot _

/-- A slot that is not idle is read by its operation. -/
theorem parseSlot_of_op {slot : Bytes} (hlength : slot.length = commSlotLength)
    (hop : wordAt slot 0 &&& rfucmdMask ≠ 0) :
    parseSlot slot =
      if wordAt slot 0 &&& rfucmdMask = opInit then
        some (.init (wordAt slot 1) (slot.getD 4 0).toNat)
      else if wordAt slot 0 &&& rfucmdMask = opBlock then
        some (.block (wordAt slot 0 &&& fragIndexMask) ((slot.drop 2).take 12))
      else if wordAt slot 0 &&& rfucmdMask = opReq then some (.req (wordAt slot 1))
      else some (.other (wordAt slot 0 &&& rfucmdMask)) := by
  have hidle : slot.take commSlotLength ≠ List.replicate (min slot.length commSlotLength) 0 := by
    intro hzero
    rw [List.take_of_length_le (Nat.le_of_eq hlength), hlength] at hzero
    rw [hzero] at hop
    exact hop rfl
  have hfrag : padded 12 0 ((slot.drop 2).take 12) = (slot.drop 2).take 12 := by
    apply padded_of_length
    rw [List.length_take, List.length_drop, hlength]
    rfl
  rw [parseSlot, if_neg (by rw [hlength]; decide), if_neg hidle]
  simp only [hfrag]

section

variable {tag count owner index : Nat} {chunk12 : Bytes} {mpid : Option Nat}

/-- The bytes of an INIT. -/
theorem initSlot_reads (htag : tag < 8) (hcount : count < 2 ^ 16) :
    let slot := buildSlot tag (initWords count owner)
    wordAt slot 0 &&& rfucmdMask = opInit ∧ wordAt slot 1 = count ∧
      (slot.getD 4 0).toNat = ownerRaw owner := by
  have hslot := @buildSlot_cons tag opInit
    [count &&& 0xFFFF, (owner ||| ownerFlag) &&& 0xFFFF, 0, 0, 0, 0] rfl
  have hmod : count &&& 0xFFFF = count := Nat.and_two_pow_sub_one_of_lt_two_pow hcount
  have hwords := @wordAt_wordBytes ((opInit ||| (tag <<< 5)) &&& 0xFFFF) count
    ([(owner ||| ownerFlag) &&& 0xFFFF, 0, 0, 0, 0].flatMap wordBytes) (low16_lt _)
  rw [hmod, List.flatMap_cons] at hslot
  simp only [initWords, hmod, hslot]
  refine ⟨?_, hwords.2 hcount, UInt8.toNat_ofNat'⟩
  rw [(@wordAt_wordBytes _ count _ (low16_lt _)).1]
  exact (tagged_word htag).1

/-- The bytes of a fragment. -/
theorem blockSlot_reads (htag : tag < 8) (hindex : index < 32) :
    let slot := buildSlot tag (sendBlockWords index chunk12)
    wordAt slot 0 &&& rfucmdMask = opBlock ∧ wordAt slot 0 &&& fragIndexMask = index ∧
      (slot.drop 2).take 12 = padded 12 0 chunk12 := by
  have hlength : (padded 12 0 chunk12).length = 12 := length_padded
  have hslot := @buildSlot_cons tag (opBlock ||| (index &&& fragIndexMask))
    (bytesWords (padded 12 0 chunk12)) (by rw [length_bytesWords, hlength])
  rw [wordBytes_bytesWords (by rw [hlength])] at hslot
  simp only [sendBlockWords, hslot]
  obtain ⟨hop, hlow⟩ := (tagged_word htag).2 index hindex
  rw [(@wordAt_wordBytes _ 0 _ (low16_lt _)).1]
  refine ⟨hop, hlow, ?_⟩
  exact List.take_of_length_le (Nat.le_of_eq hlength)

theorem parseSlot_initWords (htag : tag < 8) (hcount : count < 2 ^ 16) :
    parseSlot (buildSlot tag (initWords count owner)) = some (.init count (ownerRaw owner)) := by
  obtain ⟨hop, hword, howner⟩ := @initSlot_reads tag count owner htag hcount
  rw [parseSlot_of_op length_buildSlot (by rw [hop]; decide), if_pos hop, hword, howner]

theorem parseSlot_sendBlockWords (htag : tag < 8) (hindex : index < 32) :
    parseSlot (buildSlot tag (sendBlockWords index chunk12)) =
      some (.block index (padded 12 0 chunk12)) := by
  obtain ⟨hop, hlow, hfrag⟩ := @blockSlot_reads tag index chunk12 htag hindex
  rw [parseSlot_of_op length_buildSlot (by rw [hop]; decide), hop, if_neg (by decide), if_pos rfl,
    hlow, hfrag]

theorem parseCommand_initWords (htag : tag < 8) (hcount : count < 2 ^ 16) :
    parseCommand (buildSlot tag (initWords count owner)) mpid =
      { opcode := opInit, multiplayerId := mpid, blockCount := some count,
        blockOwner := some (ownerRaw owner &&& 0x7F) } := by
  obtain ⟨hop, hword, howner⟩ := @initSlot_reads tag count owner htag hcount
  rw [parseCommand, padded_of_length length_buildSlot]
  simp only [rfucmdMask] at hop
  simp only [hop, if_true, hword, howner]

theorem parseCommand_sendBlockWords (htag : tag < 8) (hindex : index < 32) :
    parseCommand (buildSlot tag (sendBlockWords index chunk12)) mpid =
      { opcode := opBlock, multiplayerId := mpid, blockIndex := some index,
        fragment := some (padded 12 0 chunk12) } := by
  obtain ⟨hop, hlow, hfrag⟩ := @blockSlot_reads tag index chunk12 htag hindex
  have hne : opBlock ≠ opInit := by decide
  rw [parseCommand, padded_of_length length_buildSlot]
  simp only [rfucmdMask, fragIndexMask] at hop hlow
  simp only [hop, hlow, hfrag, if_neg hne, if_true]

end

end SwitchTrade.Rfu

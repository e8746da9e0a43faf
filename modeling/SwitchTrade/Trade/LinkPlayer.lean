import SwitchTrade.Rfu.Slot
import SwitchTrade.Pk3.Record

/-!
# The player record

`bridge/frlgsim/linkplayer.py` and the names of `charmap.py`: the 60-byte block that both sides
exchange before they trade, between two magics, and the trainer card that is built from the same
record.
-/

namespace SwitchTrade.Trade

open LittleEndian Chunks Rfu Pk3

/-! ## Names -/

abbrev Text := List Char

/-- The characters of a range, from the byte on. -/
def charRange (first : UInt8) (chars : Text) : List (UInt8 × Char) :=
  (List.range chars.length).map fun i => (first + UInt8.ofNat i, chars.getD i ' ')

/-- `_DEC`. -/
def decTable : List (UInt8 × Char) :=
  [(0x00, ' '), (0xAD, '.'), (0xAE, '-'), (0xAF, '·'), (0xB0, '…'), (0xB7, '¥'), (0xB9, '×'),
    (0xBA, '/'), (0xB1, '“'), (0xB2, '”'), (0xB3, '‘'), (0xB4, '’'), (0xB5, '♂'), (0xB6, '♀'),
    (0xB8, ','), (0xAB, '!'), (0xAC, '?')] ++
  charRange 0xA1 "0123456789".toList ++ charRange 0xBB "ABCDEFGHIJKLMNOPQRSTUVWXYZ".toList ++
  charRange 0xD5 "abcdefghijklmnopqrstuvwxyz".toList

/-- `_DEC.get(x, ".")`. -/
def decChar (x : UInt8) : Char := (decTable.find? fun e => e.1 = x).elim '.' Prod.snd

/-- `_ENC.get(ch)`. -/
def encChar (ch : Char) : Option UInt8 := (decTable.find? fun e => e.2 = ch).map Prod.fst

/-- `decode`. -/
def decodeName (b : Bytes) : Text := (b.takeWhile (· ≠ 0xFF)).map decChar

/-- `encode(s, width=8, pad=0x00)`. -/
def encodeName (s : Text) : Bytes := padded 8 0 ((s.filterMap encChar).take 7 ++ [0xFF])

/-! ## The record -/

/-- `b"GameFreak inc."`. -/
def gamefreak : Bytes :=
  [0x47, 0x61, 0x6D, 0x65, 0x46, 0x72, 0x65, 0x61, 0x6B, 0x20, 0x69, 0x6E, 0x63, 0x2E]

/-- `GAMEFREAK_MAGIC`. -/
def gamefreakMagic : Bytes := gamefreak ++ [0, 0]

structure LinkPlayer where
  name : Text := "EMU".toList
  trainerId : Nat := 0x47ED8822
  version : Nat := 0x4005
  field2 : Nat := 0x8000
  progressFlags : Nat := 0
  neverRead : Nat := 0
  progressFlagsCopy : Nat := 0
  gender : Nat := 0
  linkType : Nat := 0
  playerId : Nat := 0
  language : Nat := 2
  deriving DecidableEq, Repr

namespace LinkPlayer

/-- `pack`; none where `to_bytes` raises. -/
def pack (lp : LinkPlayer) : Option Bytes :=
  if lp.version < 2 ^ 16 ∧ lp.field2 < 2 ^ 16 then
    some (toBytes 2 lp.version ++ toBytes 2 lp.field2 ++ toBytes 4 (lp.trainerId % 2 ^ 32) ++
      encodeName lp.name ++
      toBytes 1 (lp.progressFlags % 2 ^ 8) ++ toBytes 1 (lp.neverRead % 2 ^ 8) ++
      toBytes 1 (lp.progressFlagsCopy % 2 ^ 8) ++ toBytes 1 (lp.gender % 2 ^ 8) ++
      toBytes 4 (lp.linkType % 2 ^ 32) ++ toBytes 2 (lp.playerId % 2 ^ 16) ++
      toBytes 2 (lp.language % 2 ^ 16))
  else none

/-- `unpack`; none where there are too few bytes to index. -/
def unpack (b : Bytes) : Option LinkPlayer :=
  if b.length < 20 then none
  else some {
    version := field b 0 2
    field2 := field b 2 4
    trainerId := field b 4 8
    name := decodeName (slice b 8 16)
    progressFlags := field b 16 17
    neverRead := field b 17 18
    progressFlagsCopy := field b 18 19
    gender := field b 19 20
    linkType := field b 20 24
    playerId := field b 24 26
    language := field b 26 28 }

/-- `build_block`. -/
def buildBlock (lp : LinkPlayer) : Option Bytes :=
  lp.pack.map fun packed => gamefreakMagic ++ packed ++ gamefreakMagic

/-- `parse_block`. -/
def parseBlock (b : Bytes) : Option (LinkPlayer × Bool) :=
  (unpack (slice b 16 44)).map fun lp =>
    (lp, decide (slice b 0 14 = gamefreak ∧ slice b 44 58 = gamefreak))

/-- `build_trainer_card(link_player, wonder_card_id=0)`. -/
def buildTrainerCard (lp : LinkPlayer) : Bytes :=
  toBytes 1 (lp.gender % 2 ^ 8) ++ List.replicate 13 0 ++ toBytes 2 (lp.trainerId % 2 ^ 16) ++
    List.replicate 32 0 ++ encodeName lp.name ++ toBytes 1 (lp.version % 2 ^ 8) ++
    List.replicate 43 0

/-- The record as the other side reads it. -/
def sent (lp : LinkPlayer) : LinkPlayer :=
  { lp with
    name := (lp.name.filter fun ch => (encChar ch).isSome).take 7
    trainerId := lp.trainerId % 2 ^ 32
    progressFlags := lp.progressFlags % 2 ^ 8
    neverRead := lp.neverRead % 2 ^ 8
    progressFlagsCopy := lp.progressFlagsCopy % 2 ^ 8
    gender := lp.gender % 2 ^ 8
    linkType := lp.linkType % 2 ^ 32
    playerId := lp.playerId % 2 ^ 16
    language := lp.language % 2 ^ 16 }

end LinkPlayer

/-! ## Names are read back -/

/-- A character with a code is read back from it, and its code is not the terminator. -/
theorem encChar_spec {ch : Char} {b : UInt8} (h : encChar ch = some b) :
    b ≠ 0xFF ∧ decChar b = ch := by
  have htable : ∀ e ∈ decTable, e.1 ≠ 0xFF ∧ decChar e.1 = e.2 := by decide +kernel
  obtain ⟨e, he, rfl⟩ := Option.map_eq_some_iff.mp h
  have hch : e.2 = ch := by simpa using List.find?_some he
  obtain ⟨hne, hback⟩ := htable e (List.mem_of_find?_eq_some he)
  exact ⟨hne, hback.trans hch⟩

theorem map_decChar_encChar (s : Text) :
    (s.filterMap encChar).map decChar = s.filter fun ch => (encChar ch).isSome := by
  induction s with
  | nil => rfl
  | cons ch rest ih =>
    cases hcode : encChar ch with
    | none =>
      rw [List.filterMap_cons_none hcode, ih, List.filter_cons_of_neg (by rw [hcode]; decide)]
    | some b =>
      rw [List.filterMap_cons_some hcode, List.map_cons, (encChar_spec hcode).2, ih,
        List.filter_cons_of_pos (by rw [hcode]; rfl)]

theorem length_encodeName (s : Text) : (encodeName s).length = 8 := length_padded

/-- A name is read back as its characters that have a code, seven at most. -/
theorem decodeName_encodeName (s : Text) :
    decodeName (encodeName s) = (s.filter fun ch => (encChar ch).isSome).take 7 := by
  have hcodes : ∀ b ∈ (s.filterMap encChar).take 7, b ≠ 0xFF := by
    intro b hb
    obtain ⟨ch, -, hcode⟩ := List.mem_filterMap.mp (List.mem_of_mem_take hb)
    exact (encChar_spec hcode).1
  have hshort : ((s.filterMap encChar).take 7 ++ [(0xFF : UInt8)]).length ≤ 8 := by
    have := List.length_take_le 7 (s.filterMap encChar)
    rw [List.length_append, List.length_singleton]
    omega
  have hbytes : (encodeName s).takeWhile (· ≠ 0xFF) = (s.filterMap encChar).take 7 := by
    unfold encodeName padded
    rw [List.take_of_length_le hshort, List.append_assoc, List.takeWhile_append_of_pos,
      List.singleton_append, List.takeWhile_cons_of_neg]
    · exact List.append_nil _
    · simp
    · intro b hb
      exact decide_eq_true (hcodes b hb)
  rw [decodeName, hbytes, List.map_take, map_decChar_encChar]

/-- The characters without a code, and those beyond the seventh with one, leave no byte. -/
theorem encodeName_coded (s : Text) :
    encodeName ((s.filter fun ch => (encChar ch).isSome).take 7) = encodeName s := by
  have hcodes : ∀ (s : Text) (n : Nat),
      (((s.filter fun ch => (encChar ch).isSome).take n).filterMap encChar).take n =
        (s.filterMap encChar).take n := by
    intro s
    induction s with
    | nil => intro n; rw [List.filter_nil, List.take_nil]
    | cons ch rest ih =>
      intro n
      cases hcode : encChar ch with
      | none =>
        rw [List.filter_cons_of_neg (by rw [hcode]; decide), List.filterMap_cons_none hcode, ih]
      | some b =>
        rw [List.filter_cons_of_pos (by rw [hcode]; rfl), List.filterMap_cons_some hcode]
        cases n with
        | zero => rfl
        | succ n =>
          rw [List.take_succ_cons, List.take_succ_cons, List.filterMap_cons_some hcode,
            List.take_succ_cons, ih]
  rw [encodeName, hcodes, ← encodeName]

/-! ## The record is read back -/

section Slices

variable {a rest : Bytes} {start stop : Nat}

theorem slice_skip (h : a.length ≤ start) :
    slice (a ++ rest) start stop = slice rest (start - a.length) (stop - a.length) := by
  unfold slice
  rcases Nat.le_total a.length stop with hstop | hstop
  · rw [List.take_append, List.take_of_length_le hstop, List.drop_append,
      List.drop_eq_nil_of_le h, List.nil_append]
  · rw [Nat.sub_eq_zero_of_le hstop, List.take_zero, List.drop_nil]
    apply List.drop_eq_nil_of_le
    rw [List.length_take]
    omega

theorem slice_all (h : a.length = stop) : slice a 0 stop = a := by
  unfold slice
  rw [List.drop_zero, ← h, List.take_length]

theorem slice_first (h : a.length = stop) : slice (a ++ rest) 0 stop = a := by
  unfold slice
  rw [List.drop_zero, ← h, List.take_left]

end Slices

theorem toBytes_mod (k n : Nat) : toBytes k (n % 256 ^ k) = toBytes k n := by
  have hdigits : ∀ k n : Nat, digits 256 k (n % 256 ^ k) = digits 256 k n := by
    intro k
    induction k with
    | zero => intro n; rfl
    | succ k ih =>
      intro n
      unfold digits
      rw [pow_succ', Nat.mod_mul_right_mod, Nat.mod_mul_right_div_self, ih]
  rw [toBytes, hdigits, ← toBytes]

/-- The low bytes of a number. -/
theorem take_toBytes {k w : Nat} (h : k ≤ w) (n : Nat) : (toBytes w n).take k = toBytes k n := by
  have hdigits : ∀ k w n : Nat, k ≤ w → (digits 256 w n).take k = digits 256 k n := by
    intro k
    induction k with
    | zero => intro w n _; rfl
    | succ k ih =>
      intro w n hw
      cases w with
      | zero => omega
      | succ w =>
        unfold digits
        rw [List.take_succ_cons, ih w _ (by omega)]
  rw [toBytes, ← List.map_take, hdigits k w n h, ← toBytes]

namespace LinkPlayer

variable {lp : LinkPlayer}

/-- The bytes of a record are read as what was sent. -/
theorem unpack_pack {packed : Bytes} (h : lp.pack = some packed) :
    packed.length = 28 ∧ unpack packed = some lp.sent := by
  unfold pack at h
  split at h
  · next hwords =>
      cases h
      refine ⟨by simp [length_encodeName], ?_⟩
      have hlow : ∀ n k : Nat, ofBytes (toBytes k (n % 2 ^ (8 * k))) = n % 2 ^ (8 * k) := by
        intro n k
        apply ofBytes_toBytes
        rw [show (256 : Nat) = 2 ^ 8 from rfl, ← pow_mul]
        exact Nat.mod_lt _ (Nat.two_pow_pos _)
      unfold unpack
      rw [if_neg (by simp [length_encodeName])]
      simp (disch := simp [length_encodeName]) only [field, List.append_assoc, slice_skip,
        slice_first, slice_all, length_toBytes, length_encodeName, Nat.reduceSub,
        decodeName_encodeName]
      rw [hlow lp.trainerId 4, hlow lp.progressFlags 1, hlow lp.neverRead 1,
        hlow lp.progressFlagsCopy 1, hlow lp.gender 1, hlow lp.linkType 4, hlow lp.playerId 2,
        hlow lp.language 2, ofBytes_toBytes hwords.1, ofBytes_toBytes hwords.2]
      rfl
  · cases h

theorem sent_sent : lp.sent.sent = lp.sent := by
  have hname : ∀ s : Text, (((s.filter fun ch => (encChar ch).isSome).take 7).filter
      fun ch => (encChar ch).isSome).take 7 = (s.filter fun ch => (encChar ch).isSome).take 7 := by
    intro s
    rw [List.filter_eq_self.mpr fun ch hch => (List.mem_filter.mp (List.mem_of_mem_take hch)).2,
      List.take_take, Nat.min_self]
  simp only [sent, hname, Nat.mod_mod]

/-- The record as the other side reads it packs to the same bytes. -/
theorem pack_sent : lp.sent.pack = lp.pack := by
  simp only [pack, sent, encodeName_coded, Nat.mod_mod]

theorem buildBlock_sent : lp.sent.buildBlock = lp.buildBlock := by
  rw [buildBlock, pack_sent, ← buildBlock]

/-- A block is read whatever stands behind it. -/
theorem parseBlock_buildBlock {block : Bytes} (h : lp.buildBlock = some block) (residue : Bytes) :
    block.length = 60 ∧ parseBlock (block ++ residue) = some (lp.sent, true) := by
  obtain ⟨packed, hpacked, rfl⟩ := Option.map_eq_some_iff.mp h
  obtain ⟨hlength, hread⟩ := unpack_pack hpacked
  have hmagic : gamefreakMagic.length = 16 := rfl
  have hname : gamefreak.length = 14 := rfl
  refine ⟨by simp [hlength, hmagic], ?_⟩
  have hstruct : slice (gamefreakMagic ++ packed ++ gamefreakMagic ++ residue) 16 44 = packed := by
    simp (disch := simp [hlength, hmagic]) only [List.append_assoc, slice_skip, slice_first, hmagic,
      Nat.reduceSub]
  have hfirst : slice (gamefreakMagic ++ packed ++ gamefreakMagic ++ residue) 0 14 = gamefreak := by
    unfold gamefreakMagic
    simp (disch := simp [hname]) only [List.append_assoc, slice_first]
  have hsecond :
      slice (gamefreakMagic ++ packed ++ gamefreakMagic ++ residue) 44 58 = gamefreak := by
    rw [List.append_assoc, List.append_assoc, slice_skip (by simp [hmagic]), hmagic,
      slice_skip (by simp [hlength]), hlength]
    unfold gamefreakMagic
    simp (disch := simp [hname]) only [List.append_assoc, slice_first, Nat.reduceSub]
  unfold parseBlock
  rw [hstruct, hfirst, hsecond, hread]
  simp

/-- The card has the name, the public trainer id, the version and the gender of the block. -/
theorem buildTrainerCard_agrees {block : Bytes} (h : lp.buildBlock = some block) :
    slice lp.buildTrainerCard 0x30 0x38 = slice block 24 32 ∧
      slice lp.buildTrainerCard 0x0E 0x10 = slice block 20 22 ∧
      slice lp.buildTrainerCard 0x38 0x39 = slice block 16 17 ∧
      slice lp.buildTrainerCard 0 1 = slice block 35 36 := by
  obtain ⟨packed, hpacked, rfl⟩ := Option.map_eq_some_iff.mp h
  have hmagic : gamefreakMagic.length = 16 := rfl
  have hpart : ∀ (k w n : Nat) (rest : Bytes), k ≤ w →
      slice (toBytes w n ++ rest) 0 k = toBytes k n := by
    intro k w n rest hk
    unfold slice
    rw [List.drop_zero, List.take_append_of_le_length (by rw [length_toBytes]; exact hk),
      take_toBytes hk]
  have htrainer : toBytes 2 (lp.trainerId % 2 ^ 16) = toBytes 2 (lp.trainerId % 2 ^ 32) := by
    rw [← toBytes_mod 2 (lp.trainerId % 2 ^ 32), Nat.mod_mod_of_dvd _ (by decide)]
    rfl
  have hversion : toBytes 1 (lp.version % 2 ^ 8) = toBytes 1 lp.version := toBytes_mod 1 _
  unfold pack at hpacked
  split at hpacked
  · cases hpacked
    unfold buildTrainerCard
    refine ⟨?_, ?_, ?_, ?_⟩
    · simp (disch := simp [length_encodeName, hmagic]) only [List.append_assoc, slice_skip,
        slice_first, length_toBytes, List.length_replicate, hmagic, Nat.reduceSub]
    · simp (disch := simp [length_encodeName, hmagic]) only [List.append_assoc, slice_skip,
        length_toBytes, List.length_replicate, hmagic, Nat.reduceSub, hpart, htrainer]
    · simp (disch := simp [length_encodeName, hmagic]) only [List.append_assoc, slice_skip,
        length_toBytes, length_encodeName, List.length_replicate, hmagic, Nat.reduceSub, hpart,
        hversion]
    · simp (disch := simp [length_encodeName, hmagic]) only [List.append_assoc, slice_skip,
        slice_first, length_toBytes, length_encodeName, hmagic, Nat.reduceSub]
  · cases hpacked

/-- A player is built into a block of 60 bytes exactly if its version and its second field fit.
Whatever stands behind the block, the other side reads the player that was sent and both magics,
and that player is built into the same block again; the trainer card carries the same identity. -/
theorem link_player_codec (lp : LinkPlayer) :
    (lp.buildBlock.isSome ↔ lp.version < 2 ^ 16 ∧ lp.field2 < 2 ^ 16) ∧
    (∀ block residue, lp.buildBlock = some block → block.length = 60 ∧
      parseBlock (block ++ residue) = some (lp.sent, true) ∧
      slice lp.buildTrainerCard 0x30 0x38 = slice block 24 32 ∧
      slice lp.buildTrainerCard 0x0E 0x10 = slice block 20 22 ∧
      slice lp.buildTrainerCard 0x38 0x39 = slice block 16 17 ∧
      slice lp.buildTrainerCard 0 1 = slice block 35 36) ∧
    lp.buildTrainerCard.length = 100 ∧ lp.sent.buildBlock = lp.buildBlock ∧
    lp.sent.sent = lp.sent := by
  refine ⟨?_, fun block residue h => ?_, ?_, buildBlock_sent, sent_sent⟩
  · unfold buildBlock pack
    split
    · next hwords => exact ⟨fun _ => hwords, fun _ => rfl⟩
    · next hwords => exact ⟨(fun h => by simp at h), fun h => absurd h hwords⟩
  · obtain ⟨hlength, hparse⟩ := parseBlock_buildBlock h residue
    exact ⟨hlength, hparse, buildTrainerCard_agrees h⟩
  · simp [buildTrainerCard, length_encodeName]

end LinkPlayer

end SwitchTrade.Trade

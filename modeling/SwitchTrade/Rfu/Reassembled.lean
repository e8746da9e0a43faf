import SwitchTrade.Rfu.Block
import SwitchTrade.Rfu.Assembler
import SwitchTrade.Transition.Reassembly

/-!
# What the two assemblers report

`RecvBlock` and `RfuBlockAssembler` reassemble by two rules: the one goes on with an epoch of the
same number of fragments and writes a fragment that arrives again, the other goes on only for the
same owner too and keeps the fragment it has. Each simulates its rule (`RecvBlock.Holds`,
`RfuBlockAssembler.Tracks`), slot by slot and whatever else there is between the slots.
-/

namespace SwitchTrade.Rfu

open Chunks Reassembly

/-- The bytes of one fragment. -/
abbrev Fragment := { bytes : Bytes // bytes.length = fragBytes }

/-- The bytes of the fragments of a block. -/
def bytesOf (parts : List Fragment) : Bytes := parts.flatMap Subtype.val

theorem bytesOf_cons (part : Fragment) (parts : List Fragment) :
    bytesOf (part :: parts) = part.1 ++ bytesOf parts := List.flatMap_cons

theorem bytesOf_cons_ne (part : Fragment) (parts : List Fragment) :
    bytesOf (part :: parts) ≠ [] := by
  intro hnil
  have hlength := congrArg List.length hnil
  rw [bytesOf_cons, List.length_append, part.2, List.length_nil, fragBytes] at hlength
  omega

theorem bytesOf_inj {parts parts' : List Fragment} (h : bytesOf parts = bytesOf parts') :
    parts = parts' := by
  induction parts generalizing parts' with
  | nil =>
    cases parts' with
    | nil => rfl
    | cons part parts' => exact absurd h.symm (bytesOf_cons_ne part parts')
  | cons part parts ih =>
    cases parts' with
    | nil => exact absurd h (bytesOf_cons_ne part parts)
    | cons part' parts' =>
      obtain ⟨hpart, hparts⟩ := List.append_inj h (part.2.trans part'.2.symm)
      rw [Subtype.ext hpart, ih hparts]

/-- The fragments of a complete epoch, read one by one. -/
theorem flatMap_eq_bytesOf {e : Epoch Nat Fragment} (hcomplete : e.complete = true)
    {f : Nat → Bytes} (hf : ∀ i < e.count, ∀ frag, e.got i = some frag → f i = frag.1) :
    (List.range e.count).flatMap f = bytesOf e.parts := by
  have hsome := (Epoch.complete_iff.mp hcomplete).2
  obtain ⟨hlength, hparts⟩ := Epoch.getElem?_parts hsome
  have hmap : (List.range e.count).map f = e.parts.map Subtype.val := by
    apply List.ext_getElem?
    intro i
    rw [List.getElem?_map, List.getElem?_map]
    rcases Nat.lt_or_ge i e.count with hlt | hge
    · obtain ⟨frag, hfrag⟩ := Option.isSome_iff_exists.mp (hsome i hlt)
      rw [hparts i hlt, List.getElem?_range hlt, hfrag, Option.map_some, Option.map_some,
        hf i hlt frag hfrag]
    · rw [List.getElem?_eq_none (by rw [List.length_range]; exact hge),
        List.getElem?_eq_none (by omega)]
      rfl
  rw [bytesOf, List.flatMap_def, List.flatMap_def, hmap]

/-- The rule of `RecvBlock`. -/
def recvRule : Rule Nat := ⟨fun _ _ => true, fun _ => rfl, true⟩

/-- The rule of `RfuBlockAssembler`; the owner is the low seven bits of the raw byte. -/
def decoderRule : Rule Nat :=
  ⟨fun owner owner' => owner &&& 0x7F = owner' &&& 0x7F, fun _ => decide_eq_true rfl, false⟩

/-! ## The receiver -/

/-- The slot of an event; the key is the raw owner byte. -/
def slotOf : Event Nat Fragment → Slot
  | .start ownerRaw count => .init count ownerRaw
  | .part index frag => .block index frag.1

namespace RecvBlock

/-- The receiver holds an epoch. -/
structure HoldsEpoch (r : RecvBlock) (e : Epoch Nat Fragment) : Prop where
  receiving : r.receiving = true
  count : r.count = e.count
  done : r.done = e.complete
  flags : ∀ i, r.flags.testBit i = (decide (i < e.count) && (e.got i).isSome)
  length : r.buf.length = e.count * fragBytes
  buf : ∀ i < e.count, chunk fragBytes i r.buf =
    ((e.got i).map Subtype.val).getD (List.replicate fragBytes 0)

def Holds (r : RecvBlock) : Option (Epoch Nat Fragment) → Prop
  | none => r.receiving = false
  | some e => r.HoldsEpoch e

variable {r : RecvBlock}

theorem holdsEpoch_fresh {count : Nat} {owner : Option Nat} {ownerRaw epochs : Nat} :
    HoldsEpoch ⟨count, owner, 0, List.replicate (count * fragBytes) 0, true, false, -1, epochs⟩
      (.fresh ownerRaw count) where
  receiving := rfl
  count := rfl
  done := by
    cases count with
    | zero => rfl
    | succ count =>
      have hempty : ¬(Epoch.fresh ownerRaw (count + 1) : Epoch Nat Fragment).complete = true := by
        rw [Epoch.complete_iff]
        exact fun hall => nomatch hall.2 0 (Nat.succ_pos _)
      exact ((Bool.not_eq_true _).mp hempty).symm
  flags i := by simp [Epoch.fresh]
  length := List.length_replicate
  buf i hi := chunk_replicate hi

theorem Holds.onInit {e : Option (Epoch Nat Fragment)} (h : r.Holds e) {count ownerRaw : Nat} :
    (r.onInit count (some ownerRaw)).Holds (recvRule.feed e (.start ownerRaw count)) := by
  cases e with
  | none =>
    have hreceiving : r.receiving = false := h
    rw [RecvBlock.onInit, hreceiving]
    exact holdsEpoch_fresh
  | some e =>
    show (r.onInit count (some ownerRaw)).HoldsEpoch (recvRule.start (some e) ownerRaw count)
    have h : r.HoldsEpoch e := h
    rw [RecvBlock.onInit, h.receiving, h.done, h.count, Rule.start]
    by_cases hcount : e.count = count
    · cases hcomplete : e.complete with
      | true => simpa [hcomplete] using holdsEpoch_fresh
      | false =>
        have hsame : recvRule.same e.key ownerRaw = true := rfl
        simpa [hcount, hsame] using h
    · have hne : count ≠ e.count := Ne.symm hcount
      simpa [hcount, hne] using holdsEpoch_fresh

theorem allReceivedMask_iff {flags count : Nat} {got : Nat → Bool}
    (h : ∀ i, flags.testBit i = (decide (i < count) && got i)) :
    flags = allReceivedMask count ↔ ∀ i < count, got i = true := by
  have hmask : ∀ i, (allReceivedMask count).testBit i = decide (i < count) := by
    intro i
    rw [allReceivedMask, Nat.one_shiftLeft, Nat.testBit_two_pow_sub_one]
  constructor
  · rintro rfl i hi
    have hbit := h i
    rw [hmask, decide_eq_true hi, Bool.true_and] at hbit
    exact hbit.symm
  · intro hall
    apply Nat.eq_of_testBit_eq
    intro i
    rw [h, hmask]
    by_cases hi : i < count
    · rw [hall i hi, Bool.and_true]
    · rw [decide_eq_false hi, Bool.false_and]

theorem HoldsEpoch.onBlock {e : Epoch Nat Fragment} (h : r.HoldsEpoch e) {index : Nat}
    {frag : Fragment} : (r.onBlock index frag.1).HoldsEpoch (recvRule.put e index frag) := by
  have htake : frag.1.take fragBytes = frag.1 := List.take_of_length_le (Nat.le_of_eq frag.2)
  rw [RecvBlock.onBlock, h.receiving, h.count, htake]
  by_cases hindex : index < e.count
  · rw [Rule.put, if_pos hindex, if_neg (by simp [hindex])]
    have hend : index * fragBytes + fragBytes ≤ r.buf.length := by
      rw [h.length]
      exact end_le hindex
    have hflags : ∀ i, (r.flags ||| (1 <<< index)).testBit i = (decide (i < e.count) &&
        (if i = index then some frag else e.got i).isSome) := by
      intro i
      rw [Nat.testBit_or, h.flags, Nat.one_shiftLeft, Nat.testBit_two_pow]
      by_cases hi : i = index
      · simp [hi, hindex]
      · simp [hi, Ne.symm hi]
    exact {
      receiving := rfl
      count := rfl
      done := by
        have hall := allReceivedMask_iff hflags
        rw [Bool.eq_iff_iff, Epoch.complete_iff]
        show (if r.flags ||| (1 <<< index) = allReceivedMask e.count then true else r.done) = true ↔
          0 < e.count ∧ ∀ i < e.count, (if i = index then some frag else e.got i).isSome = true
        split
        · rename_i hfull
          exact iff_of_true rfl ⟨Nat.zero_lt_of_lt hindex, hall.mp hfull⟩
        · rename_i hpartial
          refine iff_of_false ?_ fun hboth => hpartial (hall.mpr hboth.2)
          rw [h.done, Epoch.complete_iff]
          rintro ⟨-, hgot⟩
          refine hpartial (hall.mpr fun i hi => ?_)
          split
          · rfl
          · exact hgot i hi
      flags := hflags
      length := (length_splice frag.2 hend).trans h.length
      buf := by
        intro i hi
        show chunk fragBytes i (splice fragBytes index frag.1 r.buf) =
          ((if i = index then some frag else e.got i).map Subtype.val).getD _
        by_cases heq : i = index
        · rw [heq, if_pos rfl, chunk_splice_self frag.2 (Nat.le_of_add_right_le hend)]
          rfl
        · rw [if_neg heq, chunk_splice_of_ne frag.2 hend heq]
          exact h.buf i hi }
  · rw [Rule.put, if_neg hindex, if_pos (by simp [hindex])]
    exact h

/-- The buffer of a complete epoch is its fragments in a row. -/
theorem HoldsEpoch.buf_eq {e : Epoch Nat Fragment} (h : r.HoldsEpoch e)
    (hcomplete : e.complete = true) : r.buf = bytesOf e.parts := by
  rw [← flatMap_chunk h.length]
  apply flatMap_eq_bytesOf hcomplete
  intro i hi frag hfrag
  rw [h.buf i hi, hfrag]
  rfl

/-- A slot does to the receiver what the rule does to the epoch. -/
theorem Holds.feed {e : Option (Epoch Nat Fragment)} (h : r.Holds e)
    (event : Event Nat Fragment) :
    (r.feed (slotOf event)).Holds (recvRule.feed e event) ∧
      r.completed (slotOf event) =
        (recvRule.completed e event).map fun parts => (parts.length, bytesOf parts) := by
  cases event with
  | start ownerRaw count => exact ⟨h.onInit, rfl⟩
  | part index frag =>
    cases e with
    | none =>
      have hreceiving : r.receiving = false := h
      have hsame : r.onBlock index frag.1 = r := by
        rw [RecvBlock.onBlock, hreceiving]
        rfl
      refine ⟨?_, ?_⟩
      · show (r.onBlock index frag.1).Holds none
        rw [hsame]
        exact h
      · show (if (r.onBlock index frag.1).done && !r.done then _ else none) = none
        rw [hsame, Bool.and_not_self]
        rfl
    | some e =>
      have h : r.HoldsEpoch e := h
      have hnext := @HoldsEpoch.onBlock r e h index frag
      refine ⟨hnext, ?_⟩
      show (if (r.onBlock index frag.1).done && !r.done then
          some ((r.onBlock index frag.1).count, (r.onBlock index frag.1).buf) else none) =
        (if !e.complete && (recvRule.put e index frag).complete then
          some (recvRule.put e index frag).parts else none).map _
      rw [hnext.done, h.done, Bool.and_comm]
      split
      · rename_i hboth
        have hcomplete := (Bool.and_eq_true_iff.mp hboth).2
        have hlength := (Epoch.getElem?_parts (Epoch.complete_iff.mp hcomplete).2).1
        rw [hnext.count, hnext.buf_eq hcomplete, ← hlength]
        rfl
      · rfl

end RecvBlock

/-! ## The decoder -/

/-- The command of an event. -/
def commandOf (mpid : Option Nat) : Event Nat Fragment → RfuCommand
  | .start ownerRaw count =>
    { opcode := opInit, multiplayerId := mpid, blockCount := some count,
      blockOwner := some (ownerRaw &&& 0x7F) }
  | .part index frag =>
    { opcode := opBlock, multiplayerId := mpid, blockIndex := some index, fragment := some frag.1 }

namespace RfuBlockAssembler

/-- What is active of a stream is an epoch. -/
structure HoldsEpoch (core : Nat × Option Nat × Bool × Dict Nat Bytes)
    (e : Epoch Nat Fragment) : Prop where
  count : core.1 = e.count
  owner : core.2.1 = some (e.key &&& 0x7F)
  complete : core.2.2.1 = e.complete
  fragments : ∀ i < e.count, core.2.2.2.get? i = (e.got i).map Subtype.val

def Tracks (a : RfuBlockAssembler) (stream : Stream) : Option (Epoch Nat Fragment) → Prop
  | none => a.view stream = none
  | some e => ∃ core, a.view stream = some core ∧ HoldsEpoch core e

variable {a : RfuBlockAssembler} {stream : Stream} {e : Option (Epoch Nat Fragment)}
  {sourceOffset : Option Nat}

theorem Tracks.frame {a' : RfuBlockAssembler} (h : a.Tracks stream e) (hframe : Frame a a' stream) :
    a'.Tracks stream e := by
  cases e with
  | none => exact hframe.view.trans h
  | some e =>
    obtain ⟨core, hview, hholds⟩ := h
    exact ⟨core, hframe.view.trans hview, hholds⟩

theorem fresh_not_complete {ownerRaw count : Nat} :
    (Epoch.fresh ownerRaw count : Epoch Nat Fragment).complete = false := by
  rw [← Bool.not_eq_true, Epoch.complete_iff]
  rintro ⟨hpos, hall⟩
  cases hall 0 hpos

theorem tracks_openBlock (h : a.Sound) {ownerRaw count : Nat} :
    (a.openBlock (commandOf stream.2 (.start ownerRaw count)) stream.1 sourceOffset).Tracks stream
      (some (.fresh ownerRaw count)) := by
  refine ⟨(count, some (ownerRaw &&& 0x7F), false, .empty), ?_, ?_⟩
  · have hown : stream = (stream.1, (commandOf stream.2 (.start ownerRaw count)).multiplayerId) :=
      rfl
    rw [view, h.activeBlock_openBlock, if_pos hown]
    rfl
  · exact ⟨rfl, rfl, fresh_not_complete.symm, fun _ _ => rfl⟩

theorem get?_addFragment {b : RfuBlock} {index : Nat} {fragment : Bytes} (i : Nat) :
    (b.addFragment index fragment sourceOffset).fragments.get? i =
      if i = index then (b.fragments.get? i).or (some fragment) else b.fragments.get? i := by
  show (if (b.fragments.get? index).isSome then b.fragments else _).get? i = _
  by_cases hi : i = index
  · subst hi
    rw [if_pos rfl]
    cases hget : b.fragments.get? i with
    | none =>
      rw [if_neg (by simp), Dict.get?_set_self, Option.none_or]
    | some old =>
      rw [if_pos (by simp), hget, Option.some_or]
  · rw [if_neg hi]
    split
    · rfl
    · exact Dict.get?_set_of_ne _ _ hi

/-- A fragment does to the block what the rule does to the epoch. -/
theorem HoldsEpoch.addFragment {b : RfuBlock} {e : Epoch Nat Fragment} (h : HoldsEpoch b.core e)
    {index : Nat} (hindex : index < e.count) {frag : Fragment} :
    HoldsEpoch (b.addFragment index frag.1 sourceOffset).core (decoderRule.put e index frag) := by
  have hput : decoderRule.put e index frag =
      { e with got := fun i => if i = index then (e.got i).or (some frag) else e.got i } :=
    if_pos hindex
  have hcount : b.expectedFragments = e.count := h.count
  have hfragments : ∀ i < e.count, (b.addFragment index frag.1 sourceOffset).fragments.get? i =
      (if i = index then (e.got i).or (some frag) else e.got i).map Subtype.val := by
    intro i hi
    have hget : b.fragments.get? i = (e.got i).map Subtype.val := h.fragments i hi
    rw [get?_addFragment, hget]
    split
    · cases e.got i <;> rfl
    · rfl
  rw [hput]
  refine ⟨h.count, h.owner, ?_, hfragments⟩
  show (b.addFragment index frag.1 sourceOffset).complete = _
  rw [Bool.eq_iff_iff, complete_addFragment, Epoch.complete_iff, hcount]
  refine and_congr_right fun _ => forall₂_congr fun i hi => ?_
  rw [hfragments i hi, Option.isSome_map]

/-- The payload of a complete block. -/
theorem HoldsEpoch.payload {b : RfuBlock} {e : Epoch Nat Fragment} (h : HoldsEpoch b.core e) :
    b.payload = if e.complete then some (bytesOf e.parts) else none := by
  have hcomplete : b.complete = e.complete := h.complete
  have hcount : b.expectedFragments = e.count := h.count
  rw [RfuBlock.payload, hcomplete, hcount]
  split
  · rename_i hall
    refine congrArg some (flatMap_eq_bytesOf hall fun i hi frag hfrag => ?_)
    have hget : b.fragments.get? i = (e.got i).map Subtype.val := h.fragments i hi
    rw [hget, hfrag]
    rfl
  · rfl

/-- What a command of a stream does to what is tracked. -/
structure Advances (a a' : RfuBlockAssembler) (stream : Stream) (e : Option (Epoch Nat Fragment))
    (completed : Option (List Fragment)) : Prop where
  sound : a'.Sound
  tracks : a'.Tracks stream e
  reported : a'.reported stream = a.reported stream ++ (completed.map bytesOf).toList

theorem Tracks.feedInit (h : a.Sound) (ht : a.Tracks stream e) {ownerRaw count : Nat} :
    Advances a (a.feedInit (commandOf stream.2 (.start ownerRaw count)) stream.1 sourceOffset)
      stream (decoderRule.feed e (.start ownerRaw count)) none := by
  have hopen : ∀ {a₁ : RfuBlockAssembler}, a₁.Sound → a₁.reported stream = a.reported stream →
      Advances a (a₁.openBlock (commandOf stream.2 (.start ownerRaw count)) stream.1 sourceOffset)
        stream (some (.fresh ownerRaw count)) none := by
    intro a₁ h₁ hreported
    refine ⟨h₁.openBlock, tracks_openBlock h₁, ?_⟩
    rw [h₁.reported_openBlock, hreported]
    exact (List.append_nil _).symm
  unfold RfuBlockAssembler.feedInit
  cases e with
  | none =>
    split
    · exact hopen h rfl
    · rename_i ref b hactive
      have hnone : a.activeBlock stream = none := Option.map_eq_none_iff.mp ht
      have hsome : a.activeBlock stream = some (ref, b) := hactive
      rw [hnone] at hsome
      cases hsome
  | some e =>
    obtain ⟨core, hview, hholds⟩ := ht
    obtain ⟨⟨ref, b⟩, hactive, rfl⟩ := Option.map_eq_some_iff.mp hview
    have hcount : b.expectedFragments = e.count := hholds.count
    have howner : b.owner = some (e.key &&& 0x7F) := hholds.owner
    have hcomplete : b.complete = e.complete := hholds.complete
    split
    · rename_i hnone
      have hnone : a.activeBlock stream = none := hnone
      rw [hactive] at hnone
      cases hnone
    · rename_i ref' b' hactive'
      have hactive' : a.activeBlock stream = some (ref', b') := hactive'
      rw [hactive] at hactive'
      cases hactive'
      show Advances a _ stream (some (decoderRule.start (some e) ownerRaw count)) none
      by_cases hsame : e.complete = false ∧ e.count = count ∧
          e.key &&& 0x7F = ownerRaw &&& 0x7F
      · obtain ⟨hopen', hcount', hkey⟩ := hsame
        rw [Rule.start_of_same hopen' hcount' (decide_eq_true hkey),
          if_pos (by simp [commandOf, hcomplete, hcount, howner, hopen', hcount', hkey])]
        have hframe := @Frame.touch a stream ref b
          { b with sourceOffsets := b.sourceOffsets ++ sourceOffset.toList } h _ hactive rfl rfl rfl
        refine ⟨hframe.sound, Tracks.frame ⟨_, hview, hholds⟩ hframe, ?_⟩
        exact hframe.reported.trans (List.append_nil _).symm
      · have hfresh : decoderRule.start (some e) ownerRaw count = .fresh ownerRaw count := by
          rw [Rule.start, if_neg]
          simpa [decoderRule, and_assoc] using hsame
        rw [hfresh, if_neg (by simpa [commandOf, hcomplete, hcount, howner, and_assoc] using hsame)]
        split
        · exact hopen h.issue rfl
        · exact hopen h rfl

theorem Tracks.feedBlock (h : a.Sound) (ht : a.Tracks stream e) {index : Nat} {frag : Fragment} :
    Advances a (a.feedBlock (commandOf stream.2 (.part index frag)) stream.1 sourceOffset)
      stream (decoderRule.feed e (.part index frag))
      (decoderRule.completed e (.part index frag)) := by
  unfold RfuBlockAssembler.feedBlock
  cases e with
  | none =>
    split
    · exact ⟨h.issue, ht, (List.append_nil _).symm⟩
    · rename_i ref b hactive
      have hnone : a.activeBlock stream = none := Option.map_eq_none_iff.mp ht
      have hsome : a.activeBlock stream = some (ref, b) := hactive
      rw [hnone] at hsome
      cases hsome
  | some e =>
    obtain ⟨core, hview, hholds⟩ := ht
    obtain ⟨⟨ref, b⟩, hactive, rfl⟩ := Option.map_eq_some_iff.mp hview
    split
    · rename_i hnone
      have hnone : a.activeBlock stream = none := hnone
      rw [hactive] at hnone
      cases hnone
    · rename_i ref' b' hactive'
      have hactive' : a.activeBlock stream = some (ref', b') := hactive'
      rw [hactive] at hactive'
      cases hactive'
      have hcount : b.expectedFragments = e.count := hholds.count
      obtain ⟨href, hb⟩ := activeBlock_eq_some.mp hactive
      by_cases hindex : index < e.count
      · have hindex' : index < b.expectedFragments := hcount ▸ hindex
        simp only [commandOf, Option.getD_some, if_pos hindex']
        have hgrows := @grows_addFragment b index frag.1 sourceOffset hindex' (h.filled ref b hb)
        obtain ⟨hsound, hreported⟩ := h.fill hb hgrows
        have hnext := @HoldsEpoch.addFragment sourceOffset b e hholds index hindex frag
        refine ⟨hsound, ⟨_, ?_, hnext⟩, ?_⟩
        · rw [view, settle_activeBlock, h.activeBlock_set hactive, if_pos rfl]
          rfl
        · have hstream : (b.addFragment index frag.1 sourceOffset).stream = stream := by
            obtain ⟨c, hc, hcs⟩ := h.active stream ref href
            rw [hb] at hc
            cases hc
            exact hcs
          have hcomplete : b.complete = e.complete := hholds.complete
          rw [hreported, hstream, hnext.payload, hcomplete]
          refine congrArg (a.reported stream ++ ·) ?_
          show _ = ((if !e.complete && (decoderRule.put e index frag).complete then
            some (decoderRule.put e index frag).parts else none).map bytesOf).toList
          cases e.complete <;> cases (decoderRule.put e index frag).complete <;> simp
      · have hindex' : ¬index < b.expectedFragments := hcount ▸ hindex
        simp only [commandOf, if_neg hindex']
        have hsame : decoderRule.put e index frag = e := if_neg hindex
        refine ⟨h.issue, ?_, ?_⟩
        · show Tracks _ stream (some (decoderRule.put e index frag))
          rw [hsame]
          exact ⟨_, hview, hholds⟩
        · show _ = a.reported stream ++ ((if !e.complete &&
            (decoderRule.put e index frag).complete then _ else none : Option _).map bytesOf).toList
          rw [hsame, Bool.not_and_self]
          exact (List.append_nil _).symm

end RfuBlockAssembler

end SwitchTrade.Rfu

import SwitchTrade.Rfu.Slot
import SwitchTrade.Transition.Dict

/-!
# The block assembler of the payload decoder

`RfuBlock` and `RfuBlockAssembler` of `tools/payload_decoder.py`. The block that is filled and the
one in `completed` are one object: blocks are kept in the order they were made in, and `_active` and
`completed` refer to them by number.
-/

namespace SwitchTrade.Rfu

structure ParseIssue where
  offset : Nat
  code : String
  detail : String
  deriving DecidableEq, Repr

/-- A direction and a multiplayer id. -/
abbrev Stream := String × Option Nat

structure RfuBlock where
  direction : String
  ordinal : Nat
  expectedFragments : Nat
  owner : Option Nat
  multiplayerId : Option Nat
  fragments : Dict Nat Bytes := .empty
  sourceOffsets : List Nat := []
  requestType : Option Nat := none
  complete : Bool := false

namespace RfuBlock

def stream (b : RfuBlock) : Stream := (b.direction, b.multiplayerId)

/-- `add_fragment`. -/
def addFragment (b : RfuBlock) (index : Nat) (fragment : Bytes) (sourceOffset : Option Nat) :
    RfuBlock :=
  let fragments :=
    if (b.fragments.get? index).isSome then b.fragments else b.fragments.set index fragment
  { b with
    fragments := fragments
    sourceOffsets := b.sourceOffsets ++ sourceOffset.toList
    complete := 0 < b.expectedFragments &&
      (List.range b.expectedFragments).all fun i => (fragments.get? i).isSome }

def missingIndices (b : RfuBlock) : List Nat :=
  (List.range b.expectedFragments).filter fun i => (b.fragments.get? i).isNone

def payload (b : RfuBlock) : Option Bytes :=
  if b.complete then
    some ((List.range b.expectedFragments).flatMap fun i => (b.fragments.get? i).getD [])
  else none

/-- A complete block has its fragments. -/
def Filled (b : RfuBlock) : Prop :=
  b.complete = true → ∀ i < b.expectedFragments, (b.fragments.get? i).isSome = true

/-- What decides how a block goes on. -/
def core (b : RfuBlock) : Nat × Option Nat × Bool × Dict Nat Bytes :=
  (b.expectedFragments, b.owner, b.complete, b.fragments)

/-- `==`; two dictionaries are equal whatever the order of their items. -/
def same (b c : RfuBlock) : Bool :=
  b.direction = c.direction && b.ordinal = c.ordinal &&
    b.expectedFragments = c.expectedFragments && b.owner = c.owner &&
    b.multiplayerId = c.multiplayerId &&
    (b.fragments.items.length = c.fragments.items.length &&
      b.fragments.items.all fun item => c.fragments.get? item.1 = some item.2) &&
    b.sourceOffsets = c.sourceOffsets && b.requestType = c.requestType && b.complete = c.complete

end RfuBlock

/-- A list of numbers as an f-string prints it. -/
def listText (xs : List Nat) : String := "[" ++ ", ".intercalate (xs.map toString) ++ "]"

structure RfuBlockAssembler where
  blocks : List RfuBlock := []
  active : Dict Stream Nat := .empty
  ordinals : Dict Stream Nat := .empty
  completed : List Nat := []
  issues : List ParseIssue := []

namespace RfuBlockAssembler

/-- `_active.get(stream)`. -/
def activeBlock (a : RfuBlockAssembler) (stream : Stream) : Option (Nat × RfuBlock) :=
  (a.active.get? stream).bind fun ref => (a.blocks[ref]?).map fun b => (ref, b)

def issue (a : RfuBlockAssembler) (sourceOffset : Option Nat) (code detail : String) :
    RfuBlockAssembler :=
  { a with issues := a.issues ++ [⟨sourceOffset.getD 0, code, detail⟩] }

/-- The next block of the stream. -/
def newBlock (a : RfuBlockAssembler) (command : RfuCommand) (direction : String)
    (sourceOffset : Option Nat) : RfuBlock where
  direction := direction
  ordinal := (a.ordinals.get? (direction, command.multiplayerId)).getD 0
  expectedFragments := command.blockCount.getD 0
  owner := command.blockOwner
  multiplayerId := command.multiplayerId
  sourceOffsets := sourceOffset.toList

/-- A new block for the stream. -/
def openBlock (a : RfuBlockAssembler) (command : RfuCommand) (direction : String)
    (sourceOffset : Option Nat) : RfuBlockAssembler :=
  let block := a.newBlock command direction sourceOffset
  { a with
    ordinals := a.ordinals.set block.stream (block.ordinal + 1)
    active := a.active.set block.stream a.blocks.length
    blocks := a.blocks ++ [block] }

/-- `feed` of a `SEND_BLOCK_INIT`. -/
def feedInit (a : RfuBlockAssembler) (command : RfuCommand) (direction : String)
    (sourceOffset : Option Nat) : RfuBlockAssembler :=
  match a.activeBlock (direction, command.multiplayerId) with
  | none => a.openBlock command direction sourceOffset
  | some (ref, b) =>
    if !b.complete && b.expectedFragments = command.blockCount.getD 0 &&
        b.owner = command.blockOwner then
      let b := { b with sourceOffsets := b.sourceOffsets ++ sourceOffset.toList }
      { a with blocks := a.blocks.set ref b }
    else if !b.complete then
      (a.issue sourceOffset "block_replaced_incomplete"
        (direction ++ " block " ++ toString b.ordinal ++ " missing " ++
          listText b.missingIndices)).openBlock command direction sourceOffset
    else a.openBlock command direction sourceOffset

/-- `block not in self.completed`, negated. -/
def isCompleted (a : RfuBlockAssembler) (b : RfuBlock) : Bool :=
  a.completed.any fun ref => (a.blocks[ref]?).any fun c => c.same b

/-- The block joins `completed` once it is complete. -/
def settle (a : RfuBlockAssembler) (ref : Nat) (b : RfuBlock) : RfuBlockAssembler :=
  if b.complete && !a.isCompleted b then { a with completed := a.completed ++ [ref] } else a

/-- `feed` of a `SEND_BLOCK`. -/
def feedBlock (a : RfuBlockAssembler) (command : RfuCommand) (direction : String)
    (sourceOffset : Option Nat) : RfuBlockAssembler :=
  match a.activeBlock (direction, command.multiplayerId) with
  | none => a.issue sourceOffset "fragment_without_init" direction
  | some (ref, b) =>
    let invalid (index : String) :=
      a.issue sourceOffset "invalid_fragment_index" (direction ++ ":" ++ index ++ " not in 0.." ++
        toString ((b.expectedFragments : Int) - 1))
    match command.blockIndex with
    | none => invalid "None"
    | some index =>
      if index < b.expectedFragments then
        let b := b.addFragment index (command.fragment.getD []) sourceOffset
        { a with blocks := a.blocks.set ref b }.settle ref b
      else invalid (toString index)

/-- `feed`. -/
def feed (a : RfuBlockAssembler) (command : RfuCommand) (direction : String)
    (sourceOffset : Option Nat) : RfuBlockAssembler :=
  if command.opcode = opInit then a.feedInit command direction sourceOffset
  else if command.opcode = opBlock then a.feedBlock command direction sourceOffset
  else if command.opcode = opReq then
    match a.activeBlock (direction, command.multiplayerId) with
    | none => a
    | some (ref, b) =>
      { a with blocks := a.blocks.set ref { b with requestType := command.requestType } }
  else a

/-- The payloads of the completed blocks of a stream. -/
def reported (a : RfuBlockAssembler) (stream : Stream) : List Bytes :=
  a.completed.filterMap fun ref =>
    (a.blocks[ref]?).bind fun b => if b.stream = stream then b.payload else none

/-! ## The objects -/

/-- Blocks are told apart by stream and ordinal, what is active is of its stream, `completed` has
the complete ones, and these have all their fragments. -/
structure Sound (a : RfuBlockAssembler) : Prop where
  numbered : ∀ (ref : Nat) (b : RfuBlock), a.blocks[ref]? = some b →
    b.ordinal < (a.ordinals.get? b.stream).getD 0
  apart : ∀ (ref ref' : Nat) (b b' : RfuBlock), a.blocks[ref]? = some b →
    a.blocks[ref']? = some b' → b.stream = b'.stream → b.ordinal = b'.ordinal → ref = ref'
  active : ∀ (stream : Stream) (ref : Nat), a.active.get? stream = some ref →
    ∃ b : RfuBlock, a.blocks[ref]? = some b ∧ b.stream = stream
  completed : ∀ ref : Nat, ref ∈ a.completed ↔
    ∃ b : RfuBlock, a.blocks[ref]? = some b ∧ b.complete = true
  filled : ∀ (ref : Nat) (b : RfuBlock), a.blocks[ref]? = some b → b.Filled

theorem same_self (b : RfuBlock) : b.same b = true := by
  have hitems :
      (b.fragments.items.all fun item => b.fragments.get? item.1 = some item.2) = true := by
    rw [List.all_eq_true]
    intro item hitem
    exact decide_eq_true (Dict.get?_eq_some.mpr hitem)
  simp only [RfuBlock.same, hitems, decide_true, Bool.and_self]

theorem stream_of_same {b c : RfuBlock} (h : b.same c = true) :
    b.stream = c.stream ∧ b.ordinal = c.ordinal := by
  simp only [RfuBlock.same, Bool.and_eq_true, decide_eq_true_eq] at h
  obtain ⟨⟨⟨⟨⟨⟨⟨⟨hdirection, hordinal⟩, -⟩, -⟩, hmpid⟩, -⟩, -⟩, -⟩, -⟩ := h
  exact ⟨Prod.ext hdirection hmpid, hordinal⟩

section

variable {a : RfuBlockAssembler} {stream : Stream} {ref : Nat} {b b' : RfuBlock}

theorem activeBlock_eq_some :
    a.activeBlock stream = some (ref, b) ↔
      a.active.get? stream = some ref ∧ a.blocks[ref]? = some b := by
  simp only [activeBlock, Option.bind_eq_some_iff, Option.map_eq_some_iff, Prod.mk.injEq]
  constructor
  · rintro ⟨_, hactive, _, hblock, rfl, rfl⟩
    exact ⟨hactive, hblock⟩
  · rintro ⟨hactive, hblock⟩
    exact ⟨ref, hactive, b, hblock, rfl, rfl⟩

theorem Sound.fresh : Sound {} where
  numbered _ _ h := nomatch h
  apart _ _ _ _ h := nomatch h
  active _ _ h := nomatch h
  completed _ := iff_of_false List.not_mem_nil fun ⟨_, h, _⟩ => nomatch h
  filled _ _ h := nomatch h

/-- An issue changes nothing else. -/
theorem Sound.issue (h : a.Sound) {sourceOffset : Option Nat} {code detail : String} :
    (a.issue sourceOffset code detail).Sound :=
  ⟨h.numbered, h.apart, h.active, h.completed, h.filled⟩

/-- A block is filled in place: it is of the same stream and ordinal, and complete if it was. -/
structure Grows (b b' : RfuBlock) : Prop where
  stream : b'.stream = b.stream
  ordinal : b'.ordinal = b.ordinal
  filled : b'.Filled
  complete : b.complete = true → b'.complete = true ∧ b'.payload = b.payload

theorem getElem?_set_grown (hb : a.blocks[ref]? = some b) (r : Nat) (c : RfuBlock) :
    (a.blocks.set ref b')[r]? = some c ↔
      r = ref ∧ c = b' ∨ r ≠ ref ∧ a.blocks[r]? = some c := by
  have hlt : ref < a.blocks.length := (List.getElem?_eq_some_iff.mp hb).1
  by_cases hr : r = ref
  · subst hr
    rw [List.getElem?_set_self hlt]
    simp [eq_comm]
  · rw [List.getElem?_set_ne (Ne.symm hr)]
    simp [hr]

/-- What `completed` says of a block after it was filled. -/
theorem Sound.isCompleted_set (h : a.Sound) (hb : a.blocks[ref]? = some b) (hgrows : Grows b b') :
    ({ a with blocks := a.blocks.set ref b' } : RfuBlockAssembler).isCompleted b' = b.complete := by
  rw [Bool.eq_iff_iff, isCompleted, List.any_eq_true]
  constructor
  · rintro ⟨r, hr, hsame⟩
    obtain ⟨c, hc, hcomplete⟩ := (h.completed r).mp hr
    have hr' : r = ref := by
      by_contra hne
      have hc' := (@getElem?_set_grown a ref b b' hb r c).mpr (.inr ⟨hne, hc⟩)
      rw [Option.any_eq_true] at hsame
      obtain ⟨c', hget, hsame⟩ := hsame
      rw [hc'] at hget
      cases hget
      obtain ⟨hstream, hordinal⟩ := stream_of_same hsame
      exact hne (h.apart r ref c b hc hb (hstream.trans hgrows.stream)
        (hordinal.trans hgrows.ordinal))
    subst hr'
    rw [hb] at hc
    cases hc
    exact hcomplete
  · intro hcomplete
    refine ⟨ref, (h.completed ref).mpr ⟨b, hb, hcomplete⟩, ?_⟩
    rw [(getElem?_set_grown hb ref b').mpr (.inl ⟨rfl, rfl⟩)]
    exact same_self b'

/-- The objects after a block was filled, whatever is in `completed`. -/
theorem Sound.set (h : a.Sound) (hb : a.blocks[ref]? = some b) (hgrows : Grows b b')
    {completed : List Nat} (hcompleted : ∀ r, r ∈ completed ↔
      r ∈ a.completed ∨ r = ref ∧ b'.complete = true) :
    ({ a with blocks := a.blocks.set ref b', completed } : RfuBlockAssembler).Sound where
  numbered r c hc := by
    rcases (getElem?_set_grown hb r c).mp hc with ⟨rfl, rfl⟩ | ⟨-, hc⟩
    · rw [hgrows.stream, hgrows.ordinal]
      exact h.numbered r b hb
    · exact h.numbered r c hc
  apart r r' c c' hc hc' hstream hordinal := by
    rcases (getElem?_set_grown hb r c).mp hc with ⟨hr, hcb⟩ | ⟨-, hget⟩
    · rcases (getElem?_set_grown hb r' c').mp hc' with ⟨hr', -⟩ | ⟨-, hget'⟩
      · rw [hr, hr']
      · rw [hcb] at hstream hordinal
        rw [hr]
        exact h.apart ref r' b c' hb hget' (hgrows.stream.symm.trans hstream)
          (hgrows.ordinal.symm.trans hordinal)
    · rcases (getElem?_set_grown hb r' c').mp hc' with ⟨hr', hcb⟩ | ⟨-, hget'⟩
      · rw [hcb] at hstream hordinal
        rw [hr']
        exact h.apart r ref c b hget hb (hstream.trans hgrows.stream)
          (hordinal.trans hgrows.ordinal)
      · exact h.apart r r' c c' hget hget' hstream hordinal
  active stream r hr := by
    obtain ⟨c, hc, hstream⟩ := h.active stream r hr
    by_cases hne : r = ref
    · subst hne
      rw [hb] at hc
      cases hc
      exact ⟨b', (getElem?_set_grown hb r b').mpr (.inl ⟨rfl, rfl⟩), hgrows.stream.trans hstream⟩
    · exact ⟨c, (getElem?_set_grown hb r c).mpr (.inr ⟨hne, hc⟩), hstream⟩
  completed r := by
    rw [hcompleted, h.completed]
    constructor
    · rintro (⟨c, hc, hcomplete⟩ | ⟨rfl, hcomplete⟩)
      · by_cases hne : r = ref
        · subst hne
          rw [hb] at hc
          cases hc
          exact ⟨b', (getElem?_set_grown hb r b').mpr (.inl ⟨rfl, rfl⟩),
            (hgrows.complete hcomplete).1⟩
        · exact ⟨c, (getElem?_set_grown hb r c).mpr (.inr ⟨hne, hc⟩), hcomplete⟩
      · exact ⟨b', (getElem?_set_grown hb r b').mpr (.inl ⟨rfl, rfl⟩), hcomplete⟩
    · rintro ⟨c, hc, hcomplete⟩
      rcases (getElem?_set_grown hb r c).mp hc with ⟨rfl, rfl⟩ | ⟨-, hc⟩
      · exact .inr ⟨rfl, hcomplete⟩
      · exact .inl ⟨c, hc, hcomplete⟩
  filled r c hc := by
    rcases (getElem?_set_grown hb r c).mp hc with ⟨-, rfl⟩ | ⟨-, hget⟩
    · exact hgrows.filled
    · exact h.filled r c hget

/-- What was reported stays as it is when a block is filled. -/
theorem Sound.reported_set (h : a.Sound) (hb : a.blocks[ref]? = some b) (hgrows : Grows b b') :
    ({ a with blocks := a.blocks.set ref b' } : RfuBlockAssembler).reported stream =
      a.reported stream := by
  apply List.filterMap_congr
  intro r hr
  obtain ⟨c, hc, hcomplete⟩ := (h.completed r).mp hr
  by_cases hne : r = ref
  · subst hne
    rw [hb] at hc
    cases hc
    rw [(getElem?_set_grown hb r b').mpr (.inl ⟨rfl, rfl⟩), hb, Option.bind_some, Option.bind_some,
      hgrows.stream, (hgrows.complete hcomplete).2]
  · rw [(getElem?_set_grown hb r c).mpr (.inr ⟨hne, hc⟩), hc]

/-- Filling a block keeps the objects in order, and reports it if that completes it. -/
theorem Sound.fill (h : a.Sound) (hb : a.blocks[ref]? = some b) (hgrows : Grows b b') :
    (({ a with blocks := a.blocks.set ref b' } : RfuBlockAssembler).settle ref b').Sound ∧
      ∀ stream, (({ a with blocks := a.blocks.set ref b' } : RfuBlockAssembler).settle
          ref b').reported stream =
        a.reported stream ++
          if b'.stream = stream ∧ b.complete = false then b'.payload.toList else [] := by
  rw [settle, h.isCompleted_set hb hgrows]
  cases hold : b.complete with
  | true =>
    have hmem : ref ∈ a.completed := (h.completed ref).mpr ⟨b, hb, hold⟩
    rw [Bool.not_true, Bool.and_false, if_neg Bool.false_ne_true]
    refine ⟨h.set hb hgrows fun r => ?_, fun stream => ?_⟩
    · exact ⟨.inl, fun hr => hr.elim id fun hr => hr.1 ▸ hmem⟩
    · rw [h.reported_set hb hgrows, if_neg (by simp), List.append_nil]
  | false =>
    rw [Bool.not_false, Bool.and_true]
    cases hnew : b'.complete with
    | true =>
      rw [if_pos rfl]
      refine ⟨h.set hb hgrows fun r => ?_, fun stream => ?_⟩
      · rw [List.mem_append, List.mem_singleton, hnew, and_iff_left rfl]
      · rw [reported, List.filterMap_append]
        refine congrArg₂ (· ++ ·) (h.reported_set hb hgrows) ?_
        show List.filterMap _ [ref] = _
        have hget := (@getElem?_set_grown a ref b b' hb ref b').mpr (.inl ⟨rfl, rfl⟩)
        by_cases hstream : b'.stream = stream
        · have hpayload : ∃ payload, b'.payload = some payload := ⟨_, if_pos hnew⟩
          obtain ⟨payload, hpayload⟩ := hpayload
          simp [hget, hstream, hpayload]
        · simp [hget, hstream]
    | false =>
      have hpayload : b'.payload = none := by
        rw [RfuBlock.payload, hnew]
        rfl
      rw [if_neg Bool.false_ne_true]
      refine ⟨h.set hb hgrows fun r => ?_, fun stream => ?_⟩
      · exact ⟨.inl, fun hr => hr.elim id fun hr => nomatch hnew.symm.trans hr.2⟩
      · rw [h.reported_set hb hgrows, hpayload]
        split <;> exact (List.append_nil _).symm

@[simp] theorem settle_activeBlock :
    (a.settle ref b).activeBlock stream = a.activeBlock stream := by
  unfold settle
  split <;> rfl

/-- Filling a block changes what is active of its stream only. -/
theorem Sound.activeBlock_set (h : a.Sound) (hactive : a.activeBlock stream = some (ref, b))
    {completed : List Nat} (other : Stream) :
    ({ a with blocks := a.blocks.set ref b', completed } : RfuBlockAssembler).activeBlock other =
      if other = stream then some (ref, b') else a.activeBlock other := by
  obtain ⟨href, hb⟩ := activeBlock_eq_some.mp hactive
  split
  · rename_i hother
    rw [hother, activeBlock_eq_some]
    exact ⟨href, (getElem?_set_grown hb ref b').mpr (.inl ⟨rfl, rfl⟩)⟩
  · rename_i hother
    cases hget : a.active.get? other with
    | none => simp [activeBlock, hget]
    | some r =>
      obtain ⟨c, hc, hstream⟩ := h.active other r hget
      have hne : r ≠ ref := by
        rintro rfl
        obtain ⟨b₁, hb₁, hstream₁⟩ := h.active stream r href
        rw [hc] at hb₁
        cases hb₁
        exact hother (hstream.symm.trans hstream₁)
      have hset := (@getElem?_set_grown a ref b b' hb r c).mpr (.inr ⟨hne, hc⟩)
      simp [activeBlock, hget, hset, hc]

/-- An update that leaves a block as complete as it was. -/
theorem Sound.touch (h : a.Sound) (hb : a.blocks[ref]? = some b) (hgrows : Grows b b')
    (hcomplete : b'.complete = b.complete) :
    ({ a with blocks := a.blocks.set ref b' } : RfuBlockAssembler).Sound := by
  refine h.set hb hgrows fun r => ?_
  constructor
  · exact .inl
  · rintro (hr | ⟨rfl, hr⟩)
    · exact hr
    · exact (h.completed r).mpr ⟨b, hb, hcomplete ▸ hr⟩

section

variable {command : RfuCommand} {direction : String} {sourceOffset : Option Nat}

theorem openBlock_blocks :
    (a.openBlock command direction sourceOffset).blocks =
      a.blocks ++ [a.newBlock command direction sourceOffset] := rfl

theorem getElem?_openBlock (r : Nat) (c : RfuBlock) :
    (a.openBlock command direction sourceOffset).blocks[r]? = some c ↔
      a.blocks[r]? = some c ∨
        r = a.blocks.length ∧ c = a.newBlock command direction sourceOffset := by
  rw [openBlock_blocks]
  rcases Nat.lt_trichotomy r a.blocks.length with hlt | heq | hgt
  · rw [List.getElem?_append_left hlt]
    have hne : r ≠ a.blocks.length := Nat.ne_of_lt hlt
    simp [hne]
  · have hnone : a.blocks[r]? = none := List.getElem?_eq_none (Nat.le_of_eq heq.symm)
    rw [hnone, heq, List.getElem?_append_right (Nat.le_refl _), Nat.sub_self]
    simp [eq_comm]
  · have hnone : a.blocks[r]? = none := List.getElem?_eq_none hgt.le
    have hne : r ≠ a.blocks.length := Nat.ne_of_gt hgt
    rw [hnone, List.getElem?_eq_none (by rw [List.length_append]; exact hgt)]
    simp [hne]

/-- The active blocks after a new one was made. -/
theorem Sound.activeBlock_openBlock (h : a.Sound) (other : Stream) :
    (a.openBlock command direction sourceOffset).activeBlock other =
      if other = (direction, command.multiplayerId) then
        some (a.blocks.length, a.newBlock command direction sourceOffset)
      else a.activeBlock other := by
  have hset : (a.openBlock command direction sourceOffset).active =
      a.active.set (direction, command.multiplayerId) a.blocks.length := rfl
  split
  · rename_i hother
    rw [hother, activeBlock_eq_some, hset, Dict.get?_set_self, getElem?_openBlock]
    exact ⟨rfl, .inr ⟨rfl, rfl⟩⟩
  · rename_i hother
    cases hget : a.active.get? other with
    | none => simp [activeBlock, hset, Dict.get?_set_of_ne _ _ hother, hget]
    | some r =>
      obtain ⟨c, hc, -⟩ := h.active other r hget
      have hopen := (@getElem?_openBlock a command direction sourceOffset r c).mpr (.inl hc)
      simp [activeBlock, hset, Dict.get?_set_of_ne _ _ hother, hget, hc, hopen]

theorem Sound.openBlock (h : a.Sound) :
    (a.openBlock command direction sourceOffset).Sound := by
  let new := a.newBlock command direction sourceOffset
  have hnumbered : ∀ (r : Nat) (c : RfuBlock), a.blocks[r]? = some c → c.stream = new.stream →
      c.ordinal < new.ordinal := by
    intro r c hc hstream
    have hlt := h.numbered r c hc
    rw [hstream] at hlt
    exact hlt
  exact {
    numbered := by
      intro r c hc
      show c.ordinal < ((a.ordinals.set new.stream (new.ordinal + 1)).get? c.stream).getD 0
      rcases (getElem?_openBlock r c).mp hc with hget | ⟨-, rfl⟩
      · by_cases hstream : c.stream = new.stream
        · rw [hstream, Dict.get?_set_self]
          exact (hnumbered r c hget hstream).trans (Nat.lt_succ_self _)
        · rw [Dict.get?_set_of_ne _ _ hstream]
          exact h.numbered r c hget
      · rw [Dict.get?_set_self]
        exact Nat.lt_succ_self _
    apart := by
      intro r r' c c' hc hc' hstream hordinal
      rcases (getElem?_openBlock r c).mp hc with hget | ⟨hr, rfl⟩
      · rcases (getElem?_openBlock r' c').mp hc' with hget' | ⟨-, rfl⟩
        · exact h.apart r r' c c' hget hget' hstream hordinal
        · exact absurd hordinal (Nat.ne_of_lt (hnumbered r c hget hstream))
      · rcases (getElem?_openBlock r' c').mp hc' with hget' | ⟨hr', -⟩
        · exact absurd hordinal.symm (Nat.ne_of_lt (hnumbered r' c' hget' hstream.symm))
        · exact hr.trans hr'.symm
    active := by
      intro stream r hr
      have hr : (a.active.set new.stream a.blocks.length).get? stream = some r := hr
      by_cases hstream : stream = new.stream
      · subst hstream
        rw [Dict.get?_set_self] at hr
        cases hr
        exact ⟨new, (getElem?_openBlock _ _).mpr (.inr ⟨rfl, rfl⟩), rfl⟩
      · rw [Dict.get?_set_of_ne _ _ hstream] at hr
        obtain ⟨c, hc, hcs⟩ := h.active stream r hr
        exact ⟨c, (getElem?_openBlock r c).mpr (.inl hc), hcs⟩
    completed := by
      intro r
      refine (h.completed r).trans ⟨?_, ?_⟩
      · rintro ⟨c, hc, hcomplete⟩
        exact ⟨c, (getElem?_openBlock r c).mpr (.inl hc), hcomplete⟩
      · rintro ⟨c, hc, hcomplete⟩
        rcases (getElem?_openBlock r c).mp hc with hget | ⟨-, rfl⟩
        · exact ⟨c, hget, hcomplete⟩
        · cases hcomplete
    filled := by
      intro r c hc
      rcases (getElem?_openBlock r c).mp hc with hget | ⟨-, rfl⟩
      · exact h.filled r c hget
      · exact nofun }

theorem Sound.reported_openBlock (h : a.Sound) :
    (a.openBlock command direction sourceOffset).reported stream = a.reported stream := by
  apply List.filterMap_congr
  intro r hr
  obtain ⟨c, hc, -⟩ := (h.completed r).mp hr
  rw [(getElem?_openBlock r c).mpr (.inl hc), hc]

end

/-! ## What a command leaves of another stream -/

/-- What is active of a stream. -/
def view (a : RfuBlockAssembler) (stream : Stream) :
    Option (Nat × Option Nat × Bool × Dict Nat Bytes) :=
  (a.activeBlock stream).map fun active => active.2.core

/-- The stream is as it was. -/
structure Frame (a a' : RfuBlockAssembler) (stream : Stream) : Prop where
  sound : a'.Sound
  view : a'.view stream = a.view stream
  reported : a'.reported stream = a.reported stream

theorem Frame.refl (h : a.Sound) : Frame a a stream := ⟨h, rfl, rfl⟩

theorem Frame.trans {a' a'' : RfuBlockAssembler} (h : Frame a a' stream)
    (h' : Frame a' a'' stream) : Frame a a'' stream :=
  ⟨h'.sound, h'.view.trans h.view, h'.reported.trans h.reported⟩

theorem Frame.issue (h : a.Sound) {sourceOffset : Option Nat} {code detail : String} :
    Frame a (a.issue sourceOffset code detail) stream := ⟨h.issue, rfl, rfl⟩

theorem grows_of_core {c c' : RfuBlock} (hfilled : c.Filled) (hstream : c'.stream = c.stream)
    (hordinal : c'.ordinal = c.ordinal) (hcore : c'.core = c.core) : Grows c c' := by
  simp only [RfuBlock.core, Prod.mk.injEq] at hcore
  obtain ⟨hexpected, -, hcomplete, hfragments⟩ := hcore
  refine ⟨hstream, hordinal, ?_, fun h => ⟨hcomplete.trans h, ?_⟩⟩
  · rw [RfuBlock.Filled, hcomplete, hexpected, hfragments]
    exact hfilled
  · rw [RfuBlock.payload, RfuBlock.payload, hcomplete, hexpected, hfragments]

theorem Frame.touch (h : a.Sound) {own : Stream} (hactive : a.activeBlock own = some (ref, b))
    (hstream : b'.stream = b.stream) (hordinal : b'.ordinal = b.ordinal)
    (hcore : b'.core = b.core) :
    Frame a { a with blocks := a.blocks.set ref b' } stream := by
  obtain ⟨-, hb⟩ := activeBlock_eq_some.mp hactive
  have hgrows := grows_of_core (h.filled ref b hb) hstream hordinal hcore
  have hcomplete : b'.complete = b.complete := congrArg (fun core => core.2.2.1) hcore
  refine ⟨h.touch hb hgrows hcomplete, ?_, h.reported_set hb hgrows⟩
  rw [RfuBlockAssembler.view, h.activeBlock_set hactive]
  split
  · rename_i hown
    rw [RfuBlockAssembler.view, hown, hactive]
    exact congrArg some hcore
  · rfl

theorem Frame.open (h : a.Sound) {command : RfuCommand} {direction : String}
    {sourceOffset : Option Nat} (hother : stream ≠ (direction, command.multiplayerId)) :
    Frame a (a.openBlock command direction sourceOffset) stream := by
  refine ⟨h.openBlock, ?_, h.reported_openBlock⟩
  rw [RfuBlockAssembler.view, h.activeBlock_openBlock, if_neg hother]
  rfl

section

variable {index : Nat} {fragment : Bytes} {sourceOffset : Option Nat}

theorem complete_addFragment :
    (b.addFragment index fragment sourceOffset).complete = true ↔ 0 < b.expectedFragments ∧
      ∀ i < b.expectedFragments,
        ((b.addFragment index fragment sourceOffset).fragments.get? i).isSome = true := by
  show (decide (0 < b.expectedFragments) && (List.range b.expectedFragments).all fun i =>
    ((b.addFragment index fragment sourceOffset).fragments.get? i).isSome) = true ↔ _
  rw [Bool.and_eq_true, decide_eq_true_eq, List.all_eq_true]
  simp only [List.mem_range]

theorem grows_addFragment (hindex : index < b.expectedFragments) (hfilled : b.Filled) :
    Grows b (b.addFragment index fragment sourceOffset) := by
  refine ⟨rfl, rfl, fun h => (complete_addFragment.mp h).2, fun h => ?_⟩
  have hkept : (b.addFragment index fragment sourceOffset).fragments = b.fragments :=
    if_pos (hfilled h index hindex)
  have hstill : (b.addFragment index fragment sourceOffset).complete = true := by
    rw [complete_addFragment, hkept]
    exact ⟨Nat.zero_lt_of_lt hindex, hfilled h⟩
  refine ⟨hstill, ?_⟩
  rw [RfuBlock.payload, RfuBlock.payload, hstill, h, hkept]
  rfl

/-- A fragment of one stream leaves the others. -/
theorem Frame.fill (h : a.Sound) {own : Stream} (hactive : a.activeBlock own = some (ref, b))
    (hgrows : Grows b b') (hother : stream ≠ own) :
    Frame a (({ a with blocks := a.blocks.set ref b' } : RfuBlockAssembler).settle ref b')
      stream := by
  obtain ⟨href, hb⟩ := activeBlock_eq_some.mp hactive
  obtain ⟨hsound, hreported⟩ := h.fill hb hgrows
  have hown : b'.stream = own := by
    obtain ⟨c, hc, hstream⟩ := h.active own ref href
    rw [hb] at hc
    cases hc
    exact hgrows.stream.trans hstream
  refine ⟨hsound, ?_, ?_⟩
  · rw [RfuBlockAssembler.view, settle_activeBlock, h.activeBlock_set hactive, if_neg hother]
    rfl
  · rw [hreported, hown, if_neg fun hboth => hother hboth.1.symm, List.append_nil]

end

/-- A command of another stream, or one that carries no part of a block. -/
theorem Frame.feed (h : a.Sound) {command : RfuCommand} {direction : String}
    {sourceOffset : Option Nat} (hother : stream ≠ (direction, command.multiplayerId) ∨
      command.opcode ≠ opInit ∧ command.opcode ≠ opBlock) :
    Frame a (a.feed command direction sourceOffset) stream := by
  unfold RfuBlockAssembler.feed
  split
  · rename_i hop
    have hstream := hother.resolve_right fun hne => hne.1 hop
    unfold feedInit
    split
    · exact .open h hstream
    · rename_i ref b hactive
      split
      · exact .touch h hactive rfl rfl rfl
      · split
        · exact .trans (.issue h) (.open h.issue hstream)
        · exact .open h hstream
  · split
    · rename_i hop
      have hstream := hother.resolve_right fun hne => hne.2 hop
      unfold feedBlock
      split
      · exact .issue h
      · rename_i ref b hactive
        obtain ⟨-, hb⟩ := activeBlock_eq_some.mp hactive
        simp only
        split
        · exact .issue h
        · split
          · rename_i index hindex hlt
            exact .fill h hactive (grows_addFragment hlt (h.filled ref b hb)) hstream
          · exact .issue h
    · split
      · split
        · exact .refl h
        · rename_i ref b hactive
          exact .touch h hactive rfl rfl rfl
      · exact .refl h

end

end RfuBlockAssembler

end SwitchTrade.Rfu

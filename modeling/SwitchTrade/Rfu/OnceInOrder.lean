import SwitchTrade.Rfu.Reassembled

/-!
# Every block once and in order

Blocks are sent one after the other on a stream, each as an INIT and then its fragments, which may
arrive in any order; copies may arrive again, but all that belongs to a block arrives before the
first INIT of the next one. Whatever slots of other peers, requests and other commands there are in
between, the two assemblers report a block with the last of its fragments, with the bytes that were
sent, and nothing else, as long as an INIT that arrives again after the block was complete does no
harm (`blocks_reported_iff`).
-/

namespace SwitchTrade.Rfu

open Chunks Reassembly

/-! ## Slots on the wire -/

/-- A slot that carries an event. -/
def Wire : Event Nat Fragment → Bytes → Prop
  | .start key count, raw =>
    ∃ tag < 8, ∃ owner, ownerRaw owner = key ∧ raw = buildSlot tag (initWords count owner)
  | .part index frag, raw => ∃ tag < 8, raw = buildSlot tag (sendBlockWords index frag.1)

/-- The entries carry the events in order, and of their own stream nothing but quiet slots in
between. -/
inductive Carries {ε : Type} (own : ε → Prop) (raw : ε → Bytes) :
    List (Event Nat Fragment) → List ε → Prop
  | nil : Carries own raw [] []
  | sent {event : Event Nat Fragment} {events : List (Event Nat Fragment)} {entry : ε}
      {entries : List ε} (mine : own entry) (wire : Wire event (raw entry))
      (rest : Carries own raw events entries) :
      Carries own raw (event :: events) (entry :: entries)
  | between {events : List (Event Nat Fragment)} {entry : ε} {entries : List ε}
      (other : ¬own entry ∨ Quiet (raw entry)) (rest : Carries own raw events entries) :
      Carries own raw events (entry :: entries)

/-- An event whose numbers fit their fields. -/
def Fits : Event Nat Fragment → Prop
  | .start _ count => count < 2 ^ 16
  | .part index _ => index < 32

theorem parseSlot_of_wire {event : Event Nat Fragment} {raw : Bytes} (h : Wire event raw)
    (hfits : Fits event) : parseSlot raw = some (slotOf event) := by
  cases event with
  | start key count =>
    obtain ⟨tag, htag, owner, rfl, rfl⟩ := h
    exact parseSlot_initWords htag hfits
  | part index frag =>
    obtain ⟨tag, htag, rfl⟩ := h
    have hwhole : padded 12 0 frag.1 = frag.1 := padded_of_length frag.2
    rw [parseSlot_sendBlockWords htag hfits, hwhole]
    rfl

theorem parseCommand_of_wire {event : Event Nat Fragment} {raw : Bytes} {mpid : Option Nat}
    (h : Wire event raw) (hfits : Fits event) : parseCommand raw mpid = commandOf mpid event := by
  cases event with
  | start key count =>
    obtain ⟨tag, htag, owner, rfl, rfl⟩ := h
    exact parseCommand_initWords htag hfits
  | part index frag =>
    obtain ⟨tag, htag, rfl⟩ := h
    have hwhole : padded 12 0 frag.1 = frag.1 := padded_of_length frag.2
    rw [parseCommand_sendBlockWords htag hfits, hwhole]
    rfl

/-- A quiet slot is a request, another command or idle. -/
theorem parseSlot_of_quiet {raw : Bytes} (h : Quiet raw) :
    parseSlot raw = none ∨ (∃ reqtype, parseSlot raw = some (.req reqtype)) ∨
      ∃ op, parseSlot raw = some (.other op) := by
  obtain ⟨-, hinit, hblock⟩ := h
  unfold parseSlot
  split
  · exact .inl rfl
  · split
    · exact .inl rfl
    · simp only
      rw [if_neg hinit, if_neg hblock]
      split
      · exact .inr (.inl ⟨_, rfl⟩)
      · exact .inr (.inr ⟨_, rfl⟩)

theorem opcode_of_quiet {raw : Bytes} {mpid : Option Nat} (h : Quiet raw) :
    (parseCommand raw mpid).opcode ≠ opInit ∧ (parseCommand raw mpid).opcode ≠ opBlock := by
  obtain ⟨hlength, hinit, hblock⟩ := h
  have hopcode : (parseCommand raw mpid).opcode = wordAt raw 0 &&& rfucmdMask := by
    unfold parseCommand
    rw [padded_of_length hlength]
    simp only
    split
    · rfl
    · split
      · rfl
      · split <;> rfl
  rw [hopcode]
  exact ⟨hinit, hblock⟩

theorem parseCommand_multiplayerId {raw : Bytes} {mpid : Option Nat} :
    (parseCommand raw mpid).multiplayerId = mpid := by
  unfold parseCommand
  simp only
  split
  · rfl
  · split
    · rfl
    · split <;> rfl

/-! ## The receiver -/

namespace BlockReceiver

/-- `feed_frame` of frame after frame; the blocks it returned. -/
def feedFrames (rx : BlockReceiver) :
    List (List (Nat × Bytes)) → BlockReceiver × List (Nat × Nat × Bytes)
  | [] => (rx, [])
  | frame :: frames =>
    let fed := feedFrame rx frame
    let rest := feedFrames fed.rx frames
    (rest.1, fed.completed ++ rest.2)

variable {mpid : Nat} {peer : RecvBlock} {rx : BlockReceiver}

theorem slotsOf_append {positional more : List (Nat × Bytes)} :
    slotsOf mpid (positional ++ more) = slotsOf mpid positional ++ slotsOf mpid more := by
  rw [slotsOf, slotsOf, slotsOf, ← List.filterMap_append, ← List.filter_append]

theorem feedFrames_peer {frames : List (List (Nat × Bytes))} (h : rx.peers[mpid]? = some peer) :
    reportsOf mpid (feedFrames rx frames).2 =
      (peer.trace (slotsOf mpid frames.flatten)).reduceOption := by
  induction frames generalizing rx peer with
  | nil => rfl
  | cons frame frames ih =>
    obtain ⟨hpeer, hreports⟩ := @feedFrame_peer ⟨rx, [], []⟩ mpid peer frame h
    have hrest := ih hpeer
    rw [feedFrames, reportsOf_append, List.flatten_cons, slotsOf_append, RecvBlock.trace_append,
      List.reduceOption_append]
    exact congrArg₂ (· ++ ·) hreports hrest

/-- What the slots of a peer complete, whatever is between them. -/
theorem trace_of_carries {events : List (Event Nat Fragment)} {positional : List (Nat × Bytes)}
    (hcarries : Carries (·.1 = mpid) (·.2) events positional) (hfits : ∀ e ∈ events, Fits e)
    {e : Option (Epoch Nat Fragment)} (h : peer.Holds e) :
    (peer.trace (slotsOf mpid positional)).reduceOption =
      (recvRule.trace e events).reduceOption.map fun parts => (parts.length, bytesOf parts) := by
  induction hcarries generalizing peer e with
  | nil => rfl
  | @sent event events entry positional mine wire rest ih =>
    have hslots : slotsOf mpid (entry :: positional) =
        slotOf event :: slotsOf mpid positional := by
      have hparsed := parseSlot_of_wire wire (hfits event List.mem_cons_self)
      simp [slotsOf, mine, hparsed]
    obtain ⟨hnext, hcompleted⟩ := h.feed event
    have hrest := ih (fun e he => hfits e (List.mem_cons_of_mem _ he)) hnext
    rw [hslots, RecvBlock.trace, Rule.trace, hcompleted]
    cases recvRule.completed e event with
    | none =>
      rw [Option.map_none, List.reduceOption_cons_of_none, List.reduceOption_cons_of_none, hrest]
    | some parts =>
      rw [Option.map_some, List.reduceOption_cons_of_some, List.reduceOption_cons_of_some,
        List.map_cons, hrest]
  | @between events entry positional other rest ih =>
    have hrest := ih hfits h
    by_cases hmine : entry.1 = mpid
    · have hquiet := parseSlot_of_quiet (other.resolve_left (not_not.mpr hmine))
      rcases hquiet with hnone | ⟨reqtype, hreq⟩ | ⟨op, hother⟩
      · have hslots : slotsOf mpid (entry :: positional) = slotsOf mpid positional := by
          simp [slotsOf, hmine, hnone]
        rw [hslots, hrest]
      · have hslots : slotsOf mpid (entry :: positional) =
            .req reqtype :: slotsOf mpid positional := by simp [slotsOf, hmine, hreq]
        rw [hslots]
        exact hrest
      · have hslots : slotsOf mpid (entry :: positional) =
            .other op :: slotsOf mpid positional := by simp [slotsOf, hmine, hother]
        rw [hslots]
        exact hrest
    · have hslots : slotsOf mpid (entry :: positional) = slotsOf mpid positional := by
        simp [slotsOf, hmine]
      rw [hslots, hrest]

end BlockReceiver

/-! ## The decoder -/

/-- A raw command as a capture holds it. -/
structure Captured where
  direction : String
  multiplayerId : Option Nat
  raw : Bytes
  sourceOffset : Option Nat

namespace RfuBlockAssembler

/-- The commands of a capture, one after the other. -/
def feedAll (a : RfuBlockAssembler) (captured : List Captured) : RfuBlockAssembler :=
  captured.foldl
    (fun a c => a.feed (parseCommand c.raw c.multiplayerId) c.direction c.sourceOffset) a

/-- What is reported of a stream, whatever is between its commands. -/
theorem reported_of_carries {stream : Stream} {events : List (Event Nat Fragment)}
    {captured : List Captured}
    (hcarries : Carries (fun c => (c.direction, c.multiplayerId) = stream) Captured.raw events
      captured)
    (hfits : ∀ e ∈ events, Fits e) {a : RfuBlockAssembler} {e : Option (Epoch Nat Fragment)}
    (h : a.Sound) (ht : a.Tracks stream e) :
    (a.feedAll captured).reported stream =
      a.reported stream ++ (decoderRule.trace e events).reduceOption.map bytesOf := by
  induction hcarries generalizing a e with
  | nil => exact (List.append_nil _).symm
  | @sent event events entry captured mine wire rest ih =>
    have hcommand := @parseCommand_of_wire event entry.raw entry.multiplayerId wire
      (hfits event List.mem_cons_self)
    have hadvances : Advances a
        (a.feed (parseCommand entry.raw entry.multiplayerId) entry.direction entry.sourceOffset)
        stream (decoderRule.feed e event) (decoderRule.completed e event) := by
      subst mine
      rw [hcommand]
      cases event with
      | start key count => exact Tracks.feedInit h ht
      | part index frag => exact Tracks.feedBlock h ht
    have hrest := ih (fun e he => hfits e (List.mem_cons_of_mem _ he)) hadvances.sound
      hadvances.tracks
    rw [feedAll, List.foldl_cons]
    refine hrest.trans ?_
    rw [hadvances.reported, Rule.trace, List.append_assoc]
    cases decoderRule.completed e event <;> rfl
  | @between events entry captured other rest ih =>
    have hframe : Frame a
        (a.feed (parseCommand entry.raw entry.multiplayerId) entry.direction entry.sourceOffset)
        stream := by
      refine .feed h ?_
      rcases other with hother | hquiet
      · rw [parseCommand_multiplayerId]
        exact .inl fun heq => hother heq.symm
      · exact .inr (opcode_of_quiet hquiet)
    have hrest := ih hfits hframe.sound (ht.frame hframe)
    rw [feedAll, List.foldl_cons]
    refine hrest.trans ?_
    rw [hframe.reported]

end RfuBlockAssembler

/-! ## Rows of blocks -/

/-- A block as it is sent: it has at most 32 fragments, and its key is the raw owner byte. -/
structure SentBlock extends Transfer Nat Fragment where
  short : parts.length ≤ 32
  owned : ∃ owner, ownerRaw owner = key

/-- All that is sent of a row of blocks. -/
def eventsOf (blocks : List SentBlock) : List (Event Nat Fragment) :=
  blocks.flatMap fun b => b.events

/-- The blocks whose fragments have all arrived with the first `n` slots. -/
def wholeBy (blocks : List SentBlock) (n : Nat) : List (List Fragment) :=
  ((blocks.flatMap fun b => b.reports).take n).reduceOption

/-- At any moment `BlockReceiver` has reported the blocks that are whole, in order and once. -/
def ReceiverReports (blocks : List SentBlock) : Prop :=
  ∀ mpid < 5, ∀ events frames, events <+: eventsOf blocks →
    Carries (fun entry : Nat × Bytes => entry.1 = mpid) (·.2) events frames.flatten →
      BlockReceiver.reportsOf mpid (BlockReceiver.feedFrames {} frames).2 =
        (wholeBy blocks events.length).map fun parts => (parts.length, bytesOf parts)

/-- At any moment `RfuBlockAssembler` has reported the blocks that are whole, in order and once. -/
def DecoderReports (blocks : List SentBlock) : Prop :=
  ∀ stream events captured, events <+: eventsOf blocks →
    Carries (fun c : Captured => (c.direction, c.multiplayerId) = stream) Captured.raw events
      captured →
      (RfuBlockAssembler.feedAll {} captured).reported stream =
        (wholeBy blocks events.length).map bytesOf

/-- Fragments of a block that arrived after an INIT that came too late do not get into the next
block: there are none, the next block has another number of fragments, or its last fragment is none
of them and each of them is the same in both unless the owner is another one. -/
def Unmixed (b b' : SentBlock) : Prop :=
  b.again = [] ∨ b.parts.length ≠ b'.parts.length ∨
    (∀ i ∈ b.again, b'.last.map Fin.val ≠ some i.val) ∧
      (b.key &&& 0x7F ≠ b'.key &&& 0x7F ∨ ∀ i ∈ b.again, b'.parts[i.val]? = b.parts[i.val]?)

/-- No INIT that arrives after all fragments of its block does harm: not all fragments arrive again
after it, and those that do are not mixed into the next block. -/
structure Undisturbed (blocks : List SentBlock) : Prop where
  once : ∀ b ∈ blocks, covers b.again = false
  unmixed : blocks.IsChain Unmixed

theorem fits_events {blocks : List SentBlock} : ∀ e ∈ eventsOf blocks, Fits e := by
  intro e he
  obtain ⟨b, -, he⟩ := List.mem_flatMap.mp he
  have hshort := b.short
  have hevent : ∀ copy, Fits (b.event copy) := by
    intro copy
    cases copy with
    | none =>
      show b.parts.length < 2 ^ 16
      omega
    | some i => exact i.isLt.trans_le hshort
  rcases List.mem_cons.mp he with rfl | he
  · exact hevent none
  · obtain ⟨copy, -, rfl⟩ := List.mem_map.mp he
    exact hevent copy

theorem wire_events {blocks : List SentBlock} : ∀ e ∈ eventsOf blocks, ∃ raw, Wire e raw := by
  intro e he
  obtain ⟨b, -, he⟩ := List.mem_flatMap.mp he
  have hevent : ∀ copy, ∃ raw, Wire (b.event copy) raw := by
    intro copy
    cases copy with
    | none =>
      obtain ⟨owner, howner⟩ := b.owned
      exact ⟨_, 0, by decide, owner, howner, rfl⟩
    | some i => exact ⟨_, 0, by decide, rfl⟩
  rcases List.mem_cons.mp he with rfl | he
  · exact hevent none
  · obtain ⟨copy, -, rfl⟩ := List.mem_map.mp he
    exact hevent copy

/-- What is sent is carried by some slots. -/
theorem exists_carries {ε : Type} {own : ε → Prop} {raw : ε → Bytes} (make : Bytes → ε)
    (hown : ∀ bytes, own (make bytes)) (hraw : ∀ bytes, raw (make bytes) = bytes)
    {events : List (Event Nat Fragment)} (h : ∀ e ∈ events, ∃ bytes, Wire e bytes) :
    ∃ entries, Carries own raw events entries := by
  induction events with
  | nil => exact ⟨[], .nil⟩
  | cons event events ih =>
    obtain ⟨bytes, hbytes⟩ := h event List.mem_cons_self
    obtain ⟨entries, hentries⟩ := ih fun e he => h e (List.mem_cons_of_mem _ he)
    refine ⟨make bytes :: entries, .sent (hown bytes) ?_ hentries⟩
    rw [hraw]
    exact hbytes

/-- What is reported at any moment is what is due exactly if every slot reports what is due. -/
theorem wholeBy_iff {rule : Rule Nat} {blocks : List SentBlock} {β : Type}
    {f : List Fragment → β} (hf : f.Injective) :
    (∀ events, events <+: eventsOf blocks →
        (rule.trace none events).reduceOption.map f = (wholeBy blocks events.length).map f) ↔
      rule.trace none (eventsOf blocks) = blocks.flatMap fun b => b.reports := by
  have hlength : (rule.trace none (eventsOf blocks)).length =
      (blocks.flatMap fun b => b.reports).length := by
    rw [Rule.length_trace, eventsOf, List.length_flatMap, List.length_flatMap]
    refine congrArg List.sum (List.map_congr_left fun b _ => ?_)
    rw [Transfer.events, Transfer.reports, List.length_cons, List.length_cons, List.length_map,
      Transfer.length_dues]
  constructor
  · intro hall
    apply eq_of_reduceOption_take hlength
    intro n
    have hn := hall _ (List.take_prefix n (eventsOf blocks))
    rw [Rule.trace_take] at hn
    have htake := List.map_injective_iff.mpr hf hn
    rw [htake, wholeBy, List.length_take, ← Rule.length_trace, hlength, ← List.take_take,
      List.take_length]
  · rintro htrace events ⟨more, hevents⟩
    have hpre : events = (eventsOf blocks).take events.length := by
      rw [← hevents, List.take_left]
    rw [wholeBy, ← htrace, ← Rule.trace_take, ← hpre]

theorem receiverReports_iff {blocks : List SentBlock} :
    ReceiverReports blocks ↔
      recvRule.trace none (eventsOf blocks) = blocks.flatMap fun b => b.reports := by
  have hf : (fun parts : List Fragment => (parts.length, bytesOf parts)).Injective :=
    fun parts parts' h => bytesOf_inj (Prod.mk.inj h).2
  have hfits : ∀ events, events <+: eventsOf blocks → ∀ e ∈ events, Fits e :=
    fun events hpre e he => fits_events e (hpre.subset he)
  have hfed : ∀ mpid < 5, ∀ events frames, events <+: eventsOf blocks →
      Carries (fun entry : Nat × Bytes => entry.1 = mpid) (·.2) events frames.flatten →
        BlockReceiver.reportsOf mpid (BlockReceiver.feedFrames {} frames).2 =
          (recvRule.trace none events).reduceOption.map fun parts =>
            (parts.length, bytesOf parts) := by
    intro mpid hmpid events frames hpre hcarries
    have hpeer : ({} : BlockReceiver).peers[mpid]? = some {} := by
      rw [List.getElem?_replicate, if_pos hmpid]
    have hholds : ({} : RecvBlock).Holds none := rfl
    rw [BlockReceiver.feedFrames_peer hpeer]
    exact BlockReceiver.trace_of_carries hcarries (hfits events hpre) hholds
  rw [← wholeBy_iff hf]
  constructor
  · intro hreports events hpre
    obtain ⟨frame, hframe⟩ := @exists_carries (Nat × Bytes) (fun entry => entry.1 = 0) (·.2)
      (fun bytes => (0, bytes)) (fun _ => rfl) (fun _ => rfl) events
      fun e he => wire_events e (hpre.subset he)
    have hcarries : Carries (fun entry : Nat × Bytes => entry.1 = 0) (·.2) events
        [frame].flatten := by
      rw [List.flatten_singleton]
      exact hframe
    rw [← hfed 0 (by decide) events [frame] hpre hcarries]
    exact hreports 0 (by decide) events [frame] hpre hcarries
  · intro htrace mpid hmpid events frames hpre hcarries
    rw [hfed mpid hmpid events frames hpre hcarries]
    exact htrace events hpre

theorem decoderReports_iff {blocks : List SentBlock} :
    DecoderReports blocks ↔
      decoderRule.trace none (eventsOf blocks) = blocks.flatMap fun b => b.reports := by
  have hfed : ∀ stream events captured, events <+: eventsOf blocks →
      Carries (fun c : Captured => (c.direction, c.multiplayerId) = stream) Captured.raw events
        captured →
        (RfuBlockAssembler.feedAll {} captured).reported stream =
          (decoderRule.trace none events).reduceOption.map bytesOf := by
    intro stream events captured hpre hcarries
    exact RfuBlockAssembler.reported_of_carries hcarries
      (fun e he => fits_events e (hpre.subset he)) .fresh rfl
  rw [← wholeBy_iff @bytesOf_inj]
  constructor
  · intro hreports events hpre
    obtain ⟨captured, hcaptured⟩ := @exists_carries Captured
      (fun c => (c.direction, c.multiplayerId) = ("", none)) Captured.raw
      (fun bytes => ⟨"", none, bytes, none⟩) (fun _ => rfl) (fun _ => rfl) events
      fun e he => wire_events e (hpre.subset he)
    rw [← hfed ("", none) events captured hpre hcaptured]
    exact hreports ("", none) events captured hpre hcaptured
  · intro htrace stream events captured hpre hcarries
    rw [hfed stream events captured hpre hcarries]
    exact htrace events hpre

/-- Together the two rules ask for what `Unmixed` says. -/
theorem unmixed_iff {b b' : SentBlock} :
    Unmixed b b' ↔ Harmless recvRule b.toTransfer b'.toTransfer ∧
      Harmless decoderRule b.toTransfer b'.toTransfer := by
  have hkeys : decoderRule.same b.key b'.key = false ↔ b.key &&& 0x7F ≠ b'.key &&& 0x7F :=
    decide_eq_false_iff_not
  have hrecv : ¬recvRule.same b.key b'.key = false := nofun
  have hoverwrites : recvRule.overwrites = true := rfl
  have hkeeps : ¬decoderRule.overwrites = true := nofun
  rw [Unmixed, Harmless, Harmless, hkeys]
  constructor
  · rintro (hnil | hlength | ⟨hlast, hkey | hbytes⟩)
    · exact ⟨.inl hnil, .inl hnil⟩
    · exact ⟨.inr (.inl hlength), .inr (.inl hlength)⟩
    · exact ⟨.inr (.inr (.inr ⟨hlast, .inl hoverwrites⟩)), .inr (.inr (.inl hkey))⟩
    · exact ⟨.inr (.inr (.inr ⟨hlast, .inl hoverwrites⟩)),
        .inr (.inr (.inr ⟨hlast, .inr hbytes⟩))⟩
  · rintro ⟨hnil | hlength | hsame | ⟨hlast, -⟩, hdecoder⟩
    · exact .inl hnil
    · exact .inr (.inl hlength)
    · exact absurd hsame hrecv
    · rcases hdecoder with hnil | hlength | hkey | ⟨-, hoverwritten | hbytes⟩
      · exact .inl hnil
      · exact .inr (.inl hlength)
      · exact .inr (.inr ⟨hlast, .inl hkey⟩)
      · exact absurd hoverwritten hkeeps
      · exact .inr (.inr ⟨hlast, .inr hbytes⟩)

/-- Both assemblers report every block once, in order and with the bytes that were sent, at the
moment it is whole, exactly if no INIT that arrives too late does harm. -/
theorem blocks_reported_iff (blocks : List SentBlock) :
    ReceiverReports blocks ∧ DecoderReports blocks ↔ Undisturbed blocks := by
  have hflat : ∀ {β : Type} (f : Transfer Nat Fragment → List β),
      (blocks.flatMap fun b => f b.toTransfer) =
        (blocks.map SentBlock.toTransfer).flatMap f := by
    intro β f
    rw [List.flatMap_map]
  have hrule : ∀ rule : Rule Nat,
      rule.trace none (eventsOf blocks) = (blocks.flatMap fun b => b.reports) ↔
        (∀ b ∈ blocks, covers b.again = false) ∧
          blocks.IsChain fun b b' => Harmless rule b.toTransfer b'.toTransfer := by
    intro rule
    have hrow := @Reassembly.trace_eq_iff _ _ rule (blocks.map SentBlock.toTransfer) none none rfl
    rw [eventsOf, hflat, hflat]
    refine hrow.trans (and_congr ?_ ?_)
    · rw [List.forall_mem_map]
    · show (blocks.map SentBlock.toTransfer).IsChain _ ↔ _
      rw [List.isChain_map]
  have hchains : blocks.IsChain Unmixed ↔
      (blocks.IsChain fun b b' => Harmless recvRule b.toTransfer b'.toTransfer) ∧
        blocks.IsChain fun b b' => Harmless decoderRule b.toTransfer b'.toTransfer := by
    simp only [List.isChain_iff_getElem, unmixed_iff, forall_and]
  rw [receiverReports_iff, decoderReports_iff, hrule, hrule]
  constructor
  · rintro ⟨⟨honce, hrecv⟩, -, hdecoder⟩
    exact ⟨honce, hchains.mpr ⟨hrecv, hdecoder⟩⟩
  · rintro ⟨honce, hunmixed⟩
    obtain ⟨hrecv, hdecoder⟩ := hchains.mp hunmixed
    exact ⟨⟨honce, hrecv⟩, honce, hdecoder⟩

/-- A block of one fragment, of which everything arrives a second time. -/
def sentTwice : SentBlock where
  key := 0x80
  parts := [⟨List.replicate 12 1, rfl⟩]
  copies := [some 0, none, some 0]
  nonempty := nofun
  whole i := by
    have hi : i = 0 := Fin.ext (Nat.lt_one_iff.mp i.isLt)
    rw [hi]
    exact List.mem_cons_self
  short := by decide
  owned := ⟨0, rfl⟩

/-- A block that arrives a second time is reported a second time by both, and of a block of two
fragments one that arrives again after the INIT did is reported as part of the block after it. -/
theorem reported_twice_and_mixed :
    let report slots := BlockReceiver.reportsOf 1
      (BlockReceiver.feedFrames {} (slots.map fun slot => [(1, slot)])).2
    let decoded slots := (RfuBlockAssembler.feedAll {}
      (slots.map fun slot => ⟨"guest", some 1, slot, none⟩)).reported ("guest", some 1)
    let start count := buildSlot 0 (initWords count 0)
    let part index byte := buildSlot 0 (sendBlockWords index (List.replicate 12 byte))
    let bytes := List.replicate 12
    let again := [start 1, part 0 1, start 1, part 0 1]
    let mixed := [start 2, part 0 1, part 1 2, start 2, part 0 1, start 2, part 1 4, part 0 3]
    (report again = [(1, bytes 1), (1, bytes 1)] ∧ decoded again = [bytes 1, bytes 1]) ∧
      (report mixed = [(2, bytes 1 ++ bytes 2), (2, bytes 1 ++ bytes 4)] ∧
        decoded mixed = [bytes 1 ++ bytes 2, bytes 1 ++ bytes 4]) ∧
      ¬ReceiverReports [sentTwice] ∧ ¬DecoderReports [sentTwice] := by
  refine ⟨by decide +kernel, by decide +kernel, ?_, ?_⟩
  · rw [receiverReports_iff]
    decide +kernel
  · rw [decoderReports_iff]
    decide +kernel

end SwitchTrade.Rfu

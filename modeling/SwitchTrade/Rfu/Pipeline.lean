import SwitchTrade.Rfu.GbaFrame
import SwitchTrade.Rfu.Confirmed

/-!
# Blocks through all the encoders and decoders

A sender that trusts the transport sends a block as at most four INITs and then each fragment once.
A tick takes its words through the slot and the frame of the child, has the host reflect the slot
next to its own idle one, and feeds the frame of the host to the receiver (`Pipeline.tick`). What is
reflected of a slot is read by the receiver as the child built it (`Pipeline.tick_eq`), so the
blocks arrive one after the other, each once (`sendAll_reports`).
-/

namespace SwitchTrade.Rfu

open Chunks LittleEndian

/-- `idle_slot`. -/
def idleSlot : Bytes := wordsToSlot []

/-- `SlotBuilder.tag` after `build`. -/
def nextTag (tag : Nat) (words : List Nat) : Nat :=
  if words.headD 0 &&& 0xFFFF = 0 then tag else (tag + 1) &&& 7

/-- The host's answer to a frame of the child: the command is reflected next to an idle slot. Where
one of the functions raises, or `parse_out` finds no command, there is none. -/
def reflectFrame (frame : Bytes) (hostTs : Nat) : Option Bytes := do
  let out ← parseOut frame
  let cmd ← out.cmd
  if cmd.length ≠ commSlotLength then none
  else
    let slot ← parentUniSlot [idleSlot, parentReflectChild cmd]
    wrapParentT (some slot) hostTs

structure Pipeline where
  sender : Option BlockSender := none
  watched : Bool := false
  tag : Nat
  ts : Nat
  hostTs : Nat
  rx : BlockReceiver := {}
  wire : List Bytes := []
  completed : List (Nat × Nat × Bytes) := []

namespace Pipeline

/-- Whether a block may be begun. -/
def free (p : Pipeline) : Bool := p.sender.all fun s => s.state = .done

/-- A block is begun. A sender that watches what is reflected has its view of it replaced first, as
`TradeEngine._begin_send` does it. -/
def begin (p : Pipeline) (data : Bytes) (watched : Bool) : Pipeline :=
  { p with
    sender := some (.new data 1 true)
    watched := watched
    rx := if watched then { p.rx with peers := p.rx.peers.set 1 {} } else p.rx }

/-- The words of a tick, and the sender after it. -/
def words (p : Pipeline) : Option BlockSender × List Nat :=
  match p.sender with
  | none => (none, idleWords)
  | some s =>
    let ticked := s.tick (if p.watched then p.rx.peers[1]? else none)
    (some ticked.1, ticked.2)

/-- One tick, from the words of the sender to what the receiver makes of the frame of the host. -/
def tick (p : Pipeline) : Option Pipeline := do
  let (sender, words) := p.words
  let child ← uniSlot (build p.tag words)
  let frame ← wrapT child p.ts
  let host ← reflectFrame frame p.hostTs
  let unwrapped ← parseIn host
  let fed := p.rx.feedFrame unwrapped.positional
  some { p with
    sender := sender
    tag := nextTag p.tag words
    ts := p.ts + 1
    hostTs := p.hostTs + 1
    rx := fed.rx
    wire := p.wire ++ [frame]
    completed := p.completed ++ fed.completed }

def ticks : Nat → Pipeline → Option Pipeline
  | 0, p => some p
  | n + 1, p => p.tick.bind (ticks n)

/-- Ticks until the sender is done, `fuel` at most. -/
def finish : Nat → Pipeline → Option Pipeline
  | 0, p => if p.free then some p else none
  | fuel + 1, p => if p.free then some p else p.tick.bind (finish fuel)

end Pipeline

/-- A block to send: its bytes, whether its sender watches what is reflected, and for how many ticks
there is nothing to send before it. -/
structure Sending where
  data : Bytes
  watched : Bool
  pause : Nat

namespace Pipeline

def send (fuel : Nat) (p : Pipeline) (b : Sending) : Option Pipeline := do
  let p ← p.ticks b.pause
  finish fuel (p.begin b.data b.watched)

/-- Blocks sent one after the other. -/
def sendAll (fuel : Nat) (p : Pipeline) (blocks : List Sending) : Option Pipeline :=
  blocks.foldlM (send fuel) p

end Pipeline

/-- The rolling tag of a slot of the child. -/
def slotTag (cmd14 : Bytes) : Nat := (cmd14.getD 0 0).toNat >>> 5

/-- The commands in the frames of the child. -/
def commandsOf (wire : List Bytes) : List Bytes :=
  wire.filterMap fun frame => (parseOut frame).bind ChildT.cmd

/-- The tags of the slots that are not idle. -/
def tagsOf (wire : List Bytes) : List Nat :=
  ((commandsOf wire).filter fun cmd14 => cmd14 ≠ idleSlot).map slotTag

/-! ## The way of one slot -/

theorem uniSlot_eq {cmd14 : Bytes} (h : cmd14.length = commSlotLength) :
    uniSlot cmd14 = some (childNiLlsf lcomUni 0 0 0 14 ++ cmd14) := by
  have hword : (lcomUni <<< 10) ||| commSlotLength = childFrame lcomUni 0 0 0 14 := by decide
  unfold uniSlot
  rw [h]
  simp only [hword]
  exact if_pos (by decide)

/-- The frame of a command gives the command back. -/
theorem wrapT_uniSlot {cmd14 : Bytes} (h : cmd14.length = commSlotLength) (ts : Nat) :
    ∃ child frame out, uniSlot cmd14 = some child ∧ wrapT child ts = some frame ∧
      parseOut frame = some out ∧ out.cmd = some cmd14 := by
  have hlength : (childNiLlsf lcomUni 0 0 0 14 ++ cmd14).length = 16 := by
    rw [List.length_append, length_childNiLlsf, h]
    rfl
  obtain ⟨frame, hframe, hparsed⟩ :=
    @parseOut_wrapT (childNiLlsf lcomUni 0 0 0 14 ++ cmd14) ts (by omega)
  refine ⟨_, frame, _, uniSlot_eq h, hframe, hparsed, ?_⟩
  have hdrop : ((childNiLlsf lcomUni 0 0 0 14 ++ cmd14).drop 2).take commSlotLength = cmd14 := by
    rw [List.drop_left' length_childNiLlsf, ← h, List.take_length]
  unfold parseChildSlot
  rw [if_pos (by omega)]
  simp only
  rw [parseLlsfChild_childNiLlsf, hdrop]
  rfl

/-- What the host sends of two commands. -/
theorem wrapParentT_parentUniSlot {row0 row1 : Bytes} (h0 : row0.length = commSlotLength)
    (h1 : row1.length = commSlotLength) (hostTs : Nat) :
    ∃ slot frame unwrapped, parentUniSlot [row0, row1] = some slot ∧
      wrapParentT (some slot) hostTs = some frame ∧ parseIn frame = some unwrapped ∧
      unwrapped.positional =
        [(0, row0), (1, row1), (2, idleSlot), (3, idleSlot), (4, idleSlot)] := by
  let rows := [row0, row1, idleSlot, idleSlot, idleSlot]
  have hwidth : ∀ row ∈ rows, row.length = commSlotLength := by
    intro row hrow
    simp only [rows, List.mem_cons, List.not_mem_nil, or_false] at hrow
    rcases hrow with rfl | rfl | rfl | rfl | rfl
    · exact h0
    · exact h1
    · rfl
    · rfl
    · rfl
  have hrows : rows.flatten = (List.range 5).flatMap fun i => rows.getD i [] := by
    simp [rows, List.range_succ]
  have hwidths : ∀ i < 5, (rows.getD i []).length = commSlotLength := by
    intro i hi
    have hlt : i < rows.length := hi
    rw [List.getD_eq_getElem?_getD, List.getElem?_eq_getElem hlt]
    exact hwidth _ (List.getElem_mem hlt)
  have hlength : rows.flatten.length = 70 := by
    rw [hrows, length_flatMap hwidths]
    rfl
  have hslot : parentUniSlot [row0, row1] =
      some (parentNiLlsf lcomUni 0 0 0 rows.flatten.length ++ rows.flatten) := by
    unfold parentUniSlot
    rw [if_neg]
    · rfl
    · simp [h0, h1]
  have hsize : (parentNiLlsf lcomUni 0 0 0 rows.flatten.length ++ rows.flatten).length = 73 := by
    rw [List.length_append, length_parentNiLlsf, hlength]
  obtain ⟨frame, hframe, hparsed⟩ :=
    @parseIn_wrapParentT (parentNiLlsf lcomUni 0 0 0 rows.flatten.length ++ rows.flatten) hostTs
      (by omega) (by omega)
  refine ⟨_, frame, _, hslot, hframe, hparsed, ?_⟩
  have hstate := congrArg (fun f => f.1.state)
    (@parseLlsfParent_parentNiLlsf lcomUni 0 0 0 rows.flatten.length 1 rows.flatten)
  have hdrop : (parentNiLlsf lcomUni 0 0 0 rows.flatten.length ++ rows.flatten).drop 3 =
      rows.flatten := List.drop_left' length_parentNiLlsf
  have hread : rowsOf rows.flatten = (List.range 5).map fun i => (i, rows.getD i []) := by
    unfold rowsOf
    rw [hlength]
    apply List.map_congr_left
    intro i hi
    have hchunk := @chunk_flatMap _ commSlotLength i 5 (fun i => rows.getD i []) hwidths
      (List.mem_range.mp hi)
    rw [hrows, hchunk]
  unfold parseHostSlot
  have huni : lcomUni % 16 = lcomUni := rfl
  simp only [parseLlsfParent, huni] at hstate
  simp only [hdrop]
  rw [if_pos hstate]
  exact hread

/-- The host's answer carries the command without its tag. -/
theorem reflectFrame_reads {frame cmd14 : Bytes} {out : ChildT} (hout : parseOut frame = some out)
    (hcmd : out.cmd = some cmd14) (h : cmd14.length = commSlotLength) (hostTs : Nat) :
    ∃ host unwrapped, reflectFrame frame hostTs = some host ∧ parseIn host = some unwrapped ∧
      unwrapped.positional = [(0, idleSlot), (1, parentReflectChild cmd14), (2, idleSlot),
        (3, idleSlot), (4, idleSlot)] := by
  have hidle : idleSlot.length = commSlotLength := rfl
  obtain ⟨slot, host, unwrapped, hslot, hhost, hparsed, hrows⟩ :=
    wrapParentT_parentUniSlot hidle (length_reflect.trans h) hostTs
  refine ⟨host, unwrapped, ?_, hparsed, hrows⟩
  unfold reflectFrame
  rw [hout]
  simp only [Option.bind_eq_bind, Option.bind_some, hcmd]
  rw [if_neg (not_not.mpr h), hslot, Option.bind_some, hhost]

theorem feedSlot_idle {fed : Fed} {mpid : Nat} :
    BlockReceiver.feedSlot fed (mpid, idleSlot) = fed := by
  have hidle : parseSlot idleSlot = none := by decide
  unfold BlockReceiver.feedSlot
  simp only [hidle]

/-- Of the frame of the host the receiver hears the reflected slot. -/
theorem feedFrame_reflected {rx : BlockReceiver} {peer : RecvBlock} (h : rx.peers[1]? = some peer)
    (raw : Bytes) :
    let fed := rx.feedFrame
      [(0, idleSlot), (1, raw), (2, idleSlot), (3, idleSlot), (4, idleSlot)]
    fed.rx.peers[1]? = some (peer.hear raw) ∧
      fed.completed =
        (((parseSlot raw).bind peer.completed).map fun block => (1, block)).toList := by
  have hlt : 1 < rx.peers.length := (List.getElem?_eq_some_iff.mp h).1
  simp only [BlockReceiver.feedFrame, List.foldl_cons, List.foldl_nil, feedSlot_idle]
  unfold BlockReceiver.feedSlot RecvBlock.hear
  cases parseSlot raw with
  | none => exact ⟨h, rfl⟩
  | some d =>
    cases d with
    | req reqtype => exact ⟨h, rfl⟩
    | init count ownerRaw | block index frag | other op =>
      simp only [h]
      exact ⟨List.getElem?_set_self hlt, rfl⟩

namespace Pipeline

variable {p : Pipeline} {peer : RecvBlock}

/-- What a tick does: the slot is on the child's wire, and the receiver has heard it without its
tag. -/
theorem tick_eq (h : p.rx.peers[1]? = some peer) :
    let slot := build p.tag p.words.2
    let raw := parentReflectChild slot
    ∃ frame fed, p.tick = some { p with
        sender := p.words.1
        tag := nextTag p.tag p.words.2
        ts := p.ts + 1
        hostTs := p.hostTs + 1
        rx := fed
        wire := p.wire ++ [frame]
        completed := p.completed ++
          (((parseSlot raw).bind peer.completed).map fun block => (1, block)).toList } ∧
      commandsOf (p.wire ++ [frame]) = commandsOf p.wire ++ [slot] ∧
      fed.peers[1]? = some (peer.hear raw) := by
  intro slot raw
  obtain ⟨child, frame, out, hchild, hframe, hout, hcmd⟩ :=
    @wrapT_uniSlot slot length_build p.ts
  obtain ⟨host, unwrapped, hhost, hunwrapped, hrows⟩ :=
    reflectFrame_reads hout hcmd length_build p.hostTs
  obtain ⟨hpeer, hcompleted⟩ := feedFrame_reflected h raw
  refine ⟨frame, (p.rx.feedFrame unwrapped.positional).rx, ?_, ?_, ?_⟩
  · unfold tick
    simp only [Option.bind_eq_bind]
    rw [hchild, Option.bind_some, hframe, Option.bind_some, hhost, Option.bind_some, hunwrapped,
      Option.bind_some, hrows, hcompleted]
  · rw [commandsOf, List.filterMap_append]
    congr 1
    simp only [List.filterMap_cons, hout, Option.bind_some, hcmd, List.filterMap_nil]
  · rw [hrows]
    exact hpeer

end Pipeline

/-! ## One block -/

/-- The words a sender has for a slot that is not idle. -/
inductive Speaks : List Nat → Prop
  | init {count owner : Nat} (fits : count < 2 ^ 16) : Speaks (initWords count owner)
  | block {index : Nat} {chunk12 : Bytes} (lt : index < 32) : Speaks (sendBlockWords index chunk12)

/-- The sender of a block between its fragments. -/
def BlockSender.streaming (data : Bytes) (n i : Nat) : BlockSender :=
  { BlockSender.new data 1 true with initSends := n, state := .stream, index := i }

/-- A sender before a tick, and the receiver's view of its block. At most `left` ticks are left. -/
inductive BlockSender.Stage (data : Bytes) (watched : Bool) : Nat → BlockSender → RecvBlock → Prop
  | calls {s : BlockSender} {r : RecvBlock} {n : Nat}
      (eq : s = { BlockSender.new data 1 true with initSends := n }) (le : n ≤ 4)
      (shut : n = 0 → (r.receiving = false ∨ r.done = true) ∧
        (watched = true → r.receiving = false))
      (opened : 0 < n → Takes data r ∧ r.flags = 0) :
      Stage data watched (4 - n + fragCount data.length) s r
  | streams {s : BlockSender} {r : RecvBlock} {i n : Nat}
      (eq : s = BlockSender.streaming data n i)
      (lt : i < fragCount data.length) (takes : Takes data r)
      (bits : ∀ j, r.flags.testBit j = true ↔ j < i) :
      Stage data watched (fragCount data.length - i) s r

/-- What is reported of a block. -/
def report (data : Bytes) : Nat × Bytes :=
  (fragCount data.length, padded (fragCount data.length * fragBytes) 0 data)

theorem parseSlot_of_heard {raw : Bytes} {slot : Slot} (h : heard raw = some slot) :
    parseSlot raw = some slot := by
  unfold heard at h
  cases hparsed : parseSlot raw with
  | none =>
    rw [hparsed] at h
    cases h
  | some slot' =>
    rw [hparsed] at h
    cases slot' with
    | init count ownerRaw => exact h
    | block index frag => exact h
    | req reqtype => cases h
    | other op => cases h

theorem parseSlot_reflected_init {tag count owner : Nat} (htag : tag < 8)
    (hcount : count < 2 ^ 16) :
    parseSlot (parentReflectChild (build tag (initWords count owner))) =
      some (.init count (ownerRaw owner)) := by
  apply parseSlot_of_heard
  rw [heard_reflect length_build, heard_initWords htag hcount]

theorem parseSlot_reflected_block {tag i : Nat} {data : Bytes} (htag : tag < 8) (hi : i < 32) :
    parseSlot (parentReflectChild (build tag (sendBlockWords i (chunk fragBytes i data)))) =
      some (.block i (piece data i)) := by
  apply parseSlot_of_heard
  rw [heard_reflect length_build, heard_sendBlockWords htag hi]
  rfl

namespace BlockSender

variable {data : Bytes} {watched : Bool} {left n i : Nat} {s : BlockSender} {r : RecvBlock}

/-- A tick has a slot to send, and the receiver that hears it is closer to the whole block, or has
it whole and reports it. -/
structure Advances (data : Bytes) (watched : Bool) (left : Nat) (r : RecvBlock)
    (ticked : BlockSender × List Nat) : Prop where
  speaks : Speaks ticked.2
  heard : ∀ tag < 8,
    let raw := parentReflectChild (build tag ticked.2)
    (∃ left' < left, Stage data watched left' ticked.1 (r.hear raw) ∧
      (parseSlot raw).bind r.completed = none) ∨
    ticked.1.state = .done ∧ (r.hear raw).done = true ∧
      (parseSlot raw).bind r.completed = some (report data)

theorem tickStream_streaming : (streaming data n i).tickStream =
    (if fragCount data.length ≤ i + 1 then
      { streaming data n i with state := .done, holdSends := 0 }
    else streaming data n (i + 1),
    sendBlockWords i (Chunks.chunk fragBytes i data)) := by
  have hstep : (streaming data n i).tickStream =
      if fragCount data.length ≤ i + 1 then
        ({ streaming data n i with state := .done, holdSends := 0 },
          sendBlockWords i (Chunks.chunk fragBytes i data))
      else (streaming data n (i + 1), sendBlockWords i (Chunks.chunk fragBytes i data)) := rfl
  rw [hstep]
  split
  · rfl
  · rfl

/-- A fragment after all those before it. -/
theorem advances_stream (hcount : fragCount data.length ≤ 32) (hi : i < fragCount data.length)
    (htakes : Takes data r) (hbits : ∀ j, r.flags.testBit j = true ↔ j < i)
    (hleft : fragCount data.length - i ≤ left) :
    Advances data watched left r (streaming data n i).tickStream := by
  rw [tickStream_streaming]
  have hlt : i < 32 := by omega
  obtain ⟨htakes', hbits'⟩ := htakes.onBlock hi
  have hopen : r.done = false := by
    refine Bool.eq_false_iff.mpr fun hdone => ?_
    have hbit := htakes.full_iff.mp (htakes.done.mp hdone) i (htakes.count ▸ hi)
    exact absurd ((hbits i).mp hbit) (Nat.lt_irrefl i)
  constructor
  · exact .block hlt
  · intro tag htag
    have hparsed := @parseSlot_reflected_block tag i data htag hlt
    have hhear : r.hear (parentReflectChild (build tag
        (sendBlockWords i (Chunks.chunk fragBytes i data)))) = r.onBlock i (piece data i) := by
      unfold RecvBlock.hear
      rw [hparsed]
      rfl
    simp only [hhear, hparsed, Option.bind_some]
    have hcompleted : r.completed (.block i (piece data i)) =
        if (r.onBlock i (piece data i)).done then
          some ((r.onBlock i (piece data i)).count, (r.onBlock i (piece data i)).buf)
        else none := by
      unfold RecvBlock.completed
      simp only [RecvBlock.feed, hopen, Bool.not_false, Bool.and_true]
    have hdone : (r.onBlock i (piece data i)).done = true ↔ fragCount data.length ≤ i + 1 := by
      rw [htakes'.done, htakes'.full_iff, htakes'.count]
      constructor
      · intro hall
        by_contra hmore
        rcases (hbits' (i + 1)).mp (hall (i + 1) (by omega)) with heq | hbit
        · omega
        · have hlower := (hbits (i + 1)).mp hbit
          omega
      · intro hlast j hj
        rw [hbits', hbits]
        omega
    rw [hcompleted]
    by_cases hlast : fragCount data.length ≤ i + 1
    · right
      have hwhole := hdone.mpr hlast
      refine ⟨?_, hwhole, ?_⟩
      · rw [if_pos hlast]
      · rw [if_pos hwhole, htakes'.buf_of_full (htakes'.full_iff.mp (htakes'.done.mp hwhole)),
          htakes'.count]
        rfl
    · left
      have hunfinished : ¬(r.onBlock i (piece data i)).done = true := fun hc => hlast (hdone.mp hc)
      refine ⟨fragCount data.length - (i + 1), by omega, ?_, if_neg hunfinished⟩
      rw [if_neg hlast]
      refine .streams rfl (by omega) htakes' ?_
      intro j
      rw [hbits', hbits]
      omega

/-- An INIT while the epoch of the block is not open, or has no fragment yet. -/
theorem advances_call (hcount : fragCount data.length ≤ 32) (hn : n < 4)
    (hshut : n = 0 → r.receiving = false ∨ r.done = true)
    (hopened : 0 < n → Takes data r ∧ r.flags = 0) :
    Advances data watched (4 - n + fragCount data.length) r
      ({ new data 1 true with initSends := n + 1 }, initWords (fragCount data.length) 1) := by
  have hfits : fragCount data.length < 2 ^ 16 := by omega
  refine ⟨.init hfits, fun tag htag => ?_⟩
  have hparsed := @parseSlot_reflected_init tag (fragCount data.length) 1 htag hfits
  have hhear : r.hear (parentReflectChild (build tag (initWords (fragCount data.length) 1))) =
      r.onInit (fragCount data.length) (some (ownerRaw 1)) := by
    unfold RecvBlock.hear
    rw [hparsed]
    rfl
  simp only [hhear, hparsed, Option.bind_some]
  have hepoch : Takes data (r.onInit (fragCount data.length) (some (ownerRaw 1))) ∧
      (r.onInit (fragCount data.length) (some (ownerRaw 1))).flags = 0 := by
    rcases Nat.eq_zero_or_pos n with hzero | hpos
    · exact Takes.onInit_fresh (hshut hzero)
    · obtain ⟨htakes, hflags⟩ := hopened hpos
      rw [htakes.onInit_again hflags]
      exact ⟨htakes, hflags⟩
  left
  refine ⟨4 - (n + 1) + fragCount data.length, by omega, ?_, rfl⟩
  exact .calls rfl (by omega) (fun hc => absurd hc (Nat.succ_ne_zero n)) fun _ => hepoch

theorem Stage.advances (h : Stage data watched left s r) (hcount : fragCount data.length ≤ 32) :
    Advances data watched left r (s.tick (if watched then some r else none)) := by
  cases h with
  | @streams _ _ i n heq hlt htakes hbits =>
    subst heq
    exact advances_stream hcount hlt htakes hbits (Nat.le_refl _)
  | @calls _ _ n heq hle hshut hopened =>
    subst heq
    have htick : tick { new data 1 true with initSends := n } (if watched then some r else none) =
        if initAcked (new data 1 true) (if watched then some r else none) || decide (4 < n + 1) then
          (streaming data (n + 1) 0).tickStream
        else ({ new data 1 true with initSends := n + 1 }, initWords (fragCount data.length) 1) :=
      rfl
    rw [htick]
    rcases Nat.eq_zero_or_pos n with hzero | hpos
    · obtain ⟨hclosed, hunseen⟩ := hshut hzero
      have hunacked :
          initAcked (new data 1 true) (if watched then some r else none) = false := by
        cases watched with
        | false => rfl
        | true =>
          unfold initAcked
          rw [if_pos rfl]
          simp only [hunseen rfl, Bool.false_and]
      rw [hunacked, if_neg (by simp; omega)]
      exact advances_call hcount (by omega) (fun _ => hclosed) hopened
    · obtain ⟨htakes, hflags⟩ := hopened hpos
      by_cases harmed : (initAcked (new data 1 true) (if watched then some r else none) ||
          decide (4 < n + 1)) = true
      · rw [if_pos harmed]
        apply advances_stream hcount (fragCount_pos _) htakes _ (by omega)
        intro j
        rw [hflags, Nat.zero_testBit]
        exact iff_of_false nofun (Nat.not_lt_zero j)
      · rw [if_neg harmed]
        simp only [Bool.or_eq_true, decide_eq_true_eq, not_or] at harmed
        exact advances_call hcount (by omega) (fun hc => absurd hc (by omega)) hopened

end BlockSender

/-! ## The tags on the wire -/

theorem slotTag_buildSlot {tag word0 : Nat} {words : List Nat} (h : words.length = 6) :
    slotTag (buildSlot tag (word0 :: words)) =
      (((word0 ||| (tag <<< 5)) &&& 0xFFFF) % 256) >>> 5 := by
  rw [buildSlot_cons h, slotTag]
  show (UInt8.ofNat _).toNat >>> 5 = _
  rw [UInt8.toNat_ofNat']

/-- A slot that is not idle carries the tag, and the next one has the next tag. -/
theorem Speaks.tagged {words : List Nat} (h : Speaks words) {tag : Nat} (htag : tag < 8) :
    slotTag (build tag words) = tag ∧ build tag words ≠ idleSlot ∧
      nextTag tag words = (tag + 1) % 8 := by
  have hidle : heard idleSlot = none := heard_of_quiet quiet_idle
  have hnext : (tag + 1) &&& 7 = (tag + 1) % 8 := Nat.and_two_pow_sub_one_eq_mod _ 3
  cases h with
  | @init count owner hfits =>
    have htagged : ∀ t < 8, (((opInit ||| (t <<< 5)) &&& 0xFFFF) % 256) >>> 5 = t := by decide
    refine ⟨?_, ?_, ?_⟩
    · rw [build_initWords, initWords, slotTag_buildSlot rfl]
      exact htagged tag htag
    · intro hc
      have hheard := @heard_initWords tag count owner htag hfits
      rw [hc, hidle] at hheard
      cases hheard
    · have hword : opInit &&& 0xFFFF ≠ 0 := by decide
      exact (if_neg hword).trans hnext
  | @block index chunk12 hlt =>
    have htagged : ∀ t < 8, ∀ i < 32,
        ((((opBlock ||| (i &&& fragIndexMask)) ||| (t <<< 5)) &&& 0xFFFF) % 256) >>> 5 = t := by
      decide +kernel
    refine ⟨?_, ?_, ?_⟩
    · have hsix : (bytesWords (padded 12 0 chunk12)).length = 6 := by
        rw [length_bytesWords, length_padded]
      rw [build_sendBlockWords hlt, sendBlockWords, slotTag_buildSlot hsix]
      exact htagged tag htag index hlt
    · intro hc
      have hheard := @heard_sendBlockWords tag index chunk12 htag hlt
      rw [hc, hidle] at hheard
      cases hheard
    · have hword : (opBlock ||| (index &&& fragIndexMask)) &&& 0xFFFF ≠ 0 := by
        have hall : ∀ i < 32, (opBlock ||| (i &&& fragIndexMask)) &&& 0xFFFF ≠ 0 := by decide
        exact hall index hlt
      exact (if_neg hword).trans hnext

/-- The tags so far are consecutive, and the next slot continues them. -/
structure Tagged (first tag : Nat) (wire : List Bytes) : Prop where
  tags : tagsOf wire = (List.range (tagsOf wire).length).map fun k => (first + k) % 8
  tag_eq : tag = (first + (tagsOf wire).length) % 8

namespace Tagged

variable {first tag : Nat} {wire : List Bytes} {frame : Bytes}

theorem lt (h : Tagged first tag wire) : tag < 8 := by
  rw [h.tag_eq]
  exact Nat.mod_lt _ (by decide)

/-- An idle slot leaves the tag. -/
theorem idle (h : Tagged first tag wire)
    (hframe : commandsOf (wire ++ [frame]) = commandsOf wire ++ [build tag idleWords]) :
    Tagged first (nextTag tag idleWords) (wire ++ [frame]) := by
  have hidle : build tag idleWords = idleSlot := rfl
  have hsame : tagsOf (wire ++ [frame]) = tagsOf wire := by
    rw [tagsOf, hframe, hidle, List.filter_append]
    simp [tagsOf]
  constructor
  · rw [hsame]
    exact h.tags
  · rw [hsame]
    exact h.tag_eq

theorem speak (h : Tagged first tag wire) {words : List Nat} (hspeaks : Speaks words)
    (hframe : commandsOf (wire ++ [frame]) = commandsOf wire ++ [build tag words]) :
    Tagged first (nextTag tag words) (wire ++ [frame]) := by
  obtain ⟨htag, hne, hnext⟩ := hspeaks.tagged h.lt
  have hmore : tagsOf (wire ++ [frame]) = tagsOf wire ++ [tag] := by
    rw [tagsOf, hframe, List.filter_append, List.map_append]
    simp [tagsOf, hne, htag]
  have hlength : (tagsOf (wire ++ [frame])).length = (tagsOf wire).length + 1 := by
    rw [hmore, List.length_append, List.length_singleton]
  constructor
  · rw [hlength, hmore, List.range_succ, List.map_append, ← h.tags, List.map_singleton,
      ← h.tag_eq]
  · rw [hlength, hnext, h.tag_eq]
    omega

end Tagged

/-! ## All blocks -/

/-- What is reported for player 1. -/
def reports (blocks : List Bytes) : List (Nat × Nat × Bytes) :=
  blocks.map fun data => (1, report data)

namespace Pipeline

variable {p : Pipeline} {first left : Nat} {sent : List Bytes} {data : Bytes}

/-- All blocks begun are reported, and there is nothing to send. -/
structure Rested (first : Nat) (sent : List Bytes) (p : Pipeline) : Prop where
  tagged : Tagged first p.tag p.wire
  free : p.free = true
  shut : ∃ r, p.rx.peers[1]? = some r ∧ (r.receiving = false ∨ r.done = true)
  completed : p.completed = reports sent

/-- One more block is on its way, with `left` ticks at most. -/
structure Busy (first : Nat) (sent : List Bytes) (data : Bytes) (left : Nat) (p : Pipeline) :
    Prop where
  tagged : Tagged first p.tag p.wire
  stage : ∃ s r, p.sender = some s ∧ p.rx.peers[1]? = some r ∧
    BlockSender.Stage data p.watched left s r
  completed : p.completed = reports sent

theorem words_of_free (h : p.free = true) : p.words = (p.sender, idleWords) := by
  unfold words
  unfold free at h
  cases hs : p.sender with
  | none => rfl
  | some s =>
    rw [hs] at h
    have hdone : s.state = .done := by simpa using h
    simp only [BlockSender.tick, hdone]

theorem Rested.tick (h : p.Rested first sent) : ∃ p', p.tick = some p' ∧ p'.Rested first sent := by
  obtain ⟨r, hpeer, hshut⟩ := h.shut
  obtain ⟨frame, fed, htick, hframe, hfed⟩ := tick_eq hpeer
  have hnone : parseSlot (parentReflectChild idleSlot) = none := by decide
  have hidle : build p.tag idleWords = idleSlot := rfl
  have hhear : r.hear (parentReflectChild idleSlot) = r := by
    unfold RecvBlock.hear
    rw [hnone]
  rw [words_of_free h.free] at htick hframe hfed
  simp only [hidle, hnone, hhear, Option.bind_none, Option.map_none, Option.toList_none,
    List.append_nil] at htick hframe hfed
  refine ⟨_, htick, h.tagged.idle hframe, h.free, ⟨r, hfed, hshut⟩, h.completed⟩

theorem Rested.ticks (h : p.Rested first sent) (n : Nat) :
    ∃ p', p.ticks n = some p' ∧ p'.Rested first sent := by
  induction n generalizing p with
  | zero => exact ⟨p, rfl, h⟩
  | succ n ih =>
    obtain ⟨p', htick, hp'⟩ := h.tick
    obtain ⟨p'', hticks, hp''⟩ := ih hp'
    refine ⟨p'', ?_, hp''⟩
    rw [Pipeline.ticks, htick, Option.bind_some, hticks]

theorem Rested.begin (h : p.Rested first sent) (data : Bytes) (watched : Bool) :
    (p.begin data watched).Busy first sent data (4 + fragCount data.length) := by
  obtain ⟨r, hpeer, hshut⟩ := h.shut
  have hlt : 1 < p.rx.peers.length := (List.getElem?_eq_some_iff.mp hpeer).1
  have hcalls : ∀ r' : RecvBlock, (r'.receiving = false ∨ r'.done = true) →
      (watched = true → r'.receiving = false) →
      BlockSender.Stage data watched (4 + fragCount data.length) (.new data 1 true) r' := by
    intro r' hclosed hunseen
    exact .calls rfl (Nat.zero_le 4) (fun _ => ⟨hclosed, hunseen⟩) fun hc =>
      absurd hc (Nat.lt_irrefl 0)
  refine ⟨h.tagged, ?_, h.completed⟩
  cases watched with
  | true =>
    refine ⟨_, {}, rfl, ?_, hcalls {} (.inl rfl) fun _ => rfl⟩
    exact List.getElem?_set_self hlt
  | false => exact ⟨_, r, rfl, hpeer, hcalls r hshut fun hc => (by cases hc)⟩

theorem Busy.tick (h : p.Busy first sent data left) (hcount : fragCount data.length ≤ 32) :
    ∃ p', p.tick = some p' ∧
      ((∃ left' < left, p'.Busy first sent data left') ∨ p'.Rested first (sent ++ [data])) := by
  obtain ⟨s, r, hsender, hpeer, hstage⟩ := h.stage
  obtain ⟨frame, fed, htick, hframe, hfed⟩ := tick_eq hpeer
  obtain ⟨hspeaks, hheard⟩ := hstage.advances hcount
  have hwords : p.words = (some (s.tick (if p.watched then some r else none)).1,
      (s.tick (if p.watched then some r else none)).2) := by
    unfold words
    rw [hsender, hpeer]
  rw [hwords] at htick hframe hfed
  refine ⟨_, htick, ?_⟩
  rcases hheard p.tag h.tagged.lt with ⟨left', hless, hstage', hnone⟩ | ⟨hdone, hwhole, hreport⟩
  · left
    refine ⟨left', hless, h.tagged.speak hspeaks hframe, ⟨_, _, rfl, hfed, hstage'⟩, ?_⟩
    show p.completed ++ _ = _
    rw [hnone]
    exact (List.append_nil _).trans h.completed
  · right
    refine ⟨h.tagged.speak hspeaks hframe, ?_, ⟨_, hfed, .inr hwhole⟩, ?_⟩
    · show (some _ : Option BlockSender).all _ = true
      simp only [Option.all_some, hdone, decide_true]
    · show p.completed ++ _ = _
      rw [hreport, h.completed, reports, reports, List.map_append]
      rfl

theorem Busy.not_free (h : p.Busy first sent data left) : p.free = false := by
  obtain ⟨s, r, hsender, -, hstage⟩ := h.stage
  unfold free
  rw [hsender]
  cases hstage with
  | calls heq =>
    rw [heq]
    rfl
  | streams heq =>
    rw [heq]
    rfl

/-- The sender is done in time. -/
theorem Busy.finish (h : p.Busy first sent data left) (hcount : fragCount data.length ≤ 32)
    {fuel : Nat} (hfuel : left ≤ fuel) :
    ∃ p', p.finish fuel = some p' ∧ p'.Rested first (sent ++ [data]) := by
  induction fuel generalizing p left with
  | zero =>
    obtain ⟨p', -, hmore | hrested⟩ := h.tick hcount
    · obtain ⟨left', hless, -⟩ := hmore
      omega
    · obtain ⟨s, r, -, -, hstage⟩ := h.stage
      cases hstage with
      | calls heq hle =>
        have hpos := BlockSender.fragCount_pos data.length
        omega
      | streams heq hlt => omega
  | succ fuel ih =>
    obtain ⟨p', htick, hnext⟩ := h.tick hcount
    rw [Pipeline.finish, h.not_free, if_neg Bool.false_ne_true, htick, Option.bind_some]
    rcases hnext with ⟨left', hless, hbusy⟩ | hrested
    · exact ih hbusy (by omega)
    · refine ⟨p', ?_, hrested⟩
      cases fuel with
      | zero => rw [Pipeline.finish, if_pos hrested.free]
      | succ fuel => rw [Pipeline.finish, if_pos hrested.free]

theorem Rested.send (h : p.Rested first sent) {b : Sending}
    (hcount : fragCount b.data.length ≤ 32) {fuel : Nat} (hfuel : 36 ≤ fuel) :
    ∃ p', p.send fuel b = some p' ∧ p'.Rested first (sent ++ [b.data]) := by
  obtain ⟨q, hticks, hq⟩ := h.ticks b.pause
  obtain ⟨p', hfinish, hp'⟩ :=
    (hq.begin b.data b.watched).finish hcount (show 4 + fragCount b.data.length ≤ fuel by omega)
  refine ⟨p', ?_, hp'⟩
  unfold Pipeline.send
  rw [hticks]
  exact hfinish

/-- The start: no block, and the tag and the counters as they are. -/
def new (tag ts hostTs : Nat) : Pipeline := { tag, ts, hostTs }

/-- Blocks sent one after the other are reported for player 1, each once, in order and filled up
with zeros, and the slots that are not idle carry consecutive tags. -/
theorem sendAll_reports {blocks : List Sending}
    (hsize : ∀ b ∈ blocks, b.data.length ≤ 384) {tag : Nat} (htag : tag < 8)
    (ts hostTs : Nat) {fuel : Nat} (hfuel : 36 ≤ fuel) :
    ∃ p, (new tag ts hostTs).sendAll fuel blocks = some p ∧
      p.completed = reports (blocks.map Sending.data) ∧
      tagsOf p.wire = (List.range (tagsOf p.wire).length).map fun k => (tag + k) % 8 := by
  have hall : ∀ (rest : List Sending) (sent : List Bytes) (p : Pipeline),
      (∀ b ∈ rest, b.data.length ≤ 384) → p.Rested tag sent →
        ∃ p', p.sendAll fuel rest = some p' ∧ p'.Rested tag (sent ++ rest.map Sending.data) := by
    intro rest
    induction rest with
    | nil =>
      intro sent p _ hp
      exact ⟨p, rfl, (List.append_nil sent).symm ▸ hp⟩
    | cons b rest ih =>
      intro sent p hrest hp
      obtain ⟨q, hsend, hq⟩ := hp.send (Staging.fragCount_le (hrest b List.mem_cons_self)) hfuel
      obtain ⟨p', hall, hp'⟩ := ih _ q (fun b' hb' => hrest b' (List.mem_cons_of_mem _ hb')) hq
      refine ⟨p', ?_, ?_⟩
      · unfold sendAll at hall ⊢
        rw [List.foldlM_cons, hsend]
        exact hall
      · rw [List.append_assoc] at hp'
        exact hp'
  have hstart : (new tag ts hostTs).Rested tag [] := by
    refine ⟨⟨rfl, ?_⟩, rfl, ⟨{}, rfl, .inl rfl⟩, rfl⟩
    show tag = (tag + 0) % 8
    omega
  obtain ⟨p, hp, hrested⟩ := hall blocks [] _ hsize hstart
  exact ⟨p, hp, hrested.completed, hrested.tagged.tags⟩

/-- Two blocks of the same length, the second sent without a look at what is reflected. -/
theorem sendAll_reports_twice : ∃ p,
    (new 6 (2 ^ 32 - 1) 0).sendAll 36
        [⟨List.replicate 13 1, true, 2⟩, ⟨List.replicate 13 2, false, 0⟩] = some p ∧
      p.completed =
        [(1, 2, List.replicate 13 1 ++ List.replicate 11 0),
          (1, 2, List.replicate 13 2 ++ List.replicate 11 0)] ∧
      tagsOf p.wire = (List.range (tagsOf p.wire).length).map fun k => (6 + k) % 8 :=
  sendAll_reports (by decide) (by decide) (2 ^ 32 - 1) 0 (Nat.le_refl 36)

end Pipeline

end SwitchTrade.Rfu

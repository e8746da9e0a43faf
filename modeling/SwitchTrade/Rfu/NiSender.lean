import SwitchTrade.Rfu.Llsf
import Mathlib.Data.List.Pairwise
import Mathlib.Tactic.Ring

/-!
# The sender of NI data

`NISender` of `bridge/frlgsim/ni.py`: a header, the source in pieces over four phases, an end and a
terminator, one slot a call. The search for a phase that has data left is a loop with no bound of
its own, so a call has a fuel here and may not return.
-/

namespace SwitchTrade.Rfu

open LittleEndian Chunks

/-- The `state` of a sender. -/
inductive NiState where
  | sendStart
  | sending
  | sendLast
  | sendNull
  | done
  deriving DecidableEq, Repr

/-- `WINDOW_COUNT`. -/
def windowCount : Nat := 4

/-- `CHILD_FRAME_SIZE`. -/
def childFrameSize : Nat := 2

/-- `NI_HEADER_SIZE`. -/
def niHeaderSize : Nat := 7

/-- `_ni_header`. -/
def niHeader (dataType payloadSize dataSize : Nat) : Bytes :=
  UInt8.ofNat dataType :: (toBytes 2 payloadSize ++ toBytes 4 dataSize)

structure NiSender where
  src : Bytes
  dataSize : Nat
  dataType : Nat
  payloadSize : Nat
  state : NiState
  phase : Nat
  n : List Nat
  remain : Int
  now : List Nat
  header : Bytes
  deriving DecidableEq, Repr

namespace NiSender

/-- `NISender(src, sub_frame_size, data_type)`. -/
def new (src : Bytes) (subFrameSize : Nat := 14) (dataType : Nat := 1) : NiSender :=
  let payloadSize := subFrameSize - childFrameSize
  { src
    dataSize := src.length
    dataType := dataType &&& 0xFF
    payloadSize
    state := .sendStart
    phase := 0
    n := List.replicate windowCount 1
    remain := niHeaderSize
    now := List.replicate windowCount 0
    header := niHeader (dataType &&& 0xFF) payloadSize src.length }

/-- `_emit`. -/
def emit (stateLcom n phase size : Nat) (payload : Bytes) : Bytes :=
  childNiLlsf stateLcom n phase 0 size ++ payload

/-- `while self.now[self.phase] >= self.data_size: self.phase = (self.phase + 1) % WINDOW_COUNT`;
no phase where the fuel runs out. -/
def skipPhases (now : List Nat) (dataSize : Nat) : Nat → Nat → Option Nat
  | 0, _ => none
  | fuel + 1, phase =>
    if dataSize ≤ now.getD phase 0 then
      skipPhases now dataSize fuel ((phase + 1) % windowCount)
    else some phase

/-- `next_slot`: what it returns and the sender after it; nothing where the fuel runs out. -/
def nextSlot (fuel : Nat) (self : NiSender) : Option (Option Bytes × NiSender) :=
  match self.state with
  | .sendStart =>
    let size := (min self.remain self.payloadSize).toNat
    let slot := emit lcomNiStart (self.n.getD 0 0) 0 size (self.header.take size)
    some (some slot, { self with
      state := .sending
      phase := 0
      n := List.replicate windowCount 1
      now := (List.range windowCount).map fun i => self.payloadSize * i
      remain := self.dataSize })
  | .sending =>
    match skipPhases self.now self.dataSize fuel self.phase with
    | none => none
    | some phase =>
      let off := self.now.getD phase 0
      let size := min self.payloadSize (self.dataSize - off)
      let slot := emit lcomNi (self.n.getD phase 0) phase size ((self.src.drop off).take size)
      let remain := self.remain - size
      let now := self.now.set phase (off + (self.payloadSize <<< 2))
      if remain ≤ 0 then some (some slot, { self with remain, now, phase := 0, state := .sendLast })
      else some (some slot, { self with remain, now, phase := (phase + 1) % windowCount })
  | .sendLast => some (some (emit lcomNiEnd 0 0 0 []), { self with state := .sendNull })
  | .sendNull => some (some (emit lcomNull 1 0 0 []), { self with state := .done })
  | .done => some (none, self)

/-- What that many calls in a row return, each with the fuel. -/
def calls (fuel : Nat) : Nat → NiSender → Option (List (Option Bytes))
  | 0, _ => some []
  | count + 1, self =>
    match self.nextSlot fuel with
    | none => none
    | some (slot, next) => (calls fuel count next).map (slot :: ·)

/-! ## What a receiver reads in the slots -/

def stateOf (slot : Bytes) : Nat := (parseLlsfChild slot).state

def nOf (slot : Bytes) : Nat := (parseLlsfChild slot).n

def phaseOf (slot : Bytes) : Nat := (parseLlsfChild slot).phase

/-- The bytes after the header, as many as the header says. -/
def payloadOf (slot : Bytes) : Bytes := (slot.drop childFrameSize).take (parseLlsfChild slot).size

def niSlots (slots : List Bytes) : List Bytes := slots.filter fun slot => stateOf slot = lcomNi

/-- The slots are a transfer of the source. -/
structure Transfer (src : Bytes) (slots : List Bytes) : Prop where
  order : ∃ count, slots.map stateOf =
    lcomNiStart :: (List.replicate count lcomNi ++ [lcomNiEnd, lcomNull])
  whole : (niSlots slots).flatMap payloadOf = src
  distinct : ∀ phase, (((niSlots slots).filter fun slot => phaseOf slot = phase).map nOf).IsChain
    (· ≠ ·)

/-- Every call returns, the slots come first and are a transfer of the source, and after them every
call returns `None`. -/
def Transfers (self : NiSender) : Prop :=
  ∃ slots fuel, (∀ more, calls fuel (slots.length + more) self =
    some (slots.map some ++ List.replicate more none)) ∧ Transfer self.src slots

variable {self next : NiSender} {fuel count more j : Nat} {slot : Option Bytes}

theorem reads_emit {state n phase size : Nat} {payload : Bytes} :
    parseLlsfChild (emit state n phase size payload) =
      ⟨state % 16, 0, n % 4, phase % 4, size % 32⟩ := parseLlsfChild_childNiLlsf

theorem payloadOf_emit {state n phase size : Nat} {payload : Bytes} (h : size < 32)
    (hlength : payload.length = size) : payloadOf (emit state n phase size payload) = payload := by
  have hdrop : (emit state n phase size payload).drop childFrameSize = payload :=
    List.drop_left' length_childNiLlsf
  rw [payloadOf, hdrop, reads_emit]
  show payload.take (size % 32) = payload
  rw [Nat.mod_eq_of_lt h, ← hlength, List.take_length]

/-! ## Calls in a row -/

theorem calls_succ (h : self.nextSlot fuel = some (slot, next)) :
    calls fuel (count + 1) self = (calls fuel count next).map (slot :: ·) := by
  rw [calls, h]

theorem calls_done (h : self.state = .done) :
    calls fuel count self = some (List.replicate count none) := by
  induction count with
  | zero => rfl
  | succ count ih =>
    have hcall : self.nextSlot fuel = some (none, self) := by
      unfold nextSlot
      rw [h]
    rw [calls_succ hcall, ih]
    rfl

/-- The end and the terminator. -/
def ending : List Bytes := [emit lcomNiEnd 0 0 0 [], emit lcomNull 1 0 0 []]

theorem calls_ending (h : self.state = .sendLast) :
    calls fuel (more + 1 + 1) self = some (ending.map some ++ List.replicate more none) := by
  have hlast : self.nextSlot fuel =
      some (some (emit lcomNiEnd 0 0 0 []), { self with state := .sendNull }) := by
    unfold nextSlot
    rw [h]
  have hnull : nextSlot fuel { self with state := .sendNull } =
      some (some (emit lcomNull 1 0 0 []), { self with state := .done }) := rfl
  rw [calls_succ hlast, calls_succ hnull, calls_done rfl]
  rfl

/-- More fuel changes nothing. -/
theorem skipPhases_mono {now : List Nat} {dataSize phase found : Nat}
    (h : skipPhases now dataSize fuel phase = some found) :
    skipPhases now dataSize (fuel + more) phase = some found := by
  induction fuel generalizing phase with
  | zero => cases h
  | succ fuel ih =>
    rw [Nat.succ_add, skipPhases]
    rw [skipPhases] at h
    split at h
    · rename_i hpast
      rw [if_pos hpast]
      exact ih h
    · rename_i hpast
      rw [if_neg hpast]
      exact h

theorem nextSlot_mono (h : self.nextSlot fuel = some (slot, next)) :
    self.nextSlot (fuel + more) = some (slot, next) := by
  unfold nextSlot at h ⊢
  cases hstate : self.state with
  | sending =>
    rw [hstate] at h
    cases hskip : skipPhases self.now self.dataSize fuel self.phase with
    | none => simp only [hskip] at h; cases h
    | some phase =>
      rw [skipPhases_mono hskip]
      simpa only [hskip] using h
  | sendStart => simpa only [hstate] using h
  | sendLast => simpa only [hstate] using h
  | sendNull => simpa only [hstate] using h
  | done => simpa only [hstate] using h

theorem calls_mono {answers : List (Option Bytes)} (h : calls fuel count self = some answers) :
    calls (fuel + more) count self = some answers := by
  induction count generalizing self answers with
  | zero => exact h
  | succ count ih =>
    rw [calls] at h
    cases hcall : self.nextSlot fuel with
    | none => rw [hcall] at h; cases h
    | some result =>
      obtain ⟨slot, next⟩ := result
      rw [hcall] at h
      obtain ⟨rest, hrest, hanswers⟩ := Option.map_eq_some_iff.mp h
      rw [calls_succ (nextSlot_mono hcall), ih hrest, ← hanswers]
      rfl

/-- The slots of a sender do not depend on the fuel. -/
theorem slots_unique {slots slots' : List Bytes} {fuel fuel' : Nat}
    (h : ∀ more, calls fuel (slots.length + more) self =
      some (slots.map some ++ List.replicate more none))
    (h' : ∀ more, calls fuel' (slots'.length + more) self =
      some (slots'.map some ++ List.replicate more none)) : slots = slots' := by
  have hleft := @calls_mono _ _ _ fuel' _ (h slots'.length)
  have hright := @calls_mono _ _ _ fuel _ (h' slots.length)
  rw [Nat.add_comm fuel fuel', Nat.add_comm slots.length, hright, Option.some.injEq] at hleft
  have hsome : ∀ (slots : List Bytes) (m : Nat),
      (slots.map some ++ List.replicate m none).filterMap id = slots := by
    intro slots m
    rw [List.filterMap_append, List.filterMap_map]
    simp
  have hsame := congrArg (List.filterMap id) hleft
  rw [hsome, hsome] at hsame
  exact hsame.symm

/-! ## The pieces of the source -/

variable {src : Bytes} {subFrameSize dataType payloadSize : Nat}

/-- How far the phases have come when `j` pieces are sent. -/
def windows (payloadSize j : Nat) : List Nat :=
  (List.range windowCount).map fun i => payloadSize * (j + (i + windowCount - j % windowCount) %
    windowCount)

/-- The slot of the piece `j`. -/
def pieceSlot (src : Bytes) (payloadSize j : Nat) : Bytes :=
  emit lcomNi 1 (j % windowCount) (chunk payloadSize j src).length (chunk payloadSize j src)

/-- The sender has sent `j` pieces and goes on. -/
structure Sent (src : Bytes) (payloadSize j : Nat) (sender : NiSender) : Prop where
  state : sender.state = .sending
  source : sender.src = src
  size : sender.dataSize = src.length
  width : sender.payloadSize = payloadSize
  phase : sender.phase = j % windowCount
  n : sender.n = List.replicate windowCount 1
  now : sender.now = windows payloadSize j
  remain : sender.remain = (src.length : Int) - (payloadSize * j : Nat)

theorem getD_windows : (windows payloadSize j).getD (j % windowCount) 0 = payloadSize * j := by
  have hlt : j % windowCount < windowCount := Nat.mod_lt j (by decide)
  have hself : (j % windowCount + windowCount - j % windowCount) % windowCount = 0 := by
    rw [Nat.add_sub_cancel_left, Nat.mod_self]
  rw [windows, List.getD_eq_getElem?_getD, List.getElem?_map, List.getElem?_range hlt,
    Option.map_some, Option.getD_some, hself, Nat.add_zero]

theorem set_windows : (windows payloadSize j).set (j % windowCount)
    (payloadSize * j + (payloadSize <<< 2)) = windows payloadSize (j + 1) := by
  apply List.ext_getElem?
  intro i
  have hlength : (windows payloadSize j).length = windowCount := by
    rw [windows, List.length_map, List.length_range]
  rw [List.getElem?_set, hlength]
  unfold windows
  rw [List.getElem?_map, List.getElem?_map]
  by_cases hi : i < windowCount
  · have hlt : j % windowCount < windowCount := Nat.mod_lt j (by decide)
    rw [List.getElem?_range hi, Option.map_some, Option.map_some, if_pos hlt]
    unfold windowCount at hi hlt ⊢
    -- The phase that has sent moves on by four pieces, the others stay where they are.
    by_cases hown : j % 4 = i
    · have hnext : (i + 4 - (j + 1) % 4) % 4 = 3 := by omega
      rw [if_pos hown, hnext, Nat.shiftLeft_eq, Option.some.injEq]
      ring
    · have hnext : j + 1 + (i + 4 - (j + 1) % 4) % 4 = j + (i + 4 - j % 4) % 4 := by omega
      rw [if_neg hown, hnext]
  · have hpast : (List.range windowCount)[i]? = none := by
      apply List.getElem?_eq_none
      rw [List.length_range]
      omega
    have hlt : j % windowCount < windowCount := Nat.mod_lt j (by decide)
    rw [hpast, if_neg (by omega)]
    rfl

/-- A call of a sender that has a piece left. -/
theorem nextSlot_sent (h : Sent src payloadSize j self) (hleft : payloadSize * j < src.length) :
    ∃ next, self.nextSlot (fuel + 1) = some (some (pieceSlot src payloadSize j), next) ∧
      if src.length ≤ payloadSize * (j + 1) then next.state = .sendLast
      else Sent src payloadSize (j + 1) next := by
  have hlt : j % windowCount < windowCount := Nat.mod_lt j (by decide)
  have hoff : self.now.getD (j % windowCount) 0 = payloadSize * j := by
    rw [h.now]
    exact getD_windows
  have hskip : skipPhases self.now src.length (fuel + 1) (j % windowCount) =
      some (j % windowCount) := by
    rw [skipPhases, hoff, if_neg (by omega)]
  have hn : self.n.getD (j % windowCount) 0 = 1 := by
    rw [h.n, List.getD_eq_getElem?_getD, List.getElem?_replicate, if_pos hlt]
    rfl
  have hsize : (chunk payloadSize j src).length =
      min payloadSize (src.length - payloadSize * j) := by
    rw [chunk, List.length_take, List.length_drop, Nat.mul_comm j]
  have hchunk : (src.drop (payloadSize * j)).take (min payloadSize (src.length - payloadSize * j)) =
      chunk payloadSize j src := by
    rw [chunk, Nat.mul_comm j, @List.take_eq_take_min _ _ payloadSize, List.length_drop]
  have hslot : emit lcomNi 1 (j % windowCount) (min payloadSize (src.length - payloadSize * j))
      (chunk payloadSize j src) = pieceSlot src payloadSize j := by
    rw [pieceSlot, hsize]
  have hmul : payloadSize * (j + 1) = payloadSize * j + payloadSize := Nat.mul_succ _ _
  unfold nextSlot
  simp only [h.state, h.width, h.size, h.source, h.phase, hskip, hoff, hn, hchunk, hslot]
  by_cases hlast : src.length ≤ payloadSize * (j + 1)
  · have hremain : self.remain - (min payloadSize (src.length - payloadSize * j) : Nat) ≤ 0 := by
      rw [h.remain]
      omega
    rw [if_pos hremain]
    exact ⟨_, rfl, by rw [if_pos hlast]⟩
  · have hremain : ¬ self.remain - (min payloadSize (src.length - payloadSize * j) : Nat) ≤ 0 := by
      rw [h.remain]
      omega
    rw [if_neg hremain]
    refine ⟨_, rfl, ?_⟩
    rw [if_neg hlast]
    refine ⟨rfl, rfl, rfl, rfl, ?_, h.n, ?_, ?_⟩
    · exact Nat.mod_add_mod j windowCount 1
    · show self.now.set (j % windowCount) _ = _
      rw [h.now, set_windows]
    · show self.remain - _ = _
      rw [h.remain]
      omega

/-- The first call leaves a sender that has sent no piece. -/
theorem nextSlot_new (h : niHeaderSize ≤ subFrameSize - childFrameSize) :
    ∃ next, (new src subFrameSize dataType).nextSlot fuel =
      some (some (emit lcomNiStart 1 0 niHeaderSize
        (niHeader (dataType &&& 0xFF) (subFrameSize - childFrameSize) src.length)), next) ∧
      Sent src (subFrameSize - childFrameSize) 0 next := by
  have hsize : (min (niHeaderSize : Int) (subFrameSize - childFrameSize : Nat)).toNat =
      niHeaderSize := by omega
  have hwindows : ((List.range windowCount).map fun i => (subFrameSize - childFrameSize) * i) =
      windows (subFrameSize - childFrameSize) 0 := by
    apply List.map_congr_left
    intro i hi
    have hlt : i < windowCount := List.mem_range.mp hi
    have hphase : 0 + (i + windowCount - 0 % windowCount) % windowCount = i := by
      unfold windowCount at hlt ⊢
      omega
    rw [hphase]
  refine ⟨{ new src subFrameSize dataType with
    state := .sending
    phase := 0
    n := List.replicate windowCount 1
    now := (List.range windowCount).map fun i => (subFrameSize - childFrameSize) * i
    remain := src.length }, ?_, ⟨rfl, rfl, rfl, rfl, rfl, rfl, hwindows, ?_⟩⟩
  · unfold nextSlot new
    simp only [hsize]
    rfl
  · show (src.length : Int) = src.length - ((subFrameSize - childFrameSize) * 0 : Nat)
    omega

/-! ## The slots of a source that is not empty -/

/-- The calls of a sender that has sent `j` pieces of `j + d + 1`. -/
theorem calls_sent {d : Nat} (h : Sent src payloadSize j self)
    (hleft : payloadSize * (j + d) < src.length)
    (hlast : src.length ≤ payloadSize * (j + d + 1)) :
    calls 1 (d + 1 + (more + 1 + 1)) self =
      some (((List.range' j (d + 1)).map (pieceSlot src payloadSize) ++ ending).map some ++
        List.replicate more none) := by
  induction d generalizing j self with
  | zero =>
    obtain ⟨next, hcall, hnext⟩ := @nextSlot_sent self 0 j src payloadSize h hleft
    rw [if_pos hlast] at hnext
    have hcount : 0 + 1 + (more + 1 + 1) = (more + 1 + 1) + 1 := by omega
    rw [hcount, calls_succ hcall, calls_ending hnext]
    rfl
  | succ d ih =>
    have hmore : payloadSize * (j + 1) ≤ payloadSize * (j + (d + 1)) :=
      Nat.mul_le_mul_left _ (by omega)
    have hless : payloadSize * j ≤ payloadSize * (j + 1) := Nat.mul_le_mul_left _ (by omega)
    obtain ⟨next, hcall, hnext⟩ := @nextSlot_sent self 0 j src payloadSize h (by omega)
    rw [if_neg (by omega)] at hnext
    have hindex : j + (d + 1) = j + 1 + d := by omega
    have hrest := ih hnext (by rwa [← hindex]) (by rwa [← hindex])
    have hcount : d + 1 + 1 + (more + 1 + 1) = (d + 1 + (more + 1 + 1)) + 1 := by omega
    rw [hcount, calls_succ hcall, hrest, List.range'_succ]
    rfl

/-- The number of pieces of a source. -/
def pieces (src : Bytes) (payloadSize : Nat) : Nat := (src.length - 1) / payloadSize + 1

/-- The slots that a source is sent in. -/
def slotsOf (src : Bytes) (payloadSize dataType : Nat) : List Bytes :=
  emit lcomNiStart 1 0 niHeaderSize (niHeader (dataType &&& 0xFF) payloadSize src.length) ::
    ((List.range (pieces src payloadSize)).map (pieceSlot src payloadSize) ++ ending)

theorem le_pieces (h : 0 < payloadSize) : src.length ≤ payloadSize * pieces src payloadSize := by
  have hlt : src.length - 1 < payloadSize * ((src.length - 1) / payloadSize + 1) :=
    Nat.lt_mul_div_succ _ h
  unfold pieces
  omega

theorem calls_new (h : niHeaderSize ≤ subFrameSize - childFrameSize) (hsrc : src ≠ []) :
    calls 1 ((slotsOf src (subFrameSize - childFrameSize) dataType).length + more)
        (new src subFrameSize dataType) =
      some ((slotsOf src (subFrameSize - childFrameSize) dataType).map some ++
        List.replicate more none) := by
  obtain ⟨next, hcall, hsent⟩ := @nextSlot_new 1 src subFrameSize dataType h
  generalize subFrameSize - childFrameSize = payloadSize at h hcall hsent ⊢
  have hpos : 0 < payloadSize := Nat.lt_of_lt_of_le (by decide) h
  have hlength : 0 < src.length := List.length_pos_iff.mpr hsrc
  have hleft : payloadSize * (0 + (src.length - 1) / payloadSize) < src.length := by
    have hle := Nat.mul_div_le (src.length - 1) payloadSize
    rw [Nat.zero_add]
    omega
  have hlast : src.length ≤ payloadSize * (0 + (src.length - 1) / payloadSize + 1) := by
    rw [Nat.zero_add]
    exact le_pieces hpos
  have hrest := @calls_sent next more 0 src payloadSize _ hsent hleft hlast
  have hcount : (slotsOf src payloadSize dataType).length + more =
      ((src.length - 1) / payloadSize + 1 + (more + 1 + 1)) + 1 := by
    rw [slotsOf, List.length_cons, List.length_append, List.length_map, List.length_range, pieces]
    simp only [ending, List.length_cons, List.length_nil]
    omega
  rw [hcount, calls_succ hcall, hrest, ← List.range_eq_range']
  rfl

/-! ## What is read in them -/

theorem stateOf_pieceSlot : stateOf (pieceSlot src payloadSize j) = lcomNi := by
  rw [stateOf, pieceSlot, reads_emit]
  rfl

theorem nOf_pieceSlot : nOf (pieceSlot src payloadSize j) = 1 := by
  rw [nOf, pieceSlot, reads_emit]

theorem phaseOf_pieceSlot : phaseOf (pieceSlot src payloadSize j) = j % windowCount := by
  rw [phaseOf, pieceSlot, reads_emit]
  exact Nat.mod_mod j windowCount

theorem payloadOf_pieceSlot (h : payloadSize < 32) :
    payloadOf (pieceSlot src payloadSize j) = chunk payloadSize j src := by
  apply payloadOf_emit
  · rw [chunk, List.length_take]
    omega
  · rfl

theorem niSlots_slotsOf : niSlots (slotsOf src payloadSize dataType) =
    (List.range (pieces src payloadSize)).map (pieceSlot src payloadSize) := by
  have hstart : ∀ payload, stateOf (emit lcomNiStart 1 0 niHeaderSize payload) = lcomNiStart := by
    intro payload
    rw [stateOf, reads_emit]
    rfl
  have hpieces : ((List.range (pieces src payloadSize)).map (pieceSlot src payloadSize)).filter
      (fun slot => stateOf slot = lcomNi) =
        (List.range (pieces src payloadSize)).map (pieceSlot src payloadSize) := by
    apply List.filter_eq_self.mpr
    intro slot hslot
    obtain ⟨i, -, rfl⟩ := List.mem_map.mp hslot
    exact decide_eq_true stateOf_pieceSlot
  have hending : ending.filter (fun slot => stateOf slot = lcomNi) = [] := by decide
  rw [niSlots, slotsOf, List.filter_cons_of_neg, List.filter_append, hpieces, hending,
    List.append_nil]
  rw [hstart, decide_eq_true_eq]
  decide

theorem order_slotsOf : (slotsOf src payloadSize dataType).map stateOf =
    lcomNiStart :: (List.replicate (pieces src payloadSize) lcomNi ++ [lcomNiEnd, lcomNull]) := by
  have hpieces : ((List.range (pieces src payloadSize)).map (pieceSlot src payloadSize)).map
      stateOf = List.replicate (pieces src payloadSize) lcomNi := by
    rw [List.map_map]
    apply List.eq_replicate_iff.mpr
    refine ⟨by rw [List.length_map, List.length_range], ?_⟩
    intro state hstate
    obtain ⟨i, -, rfl⟩ := List.mem_map.mp hstate
    exact stateOf_pieceSlot
  have hstart : ∀ payload, stateOf (emit lcomNiStart 1 0 niHeaderSize payload) = lcomNiStart := by
    intro payload
    rw [stateOf, reads_emit]
    rfl
  rw [slotsOf, List.map_cons, List.map_append, hpieces, hstart]
  rfl

theorem whole_slotsOf (hpos : 0 < payloadSize) (h : payloadSize < 32) :
    (niSlots (slotsOf src payloadSize dataType)).flatMap payloadOf = src := by
  have hpayloads : (fun i => payloadOf (pieceSlot src payloadSize i)) =
      fun i => chunk payloadSize i src := funext fun i => payloadOf_pieceSlot h
  have hall : src.length ≤ pieces src payloadSize * payloadSize := by
    rw [Nat.mul_comm]
    exact le_pieces hpos
  rw [niSlots_slotsOf, List.flatMap_map, hpayloads, flatMap_chunk_eq_take,
    List.take_of_length_le hall]

/-- The slots of one phase carry different `n` exactly if no phase is used twice. -/
theorem distinct_slotsOf_iff :
    (∀ phase, (((niSlots (slotsOf src payloadSize dataType)).filter
      fun slot => phaseOf slot = phase).map nOf).IsChain (· ≠ ·)) ↔
      pieces src payloadSize ≤ windowCount := by
  rw [niSlots_slotsOf]
  constructor
  · intro h
    by_contra hmany
    have hsplit : List.range (pieces src payloadSize) =
        List.range (windowCount + 1) ++
          List.range' (windowCount + 1) (pieces src payloadSize - (windowCount + 1)) := by
      have happend := @List.range'_append_1 0 (windowCount + 1)
        (pieces src payloadSize - (windowCount + 1))
      rw [Nat.zero_add] at happend
      rw [List.range_eq_range', List.range_eq_range', happend]
      congr 1
      omega
    have hchain := h 0
    rw [hsplit, List.map_append, List.filter_append, List.map_append] at hchain
    have hfirst := (List.isChain_append.mp hchain).1
    have hpair : (((List.range (windowCount + 1)).map (pieceSlot src payloadSize)).filter
        fun slot => phaseOf slot = 0) = [pieceSlot src payloadSize 0,
          pieceSlot src payloadSize 4] := by
      have hrange : List.range (windowCount + 1) = [0, 1, 2, 3, 4] := rfl
      rw [hrange]
      simp [phaseOf_pieceSlot, windowCount]
    rw [hpair] at hfirst
    simp [nOf_pieceSlot] at hfirst
  · intro hfew phase
    have hapart : ((List.range (pieces src payloadSize)).map (pieceSlot src payloadSize)).Pairwise
        fun slot slot' => phaseOf slot ≠ phaseOf slot' := by
      rw [List.pairwise_map]
      refine List.pairwise_lt_range.imp_of_mem ?_
      intro i k _ hk hlt
      have hless : k < pieces src payloadSize := List.mem_range.mp hk
      rw [phaseOf_pieceSlot, phaseOf_pieceSlot, Nat.mod_eq_of_lt (by omega),
        Nat.mod_eq_of_lt (by omega)]
      omega
    apply List.Pairwise.isChain
    rw [List.pairwise_map]
    refine (hapart.filter _).imp_of_mem ?_
    intro slot slot' hslot hslot' hne
    have hphase := (List.mem_filter.mp hslot).2
    have hphase' := (List.mem_filter.mp hslot').2
    exact absurd ((of_decide_eq_true hphase).trans (of_decide_eq_true hphase').symm) hne

/-! ## When a sender transfers its source -/

theorem transfers_of_few (h : niHeaderSize ≤ subFrameSize - childFrameSize)
    (hwidth : subFrameSize - childFrameSize < 32) (hsrc : src ≠ [])
    (hfew : pieces src (subFrameSize - childFrameSize) ≤ windowCount) :
    (new src subFrameSize dataType).Transfers := by
  have hpos : 0 < subFrameSize - childFrameSize := Nat.lt_of_lt_of_le (by decide) h
  exact ⟨slotsOf src (subFrameSize - childFrameSize) dataType, 1, fun _ => calls_new h hsrc,
    ⟨_, order_slotsOf⟩, whole_slotsOf hpos hwidth, distinct_slotsOf_iff.mpr hfew⟩

theorem few_of_transfers (h : niHeaderSize ≤ subFrameSize - childFrameSize) (hsrc : src ≠ [])
    (ht : (new src subFrameSize dataType).Transfers) :
    pieces src (subFrameSize - childFrameSize) ≤ windowCount := by
  obtain ⟨slots, fuel, hcalls, -, -, hdistinct⟩ := ht
  have hslots : slots = slotsOf src (subFrameSize - childFrameSize) dataType :=
    slots_unique hcalls fun _ => calls_new h hsrc
  rw [hslots] at hdistinct
  exact distinct_slotsOf_iff.mp hdistinct

/-- With no data no phase is ever found. -/
theorem skipPhases_empty {now : List Nat} {phase : Nat} : skipPhases now 0 fuel phase = none := by
  induction fuel generalizing phase with
  | zero => rfl
  | succ fuel ih =>
    rw [skipPhases, if_pos (Nat.zero_le _)]
    exact ih

/-- The second call of a sender of the empty source never returns. -/
theorem calls_empty : calls fuel (count + 1 + 1) (new [] subFrameSize dataType) = none := by
  have hnever : ∀ next : NiSender, next.state = .sending → next.dataSize = 0 →
      next.nextSlot fuel = none := by
    intro next hstate hsize
    unfold nextSlot
    simp only [hstate, hsize, skipPhases_empty]
  have hfirst : ∃ slot next, (new [] subFrameSize dataType).nextSlot fuel = some (slot, next) ∧
      next.state = .sending ∧ next.dataSize = 0 := ⟨_, _, rfl, rfl, rfl⟩
  obtain ⟨slot, next, hcall, hstate, hsize⟩ := hfirst
  rw [calls_succ hcall, calls, hnever next hstate hsize]
  rfl

theorem not_transfers_empty : ¬ (new [] subFrameSize dataType).Transfers := by
  rintro ⟨slots, fuel, hcalls, -⟩
  have htwo := hcalls 2
  rw [Nat.add_succ, Nat.add_succ, calls_empty] at htwo
  cases htwo

theorem pieces_le_iff (hsrc : src ≠ []) (hpos : 0 < payloadSize) :
    pieces src payloadSize ≤ windowCount ↔ src.length ≤ 4 * payloadSize := by
  have hlength : 0 < src.length := List.length_pos_iff.mpr hsrc
  have hdiv : (src.length - 1) / payloadSize < 4 ↔ src.length - 1 < 4 * payloadSize :=
    Nat.div_lt_iff_lt_mul hpos
  unfold pieces windowCount
  omega

/-- A sender transfers its source exactly if that has a byte and at most four pieces: with no byte
the second call never returns, and the fifth piece goes out in the phase of the first with the same
`n`. -/
theorem transfers_iff (h : 7 ≤ subFrameSize - childFrameSize)
    (hwidth : subFrameSize - childFrameSize ≤ 31) :
    (new src subFrameSize dataType).Transfers ↔
      0 < src.length ∧ src.length ≤ 4 * (subFrameSize - childFrameSize) := by
  by_cases hsrc : src = []
  · rw [hsrc]
    constructor
    · intro ht
      exact absurd ht not_transfers_empty
    · intro hpos
      exact absurd hpos.1 (Nat.lt_irrefl 0)
  · have hpieces := @pieces_le_iff src (subFrameSize - childFrameSize) hsrc (by omega)
    rw [← hpieces]
    constructor
    · intro ht
      exact ⟨List.length_pos_iff.mpr hsrc, few_of_transfers h hsrc ht⟩
    · intro hfew
      exact transfers_of_few h (by omega) hsrc hfew.2

theorem transfers_iff_game_data :
    (new (List.replicate 26 7)).Transfers ↔ 0 < 26 ∧ 26 ≤ 4 * 12 :=
  transfers_iff (by decide) (by decide)

/-- An empty source, and one of 49 bytes in pieces of 12. -/
theorem empty_and_fifth_piece :
    ¬ (new []).Transfers ∧ ¬ (new (List.replicate 49 7)).Transfers := by
  refine ⟨not_transfers_empty, ?_⟩
  intro ht
  have hfew := few_of_transfers (by decide) (by decide) ht
  revert hfew
  decide

end NiSender

end SwitchTrade.Rfu

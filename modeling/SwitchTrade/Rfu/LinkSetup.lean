import SwitchTrade.Rfu.GbaFrame
import SwitchTrade.Rfu.NiSender

/-!
# Setting up the link

The frames of `bridge/frlgsim/gbaframe.py` with which a child asks for an RFU link and keeps it
alive, and `NIReceiver` of `bridge/frlgsim/ni.py`, with which it answers the NI data of the host.
-/

namespace SwitchTrade.Rfu

open LittleEndian

/-! ## Control frames -/

/-- `TYPE_D`. -/
def typeD : UInt8 := 0x44

/-- `build_connect`. -/
def buildConnect (connectId : Bytes) : Option Bytes := buildGbaFrame typeC connectId

/-- The body of `build_k`. -/
def kBody (kSeq mid ackedTs : Nat) : Bytes :=
  toBytes 4 (kSeq &&& 0xFFFFFFFF) ++ toBytes 4 (mid &&& 0xFFFFFFFF) ++
    toBytes 4 (ackedTs &&& 0xFFFFFFFF)

/-- `build_k`. -/
def buildK (kSeq mid ackedTs : Nat) : Bytes :=
  [gbaMarker, typeK] ++ toBytes 2 (kBody kSeq mid ackedTs).length ++ kBody kSeq mid ackedTs

/-! ## The receiver of NI data -/

/-- `RFU_STATUS_JOIN_GROUP_OK`. -/
def rfuStatusJoinGroupOk : Nat := 5

/-- `recv_ack_slot`. -/
def recvAckSlot (state n phase : Nat) : Bytes := childNiLlsf state n phase 1 0

structure NiReceiver where
  complete : Bool := false
  status : Option UInt8 := none
  deriving DecidableEq, Repr

namespace NiReceiver

/-- What `on_host_ni` notes of a sub-frame that the host sends. -/
def note (self : NiReceiver) (llsf : Llsf) (payload : Bytes) : NiReceiver where
  complete := self.complete || decide (llsf.state = lcomNull ∨ llsf.state = lcomNiEnd)
  status := if llsf.state = lcomNi ∧ payload ≠ [] then payload.head? else self.status

/-- The acknowledgement of a sub-frame of the host, if it gets one. -/
def ackOf (llsf : Llsf) : Option Bytes :=
  if llsf.state = lcomNiStart ∨ llsf.state = lcomNi ∨ llsf.state = lcomNiEnd then
    some (recvAckSlot llsf.state llsf.n llsf.phase)
  else none

/-- `on_host_ni`: the receiver and the slot it returns. -/
def onHostNi (self : NiReceiver) : Option (Llsf × Bytes) → NiReceiver × Option Bytes
  | none => (self, none)
  | some (llsf, payload) =>
    if llsf.ack ≠ 0 then (self, none) else (self.note llsf payload, ackOf llsf)

end NiReceiver

/-! ## What is sent is read back -/

theorem built_of_some {ftype : UInt8} {data frame : Bytes}
    (h : buildGbaFrame ftype data = some frame) : Built ftype data frame := by
  have hshort : data.length < 2 ^ 16 := by
    by_contra hlong
    rw [buildGbaFrame, if_neg hlong] at h
    cases h
  obtain ⟨frame', hframe', hbuilt⟩ := @built_of_buildGbaFrame ftype _ hshort
  rw [h, Option.some.injEq] at hframe'
  rwa [hframe']

theorem opens_of_built {ftype : UInt8} {data frame : Bytes} (h : Built ftype data frame) :
    ¬(decide (frame.length < 4) || decide (frame.getD 0 0 ≠ gbaMarker)) = true := by
  rw [h.marker]
  simpa using h.length

section

variable {kSeq mid ackedTs state n phase : Nat}

theorem length_kBody : (kBody kSeq mid ackedTs).length = 12 := by
  simp only [kBody, List.length_append, length_toBytes]

theorem buildK_built : Built typeK (kBody kSeq mid ackedTs) (buildK kSeq mid ackedTs) := by
  have hshort : (kBody kSeq mid ackedTs).length < 2 ^ 16 := by
    rw [length_kBody]
    decide
  apply built_of_some
  rw [buildGbaFrame, if_pos hshort]
  rfl

/-- A `K` tells its number and the frame it acknowledges. -/
theorem parseIn_buildK :
    parseIn (buildK kSeq mid ackedTs) = some (.k (kSeq % 2 ^ 32) (some (ackedTs % 2 ^ 32))) := by
  have hbuilt := @buildK_built kSeq mid ackedTs
  have hfour : ∀ x : Nat, (toBytes 4 (x &&& 0xFFFFFFFF)).length = 4 := fun _ => length_toBytes
  have hfirst : (kBody kSeq mid ackedTs).take 4 = toBytes 4 (kSeq &&& 0xFFFFFFFF) := by
    rw [kBody, List.append_assoc, List.take_left' (hfour kSeq)]
  have hlast : ((kBody kSeq mid ackedTs).drop 8).take 4 = toBytes 4 (ackedTs &&& 0xFFFFFFFF) := by
    have height :
        (toBytes 4 (kSeq &&& 0xFFFFFFFF) ++ toBytes 4 (mid &&& 0xFFFFFFFF)).length = 8 := by
      rw [List.length_append, hfour, hfour]
    rw [kBody, List.drop_left' height, List.take_of_length_le (hfour ackedTs).le]
  rw [parseIn, if_neg (opens_of_built hbuilt), hbuilt.type, hbuilt.body]
  simp only
  rw [if_neg (by decide), if_neg (by decide), if_neg (by decide), if_pos trivial, hfirst, hlast,
    ofBytes_counter, ofBytes_counter, length_kBody, if_pos (le_refl 12)]

/-- The acknowledgement of a sub-frame tells which one it is of. -/
theorem parseLlsfChild_recvAckSlot :
    parseLlsfChild (recvAckSlot state n phase) = ⟨state % 16, 1, n % 4, phase % 4, 0⟩ := by
  have hread := @parseLlsfChild_childNiLlsf state n phase 1 0 []
  rwa [List.append_nil] at hread

end

/-! ## A sender that is asked for slot after slot -/

namespace NiSender

variable {src : Bytes} {slots : List Bytes} {self next : NiSender} {fuel count : Nat}

/-- The sender of a source has returned the slots. -/
inductive Sending (src : Bytes) : List Bytes → NiSender → Prop where
  | new : Sending src [] (new src)
  | call {slots : List Bytes} {self next : NiSender} {slot : Bytes} (h : Sending src slots self)
    (hcall : self.nextSlot windowCount = some (some slot, next)) :
    Sending src (slots ++ [slot]) next

/-- A sender that is not done returns a slot, if it returns. -/
theorem isSome_of_nextSlot {slot : Option Bytes} (hstate : self.state ≠ .done)
    (h : self.nextSlot fuel = some (slot, next)) : slot.isSome := by
  cases hs : self.state with
  | sendStart =>
    rw [nextSlot, hs] at h
    cases h
    rfl
  | sending =>
    rw [nextSlot, hs] at h
    simp only at h
    split at h
    · cases h
    · split at h <;> cases h <;> rfl
  | sendLast =>
    rw [nextSlot, hs] at h
    cases h
    rfl
  | sendNull =>
    rw [nextSlot, hs] at h
    cases h
    rfl
  | done => exact absurd hs hstate

/-- The calls from the start on are the slots there are and the calls from now on. -/
theorem Sending.calls (h : Sending src slots self) :
    calls windowCount (slots.length + count) (NiSender.new src) =
      (calls windowCount count self).map (slots.map some ++ ·) := by
  induction h generalizing count with
  | new =>
    rw [List.length_nil, Nat.zero_add]
    cases NiSender.calls windowCount count (NiSender.new src) <;> rfl
  | call h hcall ih =>
    rename_i slots self next slot
    have hlength : (slots ++ [slot]).length + count = slots.length + (count + 1) := by
      rw [List.length_append, List.length_singleton]
      omega
    rw [hlength, ih, calls_succ hcall, Option.map_map]
    congr 1
    funext answers
    show slots.map some ++ some slot :: answers = (slots ++ [slot]).map some ++ answers
    rw [List.map_append, List.append_assoc]
    rfl

/-- The calls of a sender of a source that has a byte. -/
theorem calls_windowCount (hsrc : src ≠ []) (more : Nat) :
    NiSender.calls windowCount ((slotsOf src 12 1).length + more) (NiSender.new src) =
      some ((slotsOf src 12 1).map some ++ List.replicate more none) := by
  have hone := @calls_new more src 14 1 (by decide) hsrc
  exact @calls_mono _ 1 _ 3 _ hone

/-- The slots that were returned are the first ones of the source, and all of them once the sender
is done. -/
theorem Sending.isPrefix (h : Sending src slots self) (hsrc : src ≠ []) :
    slots <+: slotsOf src 12 1 ∧ (self.state = .done → slots = slotsOf src 12 1) := by
  have hsome : ∀ (slots : List Bytes) (m : Nat),
      (slots.map some ++ List.replicate m none).filterMap id = slots := by
    intro slots m
    rw [List.filterMap_append, List.filterMap_map]
    simp
  have hall := calls_windowCount hsrc slots.length
  rw [Nat.add_comm, h.calls] at hall
  obtain ⟨rest, hrest, hanswers⟩ := Option.map_eq_some_iff.mp hall
  constructor
  · have hread := congrArg (List.filterMap id) hanswers
    rw [hsome, List.filterMap_append, List.filterMap_map] at hread
    rw [← hread]
    exact ⟨rest.filterMap id, by simp⟩
  · intro hdone
    rw [calls_done hdone, Option.some.injEq] at hrest
    have hread := congrArg (List.filterMap id) hanswers
    rw [hsome, ← hrest, hsome] at hread
    exact hread

end NiSender

end SwitchTrade.Rfu

import SwitchTrade.Rfu.Llsf
import SwitchTrade.Rfu.Reflection

/-!
# The frames around the slots

`bridge/frlgsim/gbaframe.py`: a frame is a marker, its type, the length of its body and the body.
The slot of a child stands behind its length at another offset than the one of the parent. What is
wrapped is parsed again (`parseOut_wrapT`, `parseIn_wrapParentT`).
-/

namespace SwitchTrade.Rfu

open Chunks LittleEndian

/-- `GBA_MARKER`. -/
def gbaMarker : UInt8 := 0x57

/-- `TYPE_T`. -/
def typeT : UInt8 := 0x54

/-- `TYPE_K`. -/
def typeK : UInt8 := 0x4B

/-- `TYPE_C`. -/
def typeC : UInt8 := 0x43

/-- `TYPE_A`. -/
def typeA : UInt8 := 0x41

/-! ## Building -/

/-- A frame of a type and a body; where `len(body).to_bytes(2, "little")` raises there is none. -/
def buildGbaFrame (ftype : UInt8) (data : Bytes) : Option Bytes :=
  if data.length < 2 ^ 16 then some ([gbaMarker, ftype] ++ toBytes 2 data.length ++ data) else none

/-- `_roundup4`. -/
def roundup4 (n : Nat) : Nat := (n + 3) / 4 * 4

def padSlot (slot : Bytes) : Bytes := slot ++ List.replicate (roundup4 slot.length - slot.length) 0

/-- `wrap_t`. -/
def wrapT (slot : Bytes) (ts : Nat) : Option Bytes :=
  buildGbaFrame typeT
    (toBytes 4 (ts &&& 0xFFFFFFFF) ++ [0, UInt8.ofNat (slot.length &&& 0xFF), 0, 0] ++ padSlot slot)

/-- `wrap_parent_t`. -/
def wrapParentT (slot : Option Bytes) (ts : Nat) : Option Bytes :=
  match slot with
  | none => buildGbaFrame typeT (toBytes 4 (ts &&& 0xFFFFFFFF) ++ [1, 0, 0, 0])
  | some slot =>
    buildGbaFrame typeT
      (toBytes 4 (ts &&& 0xFFFFFFFF) ++ [UInt8.ofNat (slot.length &&& 0xFF), 0, 0, 0] ++
        padSlot slot)

/-! ## Parsing -/

/-- A `T` frame of the host. -/
structure HostT where
  ts : Option Nat
  slotLen : Nat
  llsfState : Option Nat := none
  slots : List (Nat × Bytes) := []
  payload : Bytes := []
  ni : Option (Llsf × Bytes) := none
  deriving DecidableEq, Repr

/-- What `parse_in` returns. -/
inductive InFrame where
  | t (frame : HostT)
  | a (hostSessionId connectId : Bytes)
  | c (connectId : Bytes)
  | k (kSeq : Nat) (ackedTs : Option Nat)
  | other (typ : UInt8)
  deriving DecidableEq, Repr

/-- The rows of a UNI window. -/
def rowsOf (payload : Bytes) : List (Nat × Bytes) :=
  (List.range (payload.length / commSlotLength)).map fun mpid =>
    (mpid, chunk commSlotLength mpid payload)

/-- The slot of a `T` frame of the host. -/
def parseHostSlot (ts slotLen : Nat) (slot : Bytes) : HostT :=
  let llsf := ofBytes (slot.take 3)
  let state := (llsf >>> 14) &&& 0xF
  let payload := slot.drop 3
  if state = lcomUni then
    { ts := some ts, slotLen, llsfState := some state, payload, slots := rowsOf payload }
  else
    { ts := some ts, slotLen, llsfState := some state, payload,
      ni := some ({
        state
        ack := (llsf >>> 13) &&& 1
        n := (llsf >>> 11) &&& 3
        phase := (llsf >>> 9) &&& 3
        size := llsf &&& 0x7F }, payload) }

/-- The body of a `T` frame of the host. -/
def parseHostT (body : Bytes) : HostT :=
  if body.length < 5 then { ts := none, slotLen := 0 }
  else
    let ts := ofBytes (body.take 4)
    let slotLen := (body.getD 4 0).toNat
    if slotLen ≤ 1 then { ts := some ts, slotLen }
    else parseHostSlot ts slotLen ((body.drop 8).take slotLen)

/-- The body of a frame, as long as its length says. -/
def bodyOf (payload : Bytes) : Bytes :=
  (payload.drop 4).take (ofBytes ((payload.drop 2).take 2))

/-- `parse_in`. -/
def parseIn (payload : Bytes) : Option InFrame :=
  if payload.length < 4 || payload.getD 0 0 ≠ gbaMarker then none
  else
    let typ := payload.getD 1 0
    let body := bodyOf payload
    if typ = typeT then some (.t (parseHostT body))
    else if typ = typeA then some (.a (body.take 2) ((body.drop 2).take 2))
    else if typ = typeC then some (.c (body.take 2))
    else if typ = typeK then
      some (.k (ofBytes (body.take 4))
        (if 12 ≤ body.length then some (ofBytes ((body.drop 8).take 4)) else none))
    else some (.other typ)

/-- The slots of a frame by player, `positional`; other frames have none. -/
def InFrame.positional : InFrame → List (Nat × Bytes)
  | .t frame => frame.slots
  | _ => []

/-- What `parse_out` returns. -/
structure ChildT where
  ts : Nat
  slotLen : Nat
  slot : Bytes
  llsf : Option Llsf
  cmd : Option Bytes
  deriving DecidableEq, Repr

/-- The slot of a `T` frame of the child. -/
def parseChildSlot (ts slotLen : Nat) (slot : Bytes) : ChildT :=
  if 2 ≤ slotLen then
    let llsf := parseLlsfChild slot
    { ts, slotLen, slot, llsf := some llsf,
      cmd := if llsf.state = lcomUni then some ((slot.drop 2).take commSlotLength) else none }
  else { ts, slotLen, slot, llsf := none, cmd := none }

/-- `parse_out`. -/
def parseOut (payload : Bytes) : Option ChildT :=
  if payload.length < 4 || payload.getD 0 0 ≠ gbaMarker || payload.getD 1 0 ≠ typeT then none
  else
    let body := bodyOf payload
    if body.length < 8 then none
    else
      let slotLen := (body.getD 5 0).toNat
      some (parseChildSlot (ofBytes (body.take 4)) slotLen ((body.drop 8).take slotLen))

/-! ## What is wrapped is parsed -/

section

variable {ftype : UInt8} {data frame slot : Bytes} {ts : Nat}

/-- What is read of a frame that was built. -/
structure Built (ftype : UInt8) (data frame : Bytes) : Prop where
  length : 4 ≤ frame.length
  marker : frame.getD 0 0 = gbaMarker
  type : frame.getD 1 0 = ftype
  body : bodyOf frame = data

theorem built_of_buildGbaFrame (h : data.length < 2 ^ 16) :
    ∃ frame, buildGbaFrame ftype data = some frame ∧ Built ftype data frame := by
  refine ⟨_, if_pos h, ?_, rfl, rfl, ?_⟩
  · simp only [List.length_append, length_toBytes, List.length_cons, List.length_nil]
    omega
  · have hlength : (toBytes 2 data.length).length = 2 := length_toBytes
    have hfield : (([gbaMarker, ftype] ++ toBytes 2 data.length ++ data).drop 2).take 2 =
        toBytes 2 data.length := by
      have hdrop : ([gbaMarker, ftype] ++ (toBytes 2 data.length ++ data)).drop 2 =
          toBytes 2 data.length ++ data := List.drop_left' rfl
      rw [List.append_assoc, hdrop, List.take_left' hlength]
    have hrest : ([gbaMarker, ftype] ++ toBytes 2 data.length ++ data).drop 4 = data := by
      apply List.drop_left'
      rw [List.length_append, hlength]
      rfl
    rw [bodyOf, hfield, hrest, ofBytes_toBytes h, List.take_length]

theorem length_padSlot (h : slot.length < 256) : (padSlot slot).length < 260 := by
  rw [padSlot, roundup4, List.length_append, List.length_replicate]
  omega

theorem take_padSlot : (padSlot slot).take slot.length = slot := List.take_left' rfl

theorem toNat_low8 {n : Nat} (h : n < 256) : (UInt8.ofNat (n &&& 0xFF)).toNat = n := by
  have hmask : n &&& 0xFF = n % 256 := Nat.and_two_pow_sub_one_eq_mod n 8
  rw [hmask, UInt8.toNat_ofNat']
  omega

/-- The counter is sent in four bytes. -/
theorem ofBytes_counter : ofBytes (toBytes 4 (ts &&& 0xFFFFFFFF)) = ts % 2 ^ 32 := by
  have hmask : ts &&& 0xFFFFFFFF = ts % 2 ^ 32 := Nat.and_two_pow_sub_one_eq_mod ts 32
  rw [hmask]
  apply ofBytes_toBytes
  omega

/-- A body of a counter, four bytes and a slot. -/
theorem body_reads (a b c d : UInt8) (rest : Bytes) :
    let body := toBytes 4 (ts &&& 0xFFFFFFFF) ++ [a, b, c, d] ++ rest
    ofBytes (body.take 4) = ts % 2 ^ 32 ∧ body.getD 4 0 = a ∧ body.getD 5 0 = b ∧
      body.drop 8 = rest ∧ 8 ≤ body.length := by
  have hlength : (toBytes 4 (ts &&& 0xFFFFFFFF)).length = 4 := length_toBytes
  have hget : ∀ i, (toBytes 4 (ts &&& 0xFFFFFFFF) ++ ([a, b, c, d] ++ rest)).getD (4 + i) 0 =
      ([a, b, c, d] ++ rest).getD i 0 := by
    intro i
    rw [List.getD_eq_getElem?_getD, List.getElem?_append_right (by omega), hlength,
      Nat.add_sub_cancel_left, List.getD_eq_getElem?_getD]
  intro body
  have hbody : body = toBytes 4 (ts &&& 0xFFFFFFFF) ++ ([a, b, c, d] ++ rest) :=
    List.append_assoc _ _ _
  refine ⟨?_, ?_, ?_, ?_, ?_⟩
  · rw [hbody, List.take_left' hlength, ofBytes_counter]
  · rw [hbody]
    exact hget 0
  · rw [hbody]
    exact hget 1
  · apply List.drop_left'
    rw [List.length_append, hlength]
    rfl
  · rw [hbody, List.length_append, hlength, List.length_append, List.length_cons]
    simp only [List.length_cons]
    omega

theorem length_body (a b c d : UInt8) (h : slot.length < 256) :
    (toBytes 4 (ts &&& 0xFFFFFFFF) ++ [a, b, c, d] ++ padSlot slot).length < 2 ^ 16 := by
  have hpad := length_padSlot h
  simp only [List.length_append, length_toBytes, List.length_cons, List.length_nil]
  omega

theorem parseOut_wrapT (h : slot.length < 256) :
    ∃ frame, wrapT slot ts = some frame ∧
      parseOut frame = some (parseChildSlot (ts % 2 ^ 32) slot.length slot) := by
  obtain ⟨frame, hframe, hbuilt⟩ := @built_of_buildGbaFrame typeT _
    (@length_body slot ts 0 (UInt8.ofNat (slot.length &&& 0xFF)) 0 0 h)
  obtain ⟨hts, -, hlen, hdrop, hlong⟩ :=
    @body_reads ts 0 (UInt8.ofNat (slot.length &&& 0xFF)) 0 0 (padSlot slot)
  refine ⟨frame, hframe, ?_⟩
  have hopens : ¬(decide (frame.length < 4) || decide (frame.getD 0 0 ≠ gbaMarker) ||
      decide (frame.getD 1 0 ≠ typeT)) = true := by
    rw [hbuilt.marker, hbuilt.type]
    simpa using hbuilt.length
  rw [parseOut, if_neg hopens, hbuilt.body]
  simp only
  rw [if_neg (Nat.not_lt.mpr hlong), hts, hlen, hdrop, toNat_low8 h, take_padSlot]

theorem parseIn_wrapParentT (h : slot.length < 256) (hlong : 2 ≤ slot.length) :
    ∃ frame, wrapParentT (some slot) ts = some frame ∧
      parseIn frame = some (.t (parseHostSlot (ts % 2 ^ 32) slot.length slot)) := by
  obtain ⟨frame, hframe, hbuilt⟩ := @built_of_buildGbaFrame typeT _
    (@length_body slot ts (UInt8.ofNat (slot.length &&& 0xFF)) 0 0 0 h)
  obtain ⟨hts, hlen, -, hdrop, height⟩ :=
    @body_reads ts (UInt8.ofNat (slot.length &&& 0xFF)) 0 0 0 (padSlot slot)
  refine ⟨frame, hframe, ?_⟩
  have hopens : ¬(decide (frame.length < 4) || decide (frame.getD 0 0 ≠ gbaMarker)) = true := by
    rw [hbuilt.marker]
    simpa using hbuilt.length
  rw [parseIn, if_neg hopens, hbuilt.type, hbuilt.body]
  simp only [if_true]
  rw [parseHostT, if_neg (by omega), hlen, toNat_low8 h]
  simp only
  rw [if_neg (by omega), hts, hdrop, take_padSlot]

end

end SwitchTrade.Rfu

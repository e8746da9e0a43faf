import SwitchTrade.Transition.BigEndian
import Mathlib.Data.List.DropRight

/-!
# The application blob of a Pia datagram

`build_message`, `build_app`, `parse_messages` and `parse_app` of `bridge/frlgsim/reliable.py`. A
blob is messages in a row, the two bytes of a station id, and padding. A message may leave a field
out of its header and has then the one of the message before it.
-/

namespace SwitchTrade.Pia

open BigEndian

abbrev Bytes := List UInt8

/-! ## Building -/

/-- A message as `_send_messages` is given it. -/
structure Outgoing where
  proto : Nat
  payload : Bytes
  msgflags : Option Nat
  deriving DecidableEq, Repr

/-- `build_message`; the length of a payload that needs a third byte raises. -/
def buildMessage (m : Outgoing) : Option Bytes :=
  let flags : UInt8 := 0x02 ||| 0x04 ||| (if m.msgflags.isSome then 0x01 else 0)
  if m.payload.length < 256 ^ 2 then
    some (flags :: (m.msgflags.map UInt8.ofNat).toList ++ toBytes 2 m.payload.length ++
      [UInt8.ofNat m.proto] ++ m.payload)
  else none

/-- `build_app`. -/
def buildApp (messages : List Bytes) (stationId : UInt16) (pad : Nat) : Bytes :=
  messages.flatten ++ toBytes 2 stationId.toNat ++ List.replicate pad 0xff

/-- `build_app` of what `build_message` makes of the messages. -/
def buildBlob (messages : List Outgoing) (stationId : UInt16) (pad : Nat) : Option Bytes :=
  (messages.mapM buildMessage).map fun built => buildApp built stationId pad

/-! ## Parsing -/

structure Message where
  flags : UInt8
  msgflags : UInt8
  proto : Option UInt8
  size : Nat
  payload : Bytes
  hdrBytes : Bytes
  deriving DecidableEq, Repr

/-- What a header leaves out: the fields of the message before it. -/
structure Inherited where
  msgflags : UInt8
  size : Option Nat
  proto : Option UInt8
  deriving DecidableEq, Repr

/-- A field of `width` bytes, if the flags announce it; `none` if the data ends in it. -/
def readField {α : Type} (announced : Bool) (width : Nat) (read : Bytes → α) (inherited : α)
    (data : Bytes) : Option (α × Bytes) :=
  if announced then
    if data.length < width then none else some (read (data.take width), data.drop width)
  else some (inherited, data)

/-- The fields that follow the flags of a header, and the data after them. -/
def readHeader (before : Inherited) (flags : UInt8) (data : Bytes) :
    Option (Inherited × Bytes) := do
  let (msgflags, data) ← readField (flags &&& 1 ≠ 0) 1 (·.headD 0) before.msgflags data
  let (size, data) ← readField (flags &&& 2 ≠ 0) 2 (some ∘ ofBytes) before.size data
  let (proto, data) ← readField (flags &&& 4 ≠ 0) 1 (some ∘ (·.headD 0)) before.proto data
  -- The destination port is skipped.
  let (_, data) ← readField (flags &&& 8 ≠ 0) 1 (fun _ => ()) () data
  return (⟨msgflags, size, proto⟩, data)

/-- The loop body of `parse_messages`: the next message, what the one after it inherits, and the
data after it; `none` where the loop ends. -/
def nextMessage (before : Inherited) : Bytes → Option (Message × Inherited × Bytes)
  | [] => none
  | flags :: data =>
    if flags = 0xff ∨ flags &&& 0xF0 ≠ 0 then none
    else if flags = 0 ∧ before.size = none then none
    else do
      let (fields, rest) ← readHeader before flags data
      let size ← fields.size
      if rest.length < size then none
      else
        let hdrBytes := (flags :: data).take ((flags :: data).length - rest.length)
        return (⟨flags, fields.msgflags, fields.proto, size, rest.take size, hdrBytes⟩, fields,
          rest.drop size)

/-- The loop of `parse_messages`; every turn consumes a byte at least. -/
def tile : Nat → Inherited → Bytes → List Message × Bytes
  | 0, _, data => ([], data)
  | fuel + 1, before, data =>
    match nextMessage before data with
    | none => ([], data)
    | some (m, fields, rest) =>
      let tiled := tile fuel fields rest
      (m :: tiled.1, tiled.2)

/-- `parse_messages`: the messages and how many bytes they take. -/
def parseMessages (data : Bytes) : List Message × Nat :=
  let tiled := tile data.length ⟨0, none, none⟩ data
  (tiled.1, data.length - tiled.2.length)

/-- `parse_app`: the messages, the station id, and the length of what follows the messages. -/
def parseApp (data : Bytes) : List Message × Option Nat × Nat :=
  let parsed := parseMessages data
  let tail := data.drop parsed.2
  let stripped := tail.rdropWhile (· = 0xff)
  (parsed.1, if stripped.length = 2 then some (ofBytes stripped) else none, tail.length)

/-! ## The loop -/

variable {before fields : Inherited} {data rest : Bytes} {m : Message} {flags : UInt8}

theorem readField_suffix {α : Type} {announced : Bool} {width : Nat} {read : Bytes → α}
    {inherited value : α} (h : readField announced width read inherited data = some (value, rest)) :
    rest <:+ data := by
  unfold readField at h
  split at h
  · split at h
    · cases h
    · cases h
      exact List.drop_suffix _ _
  · cases h
    exact List.suffix_rfl

theorem readHeader_suffix (h : readHeader before flags data = some (fields, rest)) :
    rest <:+ data := by
  simp only [readHeader, Option.pure_def, Option.bind_eq_bind, Option.bind_eq_some_iff,
    Option.some.injEq, Prod.mk.injEq, Prod.exists] at h
  obtain ⟨_, _, hmsgflags, _, _, hsize, _, _, hproto, _, _, hport, -, rfl⟩ := h
  exact (readField_suffix hport).trans ((readField_suffix hproto).trans
    ((readField_suffix hsize).trans (readField_suffix hmsgflags)))

/-- A message takes its flags and more from the front of the data. -/
theorem nextMessage_suffix (h : nextMessage before data = some (m, fields, rest)) :
    rest <:+ data ∧ rest.length < data.length := by
  cases data with
  | nil => cases h
  | cons flags data =>
    simp only [nextMessage] at h
    split at h
    · cases h
    · split at h
      · cases h
      · simp only [Option.pure_def, Option.bind_eq_bind, Option.bind_eq_some_iff,
          Prod.exists] at h
        obtain ⟨_, after, hheader, size, -, h⟩ := h
        split at h
        · cases h
        · cases h
          have hsuffix : after.drop size <:+ data :=
            (List.drop_suffix _ _).trans (readHeader_suffix hheader)
          exact ⟨hsuffix.trans (List.suffix_cons _ _), Nat.lt_succ_of_le hsuffix.length_le⟩

theorem tile_suffix (fuel : Nat) : (tile fuel before data).2 <:+ data := by
  induction fuel generalizing before data with
  | zero => exact List.suffix_rfl
  | succ fuel ih =>
    unfold tile
    split
    · exact List.suffix_rfl
    · rename_i m fields rest hnext
      exact ih.trans (nextMessage_suffix hnext).1

/-- The loop ends before its fuel does. -/
theorem tile_fuel {fuel : Nat} (h : data.length ≤ fuel) :
    tile fuel before data = tile data.length before data := by
  induction hlength : data.length using Nat.strong_induction_on generalizing fuel before data with
  | _ n ih =>
    subst hlength
    cases data with
    | nil =>
      cases fuel with
      | zero => rfl
      | succ fuel => rfl
    | cons flags data =>
      obtain ⟨fuel, rfl⟩ := Nat.exists_eq_succ_of_ne_zero
        (Nat.ne_of_gt (Nat.lt_of_lt_of_le (Nat.succ_pos _) h))
      have hdata : data.length ≤ fuel := Nat.le_of_succ_le_succ h
      rw [List.length_cons]
      unfold tile
      cases hnext : nextMessage before (flags :: data) with
      | none => rfl
      | some next =>
        obtain ⟨m, fields, rest⟩ := next
        have hlt := (nextMessage_suffix hnext).2
        have hrest : rest.length ≤ data.length := Nat.le_of_lt_succ hlt
        simp only
        rw [ih rest.length hlt (hrest.trans hdata) rfl, ih rest.length hlt hrest rfl]

/-- The messages of data that starts with one. -/
theorem parse_cons (h : nextMessage before data = some (m, fields, rest)) :
    tile data.length before data =
      (m :: (tile rest.length fields rest).1, (tile rest.length fields rest).2) := by
  have hlt := (nextMessage_suffix h).2
  obtain ⟨fuel, hfuel⟩ := Nat.exists_eq_succ_of_ne_zero (Nat.ne_of_gt (Nat.zero_lt_of_lt hlt))
  have hrest : rest.length ≤ fuel := by omega
  rw [hfuel, tile, h]
  simp only
  rw [tile_fuel hrest]

theorem parse_nil (h : nextMessage before data = none) :
    tile data.length before data = ([], data) := by
  cases data with
  | nil => rfl
  | cons flags data =>
    rw [List.length_cons, tile, h]

/-- What `parse_app` looks at after the messages is what the loop left. -/
theorem drop_parseMessages :
    data.drop (parseMessages data).2 = (tile data.length ⟨0, none, none⟩ data).2 := by
  obtain ⟨front, hfront⟩ := @tile_suffix ⟨0, none, none⟩ data data.length
  have hlength := congrArg List.length hfront
  rw [List.length_append] at hlength
  have hconsumed : (parseMessages data).2 = front.length := by
    unfold parseMessages
    simp only
    omega
  rw [hconsumed]
  conv_lhs => rw [← hfront]
  exact List.drop_left

end SwitchTrade.Pia

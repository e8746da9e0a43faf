import SwitchTrade.Tunnel.Envelope
import SwitchTrade.Transition.BigEndian

/-!
# The bytes of an envelope

`Envelope.encode` and `Envelope.decode`: a header of fixed size in network byte order, the
attempt ID in UTF-8, the payload. The two check the same bounds in different places; they are
inverse to one another on the envelopes that `encode` accepts (`envelope_codec`).
-/

namespace SwitchTrade.Tunnel

open Fallible

/-- What the two methods may raise, and what the calls in them may. -/
inductive Raised where
  | error (error : TunnelV2Error)
  | structError
  | unicodeDecodeError
  | valueError
  deriving DecidableEq, Repr

/-- A check of its own module. -/
def checked {α : Type} (x : Except TunnelV2Error α) : Except Raised α := x.mapError .error

@[simp] theorem checked_eq_ok {α : Type} {x : Except TunnelV2Error α} {a : α} :
    checked x = .ok a ↔ x = .ok a := by
  cases x <;> simp [checked, Except.mapError]

/-! ## Texts -/

/-- `text.encode("utf-8")`. -/
def utf8Bytes (text : String) : Bytes := text.toByteArray.data.toList

/-- `raw.decode("utf-8")`. -/
def utf8Text (raw : Bytes) : Except Raised String :=
  orRaise (String.fromUTF8? ⟨raw.toArray⟩) .unicodeDecodeError

theorem utf8Text_eq_ok {raw : Bytes} {text : String} :
    utf8Text raw = .ok text ↔ raw = utf8Bytes text := by
  unfold utf8Text utf8Bytes String.fromUTF8?
  rw [orRaise_eq_ok]
  constructor
  · intro h
    split at h
    · cases h
      rfl
    · cases h
  · rintro rfl
    have hvalid : (⟨text.toByteArray.data.toList.toArray⟩ : ByteArray).IsValidUTF8 :=
      text.isValidUTF8
    rw [dif_pos hvalid]
    rfl

def maxAttemptBytes : Nat := 128

/-- `_attempt_bytes`; every text here has a UTF-8 encoding. -/
def attemptBytes (attemptId : String) : Except TunnelV2Error Bytes := do
  let encoded := utf8Bytes attemptId
  raiseIf (¬ (1 ≤ encoded.length ∧ encoded.length ≤ maxAttemptBytes))
    ⟨"C_ATTEMPT_INVALID", "attempt ID length is invalid"⟩
  return encoded

/-! ## Enumerations -/

def SourceSeat.value : SourceSeat → Nat
  | .memberA => 1
  | .memberB => 2

/-- `SourceSeat(value)`. -/
def SourceSeat.ofValue (value : Nat) : Except Raised SourceSeat :=
  match value with
  | 1 => .ok .memberA
  | 2 => .ok .memberB
  | _ => .error .valueError

def Kind.value : Kind → Nat
  | .peerReady => 1
  | .probeChallenge => 2
  | .probeResponse => 3
  | .advertisement => 4
  | .sideReady => 5
  | .peerClose => 6
  | .rfu => 7

/-- `Kind(value)`. -/
def Kind.ofValue (value : Nat) : Except Raised Kind :=
  match value with
  | 1 => .ok .peerReady
  | 2 => .ok .probeChallenge
  | 3 => .ok .probeResponse
  | 4 => .ok .advertisement
  | 5 => .ok .sideReady
  | 6 => .ok .peerClose
  | 7 => .ok .rfu
  | _ => .error .valueError

theorem SourceSeat.ofValue_eq_ok {value : Nat} {seat : SourceSeat} :
    SourceSeat.ofValue value = .ok seat ↔ value = seat.value := by
  constructor
  · intro h
    unfold SourceSeat.ofValue at h
    split at h <;> cases h <;> rfl
  · rintro rfl
    cases seat <;> rfl

theorem Kind.ofValue_eq_ok {value : Nat} {kind : Kind} :
    Kind.ofValue value = .ok kind ↔ value = kind.value := by
  constructor
  · intro h
    unfold Kind.ofValue at h
    split at h <;> cases h <;> rfl
  · rintro rfl
    cases kind <;> rfl

/-! ## The header -/

/-- `MAGIC`. -/
def magic : Bytes := ascii "STR2"

def version : Nat := 2

/-- The fields of `struct.Struct("!4sBBBBQQHI")`. -/
structure Header where
  magic : Bytes
  version : Nat
  kind : Nat
  seat : Nat
  flags : Nat
  epoch : Nat
  sequence : Nat
  attemptLength : Nat
  payloadLength : Nat

namespace Header

/-- The widths of the fields after the magic. -/
def widths : List Nat := [1, 1, 1, 1, 8, 8, 2, 4]

def values (h : Header) : List Nat :=
  [h.version, h.kind, h.seat, h.flags, h.epoch, h.sequence, h.attemptLength, h.payloadLength]

/-- Every field fits its format. -/
def Fits (h : Header) : Prop :=
  h.magic.length = 4 ∧ ∀ f ∈ widths.zip h.values, f.2 < 256 ^ f.1

instance (h : Header) : Decidable h.Fits := by
  unfold Fits
  infer_instance

/-- `HEADER.pack`. -/
def pack (h : Header) : Except Raised Bytes :=
  if h.Fits then .ok (h.magic ++ BigEndian.pack (widths.zip h.values)) else .error .structError

/-- `HEADER.unpack_from`. -/
def unpackFrom (raw : Bytes) : Except Raised Header :=
  if raw.length < headerSize then .error .structError
  else
    match BigEndian.unpack widths ((raw.take headerSize).drop 4) with
    | [version, kind, seat, flags, epoch, sequence, attemptLength, payloadLength] =>
      .ok ⟨raw.take 4, version, kind, seat, flags, epoch, sequence, attemptLength, payloadLength⟩
    | _ => .error .structError

theorem pack_eq_ok {h : Header} {bytes : Bytes} :
    h.pack = .ok bytes ↔ h.Fits ∧ bytes = h.magic ++ BigEndian.pack (widths.zip h.values) := by
  unfold pack
  split
  · next hfits => simp [hfits, eq_comm]
  · next hfits => simp [hfits]

theorem length_pack {h : Header} {bytes : Bytes} (hp : h.pack = .ok bytes) :
    bytes.length = headerSize := by
  obtain ⟨hfits, rfl⟩ := pack_eq_ok.mp hp
  rw [List.length_append, hfits.1, BigEndian.length_pack]
  rfl

/-- What is packed is unpacked. -/
theorem unpackFrom_pack {h : Header} {bytes : Bytes} (hp : h.pack = .ok bytes) (rest : Bytes) :
    unpackFrom (bytes ++ rest) = .ok h := by
  have hlength := length_pack hp
  obtain ⟨hfits, hbytes⟩ := pack_eq_ok.mp hp
  have hlong : ¬ (bytes ++ rest).length < headerSize := by
    rw [List.length_append]
    omega
  have hmagic : (bytes ++ rest).take 4 = h.magic := by
    rw [hbytes, List.append_assoc]
    exact List.take_left' hfits.1
  have hfields : ((bytes ++ rest).take headerSize).drop 4 =
      BigEndian.pack (widths.zip h.values) ++ [] := by
    rw [List.take_left' hlength, hbytes, List.append_nil]
    exact List.drop_left' hfits.1
  have hunpacked : BigEndian.unpack widths (BigEndian.pack (widths.zip h.values) ++ []) =
      h.values := BigEndian.unpack_pack hfits.2 []
  unfold unpackFrom
  rw [if_neg hlong, hmagic, hfields, hunpacked]
  rfl

/-- What is unpacked is packed. -/
theorem pack_unpackFrom {raw : Bytes} {h : Header} (hu : unpackFrom raw = .ok h) :
    h.pack = .ok (raw.take headerSize) ∧ headerSize ≤ raw.length := by
  unfold unpackFrom at hu
  split at hu
  · cases hu
  · next hlong =>
      have hlength : (raw.take headerSize).length = headerSize := by
        rw [List.length_take]
        omega
      have hbody : ((raw.take headerSize).drop 4).length = widths.sum := by
        rw [List.length_drop, hlength]
        rfl
      have hmagic : raw.take 4 = (raw.take headerSize).take 4 := by
        rw [List.take_take]
        rfl
      have hvalues : h.values = BigEndian.unpack widths ((raw.take headerSize).drop 4) := by
        cases hu
        rfl
      have htake : h.magic = raw.take 4 := by
        cases hu
        rfl
      refine ⟨pack_eq_ok.mpr ⟨⟨?_, ?_⟩, ?_⟩, by omega⟩
      · rw [htake, List.length_take]
        unfold headerSize at hlong
        omega
      · rw [hvalues]
        exact BigEndian.unpack_lt
      · rw [hvalues, BigEndian.pack_unpack hbody, htake, hmagic, List.take_append_drop]

end Header

/-! ## `Envelope.encode` and `Envelope.decode` -/

def maxUInt64 : Nat := 0xFFFFFFFFFFFFFFFF

namespace Envelope

/-- The header of the envelope. -/
def header (e : Envelope) (attemptLength : Nat) : Header where
  magic := magic
  version := Tunnel.version
  kind := e.kind.value
  seat := e.sourceSeat.value
  flags := e.flags
  epoch := e.sourceEpoch
  sequence := e.sequence
  attemptLength := attemptLength
  payloadLength := e.payload.length

def encode (e : Envelope) : Except Raised Bytes := do
  let attempt ← checked (attemptBytes e.attemptId)
  raiseIf (maxUInt64 < e.sourceEpoch)
    (.error ⟨"C_EPOCH_INVALID", "source epoch is outside uint64"⟩)
  raiseIf (maxUInt64 < e.sequence) (.error ⟨"C_SEQUENCE_INVALID", "sequence is outside uint64"⟩)
  checked (validatePayload e.kind e.payload e.flags)
  let header ← (e.header attempt.length).pack
  return header ++ attempt ++ e.payload

def envelopeInvalid (message : String) : Raised := .error ⟨"C_ENVELOPE_INVALID", message⟩

/-- `except (UnicodeDecodeError, ValueError)`. -/
def fieldOf {α : Type} (x : Except Raised α) : Except Raised α :=
  match x with
  | .error .unicodeDecodeError => .error (envelopeInvalid "envelope field is invalid")
  | .error .valueError => .error (envelopeInvalid "envelope field is invalid")
  | other => other

def decode (raw : Bytes) : Except Raised Envelope := do
  raiseIf (raw.length < headerSize) (envelopeInvalid "envelope header is truncated")
  let header ← Header.unpackFrom raw
  raiseIf (header.magic ≠ magic ∨ header.version ≠ Tunnel.version)
    (envelopeInvalid "envelope header is unsupported")
  raiseIf (¬ (1 ≤ header.attemptLength ∧ header.attemptLength ≤ maxAttemptBytes) ∨
    maxPayloadBytes < header.payloadLength) (envelopeInvalid "envelope lengths are invalid")
  raiseIf (raw.length ≠ headerSize + header.attemptLength + header.payloadLength)
    (envelopeInvalid "envelope length does not match header")
  let boundary := headerSize + header.attemptLength
  let (attemptId, sourceSeat, kind) ← fieldOf do
    let attemptId ← utf8Text ((raw.take boundary).drop headerSize)
    let sourceSeat ← SourceSeat.ofValue header.seat
    let kind ← Kind.ofValue header.kind
    return (attemptId, sourceSeat, kind)
  let envelope : Envelope := {
    attemptId := attemptId
    sourceSeat := sourceSeat
    sourceEpoch := header.epoch
    sequence := header.sequence
    kind := kind
    payload := raw.drop boundary
    flags := header.flags }
  let _ ← checked (attemptBytes envelope.attemptId)
  checked (validatePayload envelope.kind envelope.payload envelope.flags)
  return envelope

/-! ## The image of `encode` -/

theorem attemptBytes_eq_ok {attemptId : String} {encoded : Bytes} :
    attemptBytes attemptId = .ok encoded ↔
      (1 ≤ encoded.length ∧ encoded.length ≤ maxAttemptBytes) ∧ encoded = utf8Bytes attemptId := by
  unfold attemptBytes
  simp only [bind_eq_ok, raiseIf_eq_ok, pure_eq_ok, not_not, exists_const]
  constructor
  · rintro ⟨hbounds, rfl⟩
    exact ⟨hbounds, rfl⟩
  · rintro ⟨hbounds, rfl⟩
    exact ⟨hbounds, rfl⟩

/-- A payload that passes has flags of one byte and is within its bound. -/
theorem validatePayload_bounds {kind : Kind} {payload : Bytes} {flags : Nat}
    (h : validatePayload kind payload flags = .ok ()) :
    flags ≤ 0xFF ∧ payload.length ≤ maxPayloadBytes := by
  unfold validatePayload at h
  simp only [bind_eq_ok, raiseIf_eq_ok, exists_const] at h
  obtain ⟨hflags, -, hlength, -⟩ := h
  exact ⟨Nat.not_lt.mp hflags, Nat.not_lt.mp hlength⟩

/-- What `encode` accepts, and the bytes it makes. -/
theorem encode_eq_ok {e : Envelope} {raw : Bytes} :
    e.encode = .ok raw ↔ ∃ attempt header, attemptBytes e.attemptId = .ok attempt ∧
      e.sourceEpoch ≤ maxUInt64 ∧ e.sequence ≤ maxUInt64 ∧
      validatePayload e.kind e.payload e.flags = .ok () ∧
      (e.header attempt.length).pack = .ok header ∧ raw = header ++ attempt ++ e.payload := by
  unfold encode
  simp only [bind_eq_ok, checked_eq_ok, raiseIf_eq_ok, pure_eq_ok, exists_const, Nat.not_lt]
  constructor
  · rintro ⟨attempt, ha, hepoch, hsequence, ⟨⟩, hpayload, header, hheader, rfl⟩
    exact ⟨attempt, header, ha, hepoch, hsequence, hpayload, hheader, rfl⟩
  · rintro ⟨attempt, header, ha, hepoch, hsequence, hpayload, hheader, rfl⟩
    exact ⟨attempt, ha, hepoch, hsequence, ⟨⟩, hpayload, header, hheader, rfl⟩

theorem fieldOf_eq_ok {α : Type} {x : Except Raised α} {a : α} : fieldOf x = .ok a ↔ x = .ok a := by
  unfold fieldOf
  split <;> simp

/-- What `decode` accepts, and the envelope it makes. -/
theorem decode_eq_ok {raw : Bytes} {e : Envelope} :
    decode raw = .ok e ↔ ∃ h, Header.unpackFrom raw = .ok h ∧
      h = e.header h.attemptLength ∧
      (1 ≤ h.attemptLength ∧ h.attemptLength ≤ maxAttemptBytes) ∧
      raw.length = headerSize + h.attemptLength + h.payloadLength ∧
      (raw.take (headerSize + h.attemptLength)).drop headerSize = utf8Bytes e.attemptId ∧
      raw.drop (headerSize + h.attemptLength) = e.payload ∧
      validatePayload e.kind e.payload e.flags = .ok () := by
  unfold decode
  simp only [bind_eq_ok, checked_eq_ok, raiseIf_eq_ok, pure_eq_ok, exists_const, fieldOf_eq_ok,
    not_or, not_not, utf8Text_eq_ok, SourceSeat.ofValue_eq_ok, Kind.ofValue_eq_ok]
  constructor
  · rintro ⟨-, h, hu, ⟨hmagic, hversion⟩, ⟨hbounds, -⟩, hlength, fields,
      ⟨text, htext, seat, hseat, kind, hkind, rfl⟩, -, -, ⟨⟩, hpayload, rfl⟩
    refine ⟨h, hu, ?_, hbounds, hlength, htext, rfl, hpayload⟩
    have hrest : (raw.drop (headerSize + h.attemptLength)).length = h.payloadLength := by
      rw [List.length_drop]
      omega
    unfold header
    rw [hrest, ← hmagic, ← hversion, ← hseat, ← hkind]
  · rintro ⟨h, hu, hheader, hbounds, hlength, htext, hrest, hpayload⟩
    have hmagic : h.magic = magic := by rw [hheader]; rfl
    have hversion : h.version = Tunnel.version := by rw [hheader]; rfl
    have hseat : h.seat = e.sourceSeat.value := by rw [hheader]; rfl
    have hkind : h.kind = e.kind.value := by rw [hheader]; rfl
    have hsize : h.payloadLength = e.payload.length := by rw [hheader]; rfl
    have hencoded : (utf8Bytes e.attemptId).length = h.attemptLength := by
      rw [← htext, List.length_drop, List.length_take]
      omega
    refine ⟨?_, h, hu, ⟨hmagic, hversion⟩, ⟨hbounds, ?_⟩, hlength, _,
      ⟨_, htext, _, hseat, _, hkind, rfl⟩, _, attemptBytes_eq_ok.mpr ⟨?_, rfl⟩, ⟨⟩, ?_, ?_⟩
    · omega
    · rw [hsize]
      exact Nat.not_lt.mpr (validatePayload_bounds hpayload).2
    · rw [hencoded]
      exact hbounds
    · rw [hrest]
      have hflags : h.flags = e.flags := by rw [hheader]; rfl
      rw [hflags]
      exact hpayload
    · have hepoch : h.epoch = e.sourceEpoch := by rw [hheader]; rfl
      have hsequence : h.sequence = e.sequence := by rw [hheader]; rfl
      have hflags : h.flags = e.flags := by rw [hheader]; rfl
      rw [hrest, hepoch, hsequence, hflags]

/-- The call raises nothing but a `TunnelV2Error`. -/
def Factual {α : Type} (x : Except Raised α) : Prop :=
  ∀ raised, x = .error raised → ∃ error, raised = .error error

namespace Factual

variable {α β : Type}

theorem bind {x : Except Raised α} {f : α → Except Raised β} (hx : Factual x)
    (hf : ∀ a, x = .ok a → Factual (f a)) : Factual (x >>= f) := by
  intro raised h
  rcases bind_eq_error.mp h with h | ⟨a, ha, h⟩
  · exact hx raised h
  · exact hf a ha raised h

theorem raiseIf (c : Prop) [Decidable c] (error : TunnelV2Error) :
    Factual (Fallible.raiseIf c (Raised.error error)) := by
  intro raised h
  obtain ⟨-, rfl⟩ := raiseIf_eq_error.mp h
  exact ⟨error, rfl⟩

theorem checked (x : Except TunnelV2Error α) : Factual (checked x) := by
  intro raised h
  cases x with
  | ok a => cases h
  | error error =>
    cases h
    exact ⟨error, rfl⟩

theorem pure (a : α) : Factual (Pure.pure a : Except Raised α) := by
  intro raised h
  cases h

end Factual

theorem Header.unpackFrom_factual {raw : Bytes} (h : ¬ raw.length < headerSize) :
    Factual (Header.unpackFrom raw) := by
  intro raised hu
  unfold Header.unpackFrom at hu
  rw [if_neg h] at hu
  cases hu

theorem fieldOf_factual {α : Type} {x : Except Raised α}
    (h : ∀ raised, x = .error raised → raised = .unicodeDecodeError ∨ raised = .valueError) :
    Factual (fieldOf x) := by
  intro raised hf
  cases x with
  | ok a => cases hf
  | error inner =>
    rcases h inner rfl with rfl | rfl
    · cases hf
      exact ⟨_, rfl⟩
    · cases hf
      exact ⟨_, rfl⟩

/-- The text and the numbers of the fields raise what is caught. -/
theorem fields_raise {text : Bytes} {seat kind : Nat} {raised : Raised}
    (h : (do
      let attemptId ← utf8Text text
      let sourceSeat ← SourceSeat.ofValue seat
      let kind ← Kind.ofValue kind
      return (attemptId, sourceSeat, kind)) = .error raised) :
    raised = .unicodeDecodeError ∨ raised = .valueError := by
  rcases bind_eq_error.mp h with h | ⟨attemptId, -, h⟩
  · exact .inl (orRaise_eq_error.mp h).2.symm
  rcases bind_eq_error.mp h with h | ⟨sourceSeat, -, h⟩
  · unfold SourceSeat.ofValue at h
    split at h <;> cases h
    exact .inr rfl
  rcases bind_eq_error.mp h with h | ⟨kind', -, h⟩
  · unfold Kind.ofValue at h
    split at h <;> cases h
    exact .inr rfl
  · exact absurd h (by simp [pure_eq_error])

/-- `decode` raises nothing but a `TunnelV2Error`. -/
theorem decode_factual (raw : Bytes) : Factual (decode raw) := by
  unfold decode
  refine .bind (.raiseIf _ _) fun _ hlong => ?_
  refine .bind (Header.unpackFrom_factual (raiseIf_eq_ok.mp hlong)) fun header _ => ?_
  refine .bind (.raiseIf _ _) fun _ _ => ?_
  refine .bind (.raiseIf _ _) fun _ _ => ?_
  refine .bind (.raiseIf _ _) fun _ _ => ?_
  refine .bind (fieldOf_factual fun _ => fields_raise) fun fields _ => ?_
  refine .bind (.checked _) fun _ _ => ?_
  exact .bind (.checked _) fun _ _ => .pure _

end Envelope

/-- `decode` is the inverse of `encode`: it accepts the bytes that `encode` makes and no others,
and on any others it raises a `TunnelV2Error`. -/
theorem envelope_codec (raw : Bytes) :
    (∀ e : Envelope, Envelope.decode raw = .ok e ↔ e.encode = .ok raw) ∧
    ∀ raised, Envelope.decode raw = .error raised → ∃ error, raised = .error error := by
  refine ⟨fun e => ?_, Envelope.decode_factual raw⟩
  rw [Envelope.decode_eq_ok, Envelope.encode_eq_ok]
  constructor
  · rintro ⟨h, hu, hheader, hbounds, hlength, htext, hrest, hpayload⟩
    obtain ⟨hpack, hlong⟩ := Header.pack_unpackFrom hu
    obtain ⟨⟨-, hfits⟩, -⟩ := Header.pack_eq_ok.mp hpack
    have hencoded : (utf8Bytes e.attemptId).length = h.attemptLength := by
      rw [← htext, List.length_drop, List.length_take]
      omega
    have hepoch : h.epoch < 256 ^ 8 := hfits (8, h.epoch) (by simp [Header.widths, Header.values])
    have hsequence : h.sequence < 256 ^ 8 :=
      hfits (8, h.sequence) (by simp [Header.widths, Header.values])
    have hepoch' : h.epoch = e.sourceEpoch := by rw [hheader]; rfl
    have hsequence' : h.sequence = e.sequence := by rw [hheader]; rfl
    refine ⟨utf8Bytes e.attemptId, raw.take headerSize,
      Envelope.attemptBytes_eq_ok.mpr ⟨by rwa [hencoded], rfl⟩, ?_, ?_, hpayload, ?_, ?_⟩
    · unfold maxUInt64
      omega
    · unfold maxUInt64
      omega
    · rw [hencoded, ← hheader]
      exact hpack
    · have hstart :
          raw.take headerSize = (raw.take (headerSize + h.attemptLength)).take headerSize := by
        rw [List.take_take, Nat.min_eq_left (Nat.le_add_right _ _)]
      rw [← htext, ← hrest, hstart, List.take_append_drop, List.take_append_drop]
  · rintro ⟨attempt, header, hattempt, hepoch, hsequence, hpayload, hheader, rfl⟩
    obtain ⟨hbounds, hencoded⟩ := Envelope.attemptBytes_eq_ok.mp hattempt
    have hlength := Header.length_pack hheader
    have hboundary : (header ++ attempt).length = headerSize + attempt.length := by
      rw [List.length_append, hlength]
    have hunpacked := Header.unpackFrom_pack hheader (attempt ++ e.payload)
    rw [← List.append_assoc] at hunpacked
    refine ⟨_, hunpacked, rfl, hbounds, ?_, ?_, ?_, hpayload⟩
    · rw [List.length_append, hboundary]
      rfl
    · show ((header ++ attempt ++ e.payload).take (headerSize + attempt.length)).drop headerSize = _
      rw [List.take_left' hboundary, List.drop_left' hlength, hencoded]
    · exact List.drop_left' hboundary

end SwitchTrade.Tunnel

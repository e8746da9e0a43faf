import SwitchTrade.Pia.Datagram

/-!
# Where the messages of a blob end

The parser has no length for the messages. It takes the first byte of the station id for the flags
of another message unless a high bit says otherwise, and that message inherits its size from the
last one sent: whether it fits in what is left decides (`Extends`).
-/

namespace SwitchTrade.Pia

open BigEndian

/-! ## Messages as they were built -/

/-- What follows a message built by `build_message` inherits all of it. -/
def inherit (before : Inherited) (m : Outgoing) : Inherited where
  msgflags := (m.msgflags.map UInt8.ofNat).getD before.msgflags
  size := some m.payload.length
  proto := some (UInt8.ofNat m.proto)

theorem readHeader_plain {before : Inherited} {high low proto : UInt8} {rest : Bytes} :
    readHeader before 6 (high :: low :: proto :: rest) =
      some (⟨before.msgflags, some (ofBytes [high, low]), some proto⟩, rest) := rfl

theorem readHeader_flagged {before : Inherited} {msgflags high low proto : UInt8} {rest : Bytes} :
    readHeader before 7 (msgflags :: high :: low :: proto :: rest) =
      some (⟨msgflags, some (ofBytes [high, low]), some proto⟩, rest) := rfl

/-- A message whose header was read and whose payload is there. -/
theorem nextMessage_of_header {before fields : Inherited} {flags : UInt8}
    {data payload rest : Bytes}
    (hlow : flags &&& 0xF0 = 0) (hset : flags ≠ 0) (hones : flags ≠ 0xff)
    (hheader : readHeader before flags data = some (fields, payload ++ rest))
    (hsize : fields.size = some payload.length) :
    ∃ m : Message, nextMessage before (flags :: data) = some (m, fields, rest) ∧
      m.proto = fields.proto ∧ m.size = payload.length ∧ m.payload = payload := by
  refine ⟨⟨flags, fields.msgflags, fields.proto, payload.length, payload,
    (flags :: data).take ((flags :: data).length - (payload ++ rest).length)⟩, ?_, rfl, rfl, rfl⟩
  have hfits : ¬(payload ++ rest).length < payload.length := by
    rw [List.length_append]
    omega
  rw [nextMessage, if_neg (by simp [hlow, hones]), if_neg (by simp [hset]), hheader]
  simp only [Option.bind_eq_bind, Option.bind_some, hsize, if_neg hfits, Option.pure_def,
    List.take_left, List.drop_left]

theorem nextMessage_buildMessage {m : Outgoing} {built rest : Bytes} {before : Inherited}
    (h : buildMessage m = some built) :
    ∃ parsed : Message, nextMessage before (built ++ rest) = some (parsed, inherit before m, rest) ∧
      parsed.proto = some (UInt8.ofNat m.proto) ∧ parsed.size = m.payload.length ∧
      parsed.payload = m.payload := by
  obtain ⟨proto, payload, msgflags⟩ := m
  simp only [buildMessage, Option.ite_none_right_eq_some, Option.some.injEq] at h
  obtain ⟨hlength, rfl⟩ := h
  have hsize : ofBytes (toBytes 2 payload.length) = payload.length := ofBytes_toBytes hlength
  have hsize' : ofBytes [UInt8.ofNat (payload.length / 256), UInt8.ofNat payload.length] =
    payload.length := hsize
  cases msgflags with
  | none =>
    have hbuilt : (2 ||| 4 ||| (if (none : Option Nat).isSome then 1 else 0) : UInt8) ::
        ((none : Option Nat).map UInt8.ofNat).toList ++ toBytes 2 payload.length ++
          [UInt8.ofNat proto] ++ payload ++ rest =
        6 :: UInt8.ofNat (payload.length / 256) :: UInt8.ofNat payload.length ::
          UInt8.ofNat proto :: (payload ++ rest) := rfl
    rw [hbuilt]
    refine nextMessage_of_header (by decide) (by decide) (by decide) ?_ rfl
    rw [readHeader_plain, hsize']
    rfl
  | some msgflags =>
    have hflags : (2 ||| 4 ||| 1 : UInt8) = 7 := by decide
    have hbuilt : (2 ||| 4 ||| (if (some msgflags).isSome then 1 else 0) : UInt8) ::
        ((some msgflags).map UInt8.ofNat).toList ++ toBytes 2 payload.length ++
          [UInt8.ofNat proto] ++ payload ++ rest =
        (2 ||| 4 ||| 1) :: UInt8.ofNat msgflags :: UInt8.ofNat (payload.length / 256) ::
          UInt8.ofNat payload.length :: UInt8.ofNat proto :: (payload ++ rest) := rfl
    rw [hbuilt, hflags]
    refine nextMessage_of_header (by decide) (by decide) (by decide) ?_ rfl
    rw [readHeader_flagged, hsize']
    rfl

/-- What a reader compares of a message: its protocol, its size and its payload. -/
def Outgoing.content (m : Outgoing) : Option Nat × Nat × Bytes :=
  (some m.proto, m.payload.length, m.payload)

def Message.content (m : Message) : Option Nat × Nat × Bytes :=
  (m.proto.map UInt8.toNat, m.size, m.payload)

/-- The protocol number as it is on the wire. -/
def Outgoing.wire (m : Outgoing) : Outgoing := { m with proto := m.proto % 256 }

/-- The messages are tiled one by one, and the loop goes on behind the last one. -/
theorem tile_built {messages : List Outgoing} {built : List Bytes} {rest : Bytes}
    {before : Inherited} (h : messages.mapM buildMessage = some built) :
    ∃ parsed : List Message, parsed.map Message.content =
        messages.map (Outgoing.content ∘ Outgoing.wire) ∧
      tile (built.flatten ++ rest).length before (built.flatten ++ rest) =
        (parsed ++ (tile rest.length (messages.foldl inherit before) rest).1,
          (tile rest.length (messages.foldl inherit before) rest).2) := by
  induction messages generalizing built before with
  | nil =>
    cases h
    exact ⟨[], rfl, rfl⟩
  | cons m messages ih =>
    simp only [List.mapM_cons, Option.pure_def, Option.bind_eq_bind,
      Option.bind_eq_some_iff, Option.some.injEq] at h
    obtain ⟨first, hfirst, built, hbuilt, rfl⟩ := h
    obtain ⟨parsed, hparsed, htile⟩ := @ih built (inherit before m) hbuilt
    obtain ⟨next, hnext, hproto, hsize, hpayload⟩ :=
      @nextMessage_buildMessage m first (built.flatten ++ rest) before hfirst
    refine ⟨next :: parsed, ?_, ?_⟩
    · have hcontent : next.content = m.wire.content := by
        rw [Message.content, hproto, hsize, hpayload]
        show (some (UInt8.ofNat m.proto).toNat, _, _) = _
        rw [UInt8.toNat_ofNat']
        rfl
      rw [List.map_cons, List.map_cons, hcontent, hparsed]
      rfl
    · rw [List.flatten_cons, List.append_assoc, parse_cons hnext, htile]
      rfl

theorem size_foldl_inherit {messages : List Outgoing} {m : Outgoing} {before : Inherited}
    (h : messages.getLast? = some m) :
    (messages.foldl inherit before).size = some m.payload.length := by
  obtain ⟨front, rfl⟩ := List.getLast?_eq_some_iff.mp h
  rw [List.foldl_append]
  rfl

/-! ## The footer -/

/-- How many bytes a field takes. -/
def taken (announced : Bool) (width : Nat) : Nat := if announced then width else 0

section

variable {α : Type} {announced : Bool} {width : Nat} {read : Bytes → α} {inherited : α}
  {data : Bytes}

@[simp] theorem readField_false :
    readField false width read inherited data = some (inherited, data) := rfl

theorem readField_enough (h : taken announced width ≤ data.length) :
    ∃ value, readField announced width read inherited data =
      some (value, data.drop (taken announced width)) := by
  cases announced with
  | true =>
    have hlength : ¬data.length < width := Nat.not_lt.mpr h
    exact ⟨read (data.take width), if_neg hlength⟩
  | false => exact ⟨inherited, rfl⟩

theorem readField_short (h : data.length < taken announced width) :
    readField announced width read inherited data = none := by
  cases announced with
  | true => exact if_pos h
  | false => exact absurd h (Nat.not_lt_zero _)

end

/-- How many fields of one byte the flags announce. -/
def byteFields (flags : UInt8) : Nat :=
  taken (flags &&& 1 ≠ 0) 1 + taken (flags &&& 4 ≠ 0) 1 + taken (flags &&& 8 ≠ 0) 1

/-- A header that announces no size inherits it. -/
theorem readHeader_enough {before : Inherited} {flags : UInt8} {data : Bytes}
    (h : flags &&& 2 = 0) (hlength : byteFields flags ≤ data.length) :
    ∃ fields : Inherited, fields.size = before.size ∧
      readHeader before flags data = some (fields, data.drop (byteFields flags)) := by
  unfold byteFields at hlength ⊢
  obtain ⟨msgflags, hmsgflags⟩ := @readField_enough _ (flags &&& 1 ≠ 0) 1 (·.headD 0)
    before.msgflags data (by omega)
  obtain ⟨proto, hproto⟩ := @readField_enough _ (flags &&& 4 ≠ 0) 1 (some ∘ (·.headD 0))
    before.proto (data.drop (taken (flags &&& 1 ≠ 0) 1)) (by rw [List.length_drop]; omega)
  obtain ⟨port, hport⟩ := @readField_enough _ (flags &&& 8 ≠ 0) 1 (fun _ => ()) ()
    ((data.drop (taken (flags &&& 1 ≠ 0) 1)).drop (taken (flags &&& 4 ≠ 0) 1))
    (by rw [List.length_drop, List.length_drop]; omega)
  refine ⟨⟨msgflags, before.size, proto⟩, rfl, ?_⟩
  have hnosize : decide (flags &&& 2 ≠ 0) = false := by simp [h]
  simp only [readHeader, hmsgflags, hnosize, readField_false, hproto, hport, Option.bind_eq_bind,
    Option.bind_some, Option.pure_def]
  rw [List.drop_drop, List.drop_drop, Nat.add_assoc]

theorem readHeader_short {before : Inherited} {flags : UInt8} {data : Bytes}
    (h : flags &&& 2 = 0) (hlength : data.length < byteFields flags) :
    readHeader before flags data = none := by
  unfold byteFields at hlength
  have hnosize : decide (flags &&& 2 ≠ 0) = false := by simp [h]
  rw [Option.eq_none_iff_forall_ne_some]
  rintro ⟨fields, rest⟩ hheader
  have hone : ∀ {α : Type} {announced : Bool} {read : Bytes → α} {inherited value : α}
      {data rest : Bytes}, readField announced 1 read inherited data = some (value, rest) →
        data.length = rest.length + taken announced 1 := by
    intro α announced read inherited value data rest hread
    rcases Nat.lt_or_ge data.length (taken announced 1) with hlt | hge
    · rw [readField_short hlt] at hread
      cases hread
    · obtain ⟨_, henough⟩ := @readField_enough _ announced 1 read inherited data hge
      rw [henough] at hread
      cases hread
      rw [List.length_drop]
      omega
  simp only [readHeader, Option.pure_def, Option.bind_eq_bind, Option.bind_eq_some_iff,
    Option.some.injEq, Prod.mk.injEq, Prod.exists, hnosize, readField_false] at hheader
  obtain ⟨_, _, hmsgflags, _, _, ⟨rfl, rfl⟩, _, _, hproto, _, _, hport, -, rfl⟩ := hheader
  have hlengths := hone hmsgflags
  have hlengths' := hone hproto
  have hlengths'' := hone hport
  omega

/-- A size read in the padding does not fit. -/
theorem size_of_padding {before fields : Inherited} {flags low : UInt8} {pad : Nat} {rest : Bytes}
    (h : flags &&& 2 ≠ 0)
    (hheader : readHeader before flags (low :: List.replicate pad 0xff) = some (fields, rest)) :
    ∃ size, fields.size = some size ∧ 255 ≤ size := by
  have hsized : decide (flags &&& 2 ≠ 0) = true := by simp [h]
  have htwo : ∀ {byte : UInt8} {pad : Nat} {value : Option Nat} {rest : Bytes},
      readField true 2 (some ∘ ofBytes) before.size (byte :: List.replicate pad 0xff) =
        some (value, rest) → ∃ size, value = some size ∧ 255 ≤ size := by
    intro byte pad value rest hread
    cases pad with
    | zero => cases hread
    | succ pad =>
      cases hread
      refine ⟨_, rfl, ?_⟩
      show 255 ≤ 256 * (256 * 0 + byte.toNat) + 255
      omega
  simp only [readHeader, Option.pure_def, Option.bind_eq_bind, Option.bind_eq_some_iff,
    Option.some.injEq, Prod.mk.injEq, Prod.exists, hsized] at hheader
  obtain ⟨_, after, hmsgflags, _, _, hsize, _, _, hproto, _, _, hport, rfl, rfl⟩ := hheader
  cases hannounced : decide (flags &&& 1 ≠ 0) with
  | false =>
    rw [hannounced] at hmsgflags
    cases hmsgflags
    exact htwo hsize
  | true =>
    rw [hannounced] at hmsgflags
    cases hmsgflags
    cases pad with
    | zero => cases hsize
    | succ pad => exact htwo hsize

/-- The byte after the messages opens another one, which inherits the size and fits. -/
def Extends (flags : UInt8) (size pad : Nat) : Prop :=
  flags &&& 0xF0 = 0 ∧ flags &&& 2 = 0 ∧ byteFields flags + size ≤ 1 + pad

instance (flags : UInt8) (size pad : Nat) : Decidable (Extends flags size pad) :=
  inferInstanceAs (Decidable (_ ∧ _ ∧ _))

/-- The loop ends at the footer, unless its first byte opens another message. -/
theorem nextMessage_footer {before : Inherited} {high low : UInt8} {size pad : Nat}
    (hsize : before.size = some size) (hpad : pad ≤ 15) :
    nextMessage before (high :: low :: List.replicate pad 0xff) = none ↔
      ¬Extends high size pad := by
  have hlength : (low :: List.replicate pad (0xff : UInt8)).length = 1 + pad := by
    rw [List.length_cons, List.length_replicate]
    omega
  rw [nextMessage]
  by_cases hhigh : high &&& 0xF0 = 0
  · have hones : high ≠ 0xff := by
      rintro rfl
      exact absurd hhigh (by decide)
    rw [if_neg (by simp [hhigh, hones]), if_neg (by simp [hsize])]
    by_cases hsized : high &&& 2 = 0
    · rcases Nat.lt_or_ge (1 + pad) (byteFields high) with hshort | henough
      · rw [readHeader_short hsized (hlength ▸ hshort)]
        refine iff_of_true rfl ?_
        rintro ⟨-, -, hfits⟩
        omega
      · obtain ⟨fields, hinherit, hheader⟩ :=
          @readHeader_enough before high (low :: List.replicate pad 0xff) hsized
            (hlength ▸ henough)
        rw [hsize] at hinherit
        have hafter : ((low :: List.replicate pad (0xff : UInt8)).drop (byteFields high)).length =
            1 + pad - byteFields high := by
          rw [List.length_drop, hlength]
        simp only [hheader, hinherit, Option.bind_eq_bind, Option.bind_some, Option.pure_def,
          hafter]
        split
        · rename_i hlarge
          refine iff_of_true rfl ?_
          rintro ⟨-, -, hfits⟩
          omega
        · rename_i hfits
          refine iff_of_false (Option.some_ne_none _) (not_not.mpr ⟨hhigh, hsized, ?_⟩)
          omega
    · refine iff_of_true ?_ fun hextends => hsized hextends.2.1
      rw [Option.eq_none_iff_forall_ne_some]
      rintro next hnext
      simp only [Option.bind_eq_bind, Option.bind_eq_some_iff, Prod.exists] at hnext
      obtain ⟨fields, rest, hheader, size', hsize', hnext⟩ := hnext
      obtain ⟨size'', hlarge, h255⟩ := size_of_padding hsized hheader
      have hrest := (readHeader_suffix hheader).length_le
      rw [hlength] at hrest
      rw [hlarge] at hsize'
      cases hsize'
      rw [if_pos (by omega)] at hnext
      cases hnext
  · rw [if_pos (.inr hhigh)]
    exact iff_of_true rfl fun hextends => hhigh hextends.1

/-! ## The round trip -/

/-- `parse_app` returns the messages and the station id, and what is behind the messages is the
footer and the padding. -/
def RoundTrips (messages : List Outgoing) (stationId : UInt16) (pad : Nat) : Prop :=
  ∃ blob, buildBlob messages stationId pad = some blob ∧
    (parseApp blob).1.map Message.content = messages.map Outgoing.content ∧
    (parseApp blob).2.1 = some stationId.toNat ∧ (parseApp blob).2.2 = 2 + pad

/-- The protocol numbers are bytes, the footer does not end as the padding does, and its first
byte does not open another message. -/
structure Delimited (messages : List Outgoing) (stationId : UInt16) (pad : Nat) : Prop where
  protos : ∀ m ∈ messages, m.proto < 256
  low : UInt8.ofNat stationId.toNat ≠ 0xff
  high : ∀ m ∈ messages.getLast?,
    ¬Extends (UInt8.ofNat (stationId.toNat / 256)) m.payload.length pad

theorem mapM_buildMessage {messages : List Outgoing}
    (h : ∀ m ∈ messages, m.payload.length < 2 ^ 16) :
    ∃ built, messages.mapM buildMessage = some built := by
  induction messages with
  | nil => exact ⟨[], rfl⟩
  | cons m messages ih =>
    obtain ⟨built, hbuilt⟩ := ih fun m hm => h m (List.mem_cons_of_mem _ hm)
    have hlength : m.payload.length < 256 ^ 2 := h m List.mem_cons_self
    have hfirst : ∃ first, buildMessage m = some first := ⟨_, if_pos hlength⟩
    obtain ⟨first, hfirst⟩ := hfirst
    refine ⟨first :: built, ?_⟩
    rw [List.mapM_cons, hbuilt, hfirst]
    rfl

/-- The footer and the padding without the bytes 0xff at the end. -/
theorem strip_padding {footer : Bytes} {pad : Nat} :
    (footer ++ List.replicate pad 0xff).rdropWhile (· = 0xff) =
      footer.rdropWhile (· = 0xff) := by
  induction pad with
  | zero => rw [List.replicate_zero, List.append_nil]
  | succ pad ih =>
    rw [List.replicate_succ', ← List.append_assoc, List.rdropWhile_concat_pos _ _ _ (by decide), ih]

/-- The station id is read unless its low byte is taken for padding. -/
theorem station_of_footer {stationId : UInt16} {pad : Nat} :
    (let stripped := (toBytes 2 stationId.toNat ++ List.replicate pad 0xff).rdropWhile (· = 0xff)
      if stripped.length = 2 then some (ofBytes stripped) else none) = some stationId.toNat ↔
        UInt8.ofNat stationId.toNat ≠ 0xff := by
  have hfooter : toBytes 2 stationId.toNat =
      [UInt8.ofNat (stationId.toNat / 256)] ++ [UInt8.ofNat stationId.toNat] := rfl
  rw [strip_padding]
  by_cases hlow : UInt8.ofNat stationId.toNat = 0xff
  · refine iff_of_false ?_ (not_not.mpr hlow)
    have hshort : ((toBytes 2 stationId.toNat).rdropWhile (· = 0xff)).length < 2 := by
      rw [hfooter, List.rdropWhile_concat_pos _ _ _ (by simpa using hlow)]
      exact Nat.lt_succ_of_le (List.rdropWhile_prefix _ _).length_le
    simp only
    rw [if_neg (Nat.ne_of_lt hshort)]
    nofun
  · refine iff_of_true ?_ hlow
    have hkept : (toBytes 2 stationId.toNat).rdropWhile (· = 0xff) = toBytes 2 stationId.toNat := by
      rw [hfooter, List.rdropWhile_concat_neg _ _ _ (by simpa using hlow)]
    simp only
    rw [hkept, if_pos (length_toBytes _ _), ofBytes_toBytes stationId.toNat_lt]

/-- A protocol number that is no byte is changed by `& 0xFF`. -/
theorem content_wire {messages : List Outgoing} :
    messages.map (Outgoing.content ∘ Outgoing.wire) = messages.map Outgoing.content ↔
      ∀ m ∈ messages, m.proto < 256 := by
  rw [List.map_inj_left]
  refine forall₂_congr fun m _ => ?_
  simp only [Function.comp_apply, Outgoing.content, Outgoing.wire, Prod.mk.injEq, Option.some.injEq,
    and_true]
  constructor
  · intro hmod
    omega
  · intro hlt
    exact Nat.mod_eq_of_lt hlt

/-- The messages and the station id are read back exactly where the footer delimits them. -/
theorem parse_build_app {messages : List Outgoing} {stationId : UInt16} {pad : Nat}
    (hmessages : messages ≠ []) (hpayload : ∀ m ∈ messages, m.payload.length < 2 ^ 16)
    (hpad : pad ≤ 15) :
    RoundTrips messages stationId pad ↔ Delimited messages stationId pad := by
  obtain ⟨built, hbuilt⟩ := mapM_buildMessage hpayload
  obtain ⟨last, hlast⟩ := Option.isSome_iff_exists.mp (List.getLast?_isSome.mpr hmessages)
  let footer := toBytes 2 stationId.toNat ++ List.replicate pad 0xff
  let fields := messages.foldl inherit ⟨0, none, none⟩
  have hblob : buildBlob messages stationId pad = some (built.flatten ++ footer) := by
    rw [buildBlob, hbuilt, Option.map_some, buildApp, List.append_assoc]
  obtain ⟨parsed, hparsed, htile⟩ := @tile_built messages built footer ⟨0, none, none⟩ hbuilt
  have hmsgs : (parseApp (built.flatten ++ footer)).1 =
      parsed ++ (tile footer.length fields footer).1 := congrArg Prod.fst htile
  have htail : (built.flatten ++ footer).drop (parseMessages (built.flatten ++ footer)).2 =
      (tile footer.length fields footer).2 := by
    rw [drop_parseMessages, htile]
  have hend : nextMessage fields footer = none ↔
      ¬Extends (UInt8.ofNat (stationId.toNat / 256)) last.payload.length pad :=
    nextMessage_footer (size_foldl_inherit hlast) hpad
  cases hnext : nextMessage fields footer with
  | none =>
    have hnone := parse_nil hnext
    have hround : RoundTrips messages stationId pad ↔
        messages.map (Outgoing.content ∘ Outgoing.wire) = messages.map Outgoing.content ∧
          UInt8.ofNat stationId.toNat ≠ 0xff := by
      rw [RoundTrips, hblob]
      simp only [Option.some.injEq, exists_eq_left']
      rw [hmsgs, hnone, List.append_nil, hparsed]
      refine and_congr_right fun _ => ?_
      simp only [parseApp, htail, hnone]
      rw [station_of_footer]
      refine and_iff_left ?_
      rw [List.length_append, length_toBytes, List.length_replicate]
    rw [hround, content_wire]
    constructor
    · rintro ⟨hprotos, hlow⟩
      refine ⟨hprotos, hlow, ?_⟩
      rw [hlast]
      rintro m hm
      cases hm
      exact hend.mp hnext
    · intro h
      exact ⟨h.protos, h.low⟩
  | some next =>
    obtain ⟨m, inherited, rest⟩ := next
    have hsome := parse_cons hnext
    refine iff_of_false ?_ fun h => ?_
    · rintro ⟨blob, hblob', hcontent, -⟩
      rw [hblob] at hblob'
      cases hblob'
      rw [hmsgs, hsome] at hcontent
      have hlength := congrArg List.length hcontent
      have hparsed := congrArg List.length hparsed
      simp only [List.length_map, List.length_append, List.length_cons] at hlength hparsed
      omega
    · rw [hend.mpr (h.high last hlast)] at hnext
      cases hnext

theorem parse_build_app_host : Delimited [⟨13, [1, 2], some 8⟩, ⟨10, [], none⟩] 0x7620 3 ∧
    RoundTrips [⟨13, [1, 2], some 8⟩, ⟨10, [], none⟩] 0x7620 3 := by
  have hdelimited : Delimited [⟨13, [1, 2], some 8⟩, ⟨10, [], none⟩] 0x7620 3 := by
    refine ⟨by decide, by decide, ?_⟩
    rintro m hm
    cases hm
    decide
  exact ⟨hdelimited, (parse_build_app (by decide) (by decide) (by decide)).mpr hdelimited⟩

/-- The footer of the station 1 is tiled as two messages behind an empty one, and the low byte of
the station 0x76ff is taken for padding. -/
theorem footer_not_delimited :
    (∃ blob, buildBlob [⟨1, [], none⟩] 0x0001 10 = some blob ∧
      (parseApp blob).1.map Message.content =
        [(some 1, 0, []), (some 1, 0, []), (some 1, 0, [])] ∧ (parseApp blob).2.1 = none) ∧
      ¬RoundTrips [⟨1, [], none⟩] 0x0001 10 ∧ ¬RoundTrips [⟨1, [], none⟩] 0x76ff 10 := by
  refine ⟨⟨_, rfl, by decide, by decide⟩, ?_, ?_⟩
  · rintro ⟨blob, hblob, hcontent, -⟩
    cases hblob
    exact absurd hcontent (by decide)
  · rintro ⟨blob, hblob, -, hstation, -⟩
    cases hblob
    exact absurd hstation (by decide)

end SwitchTrade.Pia

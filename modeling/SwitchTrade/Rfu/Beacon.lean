import SwitchTrade.Rfu.Base85
import SwitchTrade.Pia.Texts
import SwitchTrade.Transition.Dict

/-!
# The beacon of a host

`bridge/frlgsim/beacon.py`: the application data is the header of Pia and the RFU record in base 85.
`_frlg_name` of `transport.py` reads the name of the record back.
-/

namespace SwitchTrade.Rfu

open LittleEndian Chunks Fallible Pia

/-! ## Names -/

/-- `NAME_WIDTH`. -/
def nameWidth : Nat := 8

/-- `_NAME_ENC.get(ch)`. -/
def nameEnc (ch : Char) : Option UInt8 :=
  if 'A' ≤ ch ∧ ch ≤ 'Z' then some (UInt8.ofNat (0xBB + (ch.toNat - 'A'.toNat)))
  else if 'a' ≤ ch ∧ ch ≤ 'z' then some (UInt8.ofNat (0xD5 + (ch.toNat - 'a'.toNat)))
  else if '0' ≤ ch ∧ ch ≤ '9' then some (UInt8.ofNat (0xA1 + (ch.toNat - '0'.toNat)))
  else none

/-- `encode_frlg_name`. -/
def encodeFrlgName (name : Text) (width : Nat := nameWidth) : Bytes :=
  let out := (name.filterMap nameEnc).take (width - 1) ++ [0xFF]
  out ++ List.replicate (width - out.length) 0xFF

/-- One byte of `_frlg_name` before the terminator. -/
def frlgChar (x : UInt8) : Char :=
  if 0xBB ≤ x ∧ x ≤ 0xD4 then Char.ofNat ('A'.toNat + (x.toNat - 0xBB))
  else if 0xD5 ≤ x ∧ x ≤ 0xEE then Char.ofNat ('a'.toNat + (x.toNat - 0xD5))
  else if 0xA1 ≤ x ∧ x ≤ 0xAA then Char.ofNat ('0'.toNat + (x.toNat - 0xA1))
  else if x = 0 then ' ' else '?'

/-- `_frlg_name`; of the characters it renders `rstrip` takes only spaces off. -/
def frlgName (b : Bytes) : Text :=
  (((b.takeWhile (· ≠ 0xFF)).map frlgChar).reverse.dropWhile (· = ' ')).reverse

/-! ## The header of Pia -/

/-- `_PIA_HDR`. -/
def piaHdr : Nat := 0x5C

/-- `_OBSERVED_HEADER_FIELDS`. -/
def observedHeaderFields : Dict Int Bytes where
  items := [(0x00, BigEndian.toBytes 2 piaHdr), (0x02, [0x16]), (0x03, BigEndian.toBytes 2 0x58),
    (0x15, [0x01]), (0x16, [0x01])]
  nodup := by decide

/-- `f"{value:#x}"`. -/
def hexNumber (value : Int) : String :=
  (if value < 0 then "-0x" else "0x") ++ String.ofList (Nat.toDigits 16 value.natAbs)

/-- One field of the header. -/
def writeField (size : Nat) (out : Bytes) (field : Int × Bytes) : Except String Bytes :=
  let off := field.1
  let val := field.2
  if 0 ≤ off ∧ off ≤ (size : Int) - val.length then
    .ok (out.take off.toNat ++ val ++ out.drop (off.toNat + val.length))
  else .error ("header override at offset " ++ toString off ++ " (len " ++ toString val.length ++
    ") out of range for a " ++ hexNumber size ++ "-byte header")

/-- `build_pia_header`. -/
def buildPiaHeader (overrides : List (Int × Bytes) := []) (size : Nat := piaHdr)
    (playerName : Option Text := none) : Except String Bytes :=
  let fields := match playerName with
    | none => observedHeaderFields
    | some playerName =>
      let name := (encode playerName).take 64
      ((observedHeaderFields.set 0x17 (BigEndian.toBytes 4 name.length)).set 0x1B [0x01]).set
        0x1C name
  let fields := overrides.foldl (fun fields field => fields.set field.1 field.2) fields
  fields.items.foldlM (writeField size) (List.replicate size 0)

/-! ## The record and the application data -/

/-- `PARTNER_INFO_SIZE`. -/
def partnerInfoSize : Nat := 8

/-- `build_rfu_record`. -/
def buildRfuRecord (trainerId : Int) (name : Text) (rfuSessionId : Int) (partnerData : Bytes)
    (tradeSpecies : Int) : Except String Bytes := do
  raiseIf (¬ (0 ≤ trainerId ∧ trainerId ≤ 0xFFFF))
    ("trainer_id " ++ hexNumber trainerId ++ " does not fit u16")
  raiseIf (¬ (0 ≤ rfuSessionId ∧ rfuSessionId ≤ 0xFFFF))
    ("rfu_session_id " ++ hexNumber rfuSessionId ++ " does not fit u16")
  raiseIf (¬ (0 ≤ tradeSpecies ∧ tradeSpecies ≤ 0xFFFF))
    ("trade_species " ++ toString tradeSpecies ++ " does not fit u16")
  let partner := (partnerData ++ List.replicate partnerInfoSize 0).take partnerInfoSize
  pure (toBytes 2 trainerId.toNat ++ (encodeFrlgName name ++ (toBytes 2 rfuSessionId.toNat ++
    (partner ++ toBytes 4 (tradeSpecies.toNat <<< 16)))))

/-- `build_pia_header() if header is None else bytes(header)`. -/
def givenHeader (header : Option Bytes) : Except String Bytes :=
  match header with
  | none => buildPiaHeader
  | some header => .ok header

/-- `build_application_data`. -/
def buildApplicationData (trainerId : Int) (name : Text) (rfuSessionId : Int)
    (partnerData : Bytes) (tradeSpecies : Int) (header : Option Bytes) : Except String Bytes := do
  let hdr ← givenHeader header
  raiseIf (hdr.length ≠ piaHdr) ("Pia system header must be " ++ hexNumber piaHdr ++
    " bytes, got " ++ toString hdr.length)
  let record ← buildRfuRecord trainerId name rfuSessionId partnerData tradeSpecies
  let encoded ← b85Encode record
  pure (hdr ++ encoded)

/-! ## The name is read back -/

variable {name : Text} {width : Nat}

/-- The letters and digits have a code that is read back, no other character has one. -/
theorem nameEnc_spec (ch : Char) :
    (∃ b, nameEnc ch = some b ∧ b ≠ 0xFF ∧ frlgChar b = ch ∧ ch.isAlphanum = true) ∨
      (nameEnc ch = none ∧ ch.isAlphanum = false) := by
  have hascii : ∀ n < 128, ((nameEnc (Char.ofNat n)).elim (!(Char.ofNat n).isAlphanum) fun b =>
      b != 0xFF && frlgChar b == Char.ofNat n && (Char.ofNat n).isAlphanum) = true := by
    decide +kernel
  rcases Nat.lt_or_ge ch.toNat 128 with hlow | hhigh
  · have hch := hascii ch.toNat hlow
    rw [Char.ofNat_toNat] at hch
    cases hcode : nameEnc ch with
    | none =>
      rw [hcode] at hch
      exact .inr ⟨rfl, by simpa using hch⟩
    | some b =>
      rw [hcode] at hch
      have hparts : (b ≠ 0xFF ∧ frlgChar b = ch) ∧ ch.isAlphanum = true := by simpa using hch
      exact .inl ⟨b, rfl, hparts.1.1, hparts.1.2, hparts.2⟩
  · have hval : 128 ≤ ch.val.toNat := hhigh
    have hZ : ¬ ch.val.toNat ≤ 'Z'.val.toNat := Nat.not_le.mpr (Nat.lt_of_lt_of_le (by decide) hval)
    have hz : ¬ ch.val.toNat ≤ 'z'.val.toNat := Nat.not_le.mpr (Nat.lt_of_lt_of_le (by decide) hval)
    have h9 : ¬ ch.val.toNat ≤ '9'.val.toNat := Nat.not_le.mpr (Nat.lt_of_lt_of_le (by decide) hval)
    refine .inr ⟨?_, ?_⟩
    · rw [nameEnc, if_neg fun h => hZ h.2, if_neg fun h => hz h.2, if_neg fun h => h9 h.2]
    · delta Char.isAlphanum Char.isAlpha Char.isUpper Char.isLower Char.isDigit
      simp only [UInt32.le_iff_toNat_le, ge_iff_le, Bool.or_eq_false_iff, Bool.and_eq_false_iff,
        decide_eq_false_iff_not]
      exact ⟨⟨fun h => hZ h.2, .inr hz⟩, .inr h9⟩

theorem map_frlgChar_nameEnc : (name.filterMap nameEnc).map frlgChar =
    name.filter Char.isAlphanum := by
  induction name with
  | nil => rfl
  | cons ch name ih =>
    rcases nameEnc_spec ch with ⟨b, hcode, -, hback, halnum⟩ | ⟨hcode, halnum⟩
    · rw [List.filterMap_cons_some hcode, List.map_cons, hback, ih,
        List.filter_cons_of_pos halnum]
    · rw [List.filterMap_cons_none hcode, ih, List.filter_cons_of_neg (by rw [halnum]; decide)]

theorem nameEnc_ne_terminator {b : UInt8} (h : b ∈ name.filterMap nameEnc) : b ≠ 0xFF := by
  obtain ⟨ch, -, hcode⟩ := List.mem_filterMap.mp h
  rcases nameEnc_spec ch with ⟨b', hcode', hne, -, -⟩ | ⟨hcode', -⟩
  · rw [hcode', Option.some.injEq] at hcode
    exact hcode ▸ hne
  · rw [hcode'] at hcode
    cases hcode

theorem length_encodeFrlgName (h : 0 < width) : (encodeFrlgName name width).length = width := by
  have hshort : ((name.filterMap nameEnc).take (width - 1)).length ≤ width - 1 :=
    List.length_take_le _ _
  unfold encodeFrlgName
  simp only [List.length_append, List.length_replicate, List.length_singleton]
  omega

/-- A name is read back as its letters and digits, as many as there is room for before the
terminator. -/
theorem frlgName_encodeFrlgName :
    frlgName (encodeFrlgName name width) = (name.filter Char.isAlphanum).take (width - 1) := by
  have hbytes : (encodeFrlgName name width).takeWhile (· ≠ 0xFF) =
      (name.filterMap nameEnc).take (width - 1) := by
    unfold encodeFrlgName
    simp only [List.append_assoc]
    rw [List.takeWhile_append_of_pos, List.singleton_append, List.takeWhile_cons_of_neg]
    · exact List.append_nil _
    · simp
    · intro b hb
      exact decide_eq_true (nameEnc_ne_terminator (List.mem_of_mem_take hb))
  have hkept : ∀ letters : Text, (∀ ch ∈ letters, ch.isAlphanum = true) →
      (letters.reverse.dropWhile (· = ' ')).reverse = letters := by
    intro letters hletters
    cases hlast : letters.reverse with
    | nil => rw [List.reverse_eq_nil_iff.mp hlast]; rfl
    | cons ch rest =>
      have hmem : ch ∈ letters := List.mem_reverse.mp (by rw [hlast]; simp)
      have hspace : ch ≠ ' ' := by
        rintro rfl
        exact absurd (hletters _ hmem) (by decide)
      rw [List.dropWhile_cons_of_neg (by simpa using hspace), ← hlast, List.reverse_reverse]
  rw [frlgName, hbytes, List.map_take, map_frlgChar_nameEnc]
  apply hkept
  intro ch hch
  exact (List.mem_filter.mp (List.mem_of_mem_take hch)).2

/-! ## The header has its size -/

theorem length_writeField {size : Nat} {out out' : Bytes} {field : Int × Bytes}
    (hout : out.length = size) (h : writeField size out field = .ok out') : out'.length = size := by
  unfold writeField at h
  simp only at h
  split at h
  · rename_i hroom
    cases h
    simp only [List.length_append, List.length_take, List.length_drop]
    omega
  · cases h

theorem length_buildPiaHeader {overrides : List (Int × Bytes)} {size : Nat}
    {playerName : Option Text} {header : Bytes}
    (h : buildPiaHeader overrides size playerName = .ok header) : header.length = size := by
  have hkeeps : ∀ (out : Bytes) (field : Int × Bytes) (out' : Bytes), out.length = size →
      writeField size out field = .ok out' → out'.length = size :=
    fun _ _ _ hout hstep => length_writeField hout hstep
  unfold buildPiaHeader at h
  exact foldlM_keeps hkeeps h List.length_replicate

theorem buildPiaHeader_default : ∃ header, buildPiaHeader = .ok header := ⟨_, rfl⟩

/-! ## The record is read back -/

variable {trainerId rfuSessionId tradeSpecies : Nat} {partnerData : Bytes}

/-- What a scanner finds in the record of a host. -/
structure Advertised (trainerId : Nat) (name : Text) (rfuSessionId : Nat) (partnerData : Bytes)
    (tradeSpecies : Nat) (record : Bytes) : Prop where
  length : record.length = 24
  trainer : ofBytes (record.take 2) = trainerId
  name : frlgName ((record.drop 2).take 8) = (name.filter Char.isAlphanum).take 7
  session : ofBytes ((record.drop 10).take 2) = rfuSessionId
  partner : (record.drop 12).take 8 = padded 8 0 partnerData
  species : ofBytes ((record.drop 20).take 4) = tradeSpecies * 2 ^ 16

theorem buildRfuRecord_spec (htrainer : trainerId < 2 ^ 16) (hsession : rfuSessionId < 2 ^ 16)
    (hspecies : tradeSpecies < 2 ^ 16) :
    ∃ record, buildRfuRecord trainerId name rfuSessionId partnerData tradeSpecies = .ok record ∧
      Advertised trainerId name rfuSessionId partnerData tradeSpecies record := by
  have hname : (encodeFrlgName name).length = 8 := length_encodeFrlgName (by decide)
  have hpartner : (partnerData ++ List.replicate partnerInfoSize 0).take partnerInfoSize =
      padded 8 0 partnerData := by
    rw [padded, List.take_append, List.take_replicate]
    congr 2
    unfold partnerInfoSize
    omega
  have hpadded : (padded 8 (0 : UInt8) partnerData).length = 8 := length_padded
  have hshift : tradeSpecies <<< 16 = tradeSpecies * 2 ^ 16 := Nat.shiftLeft_eq _ _
  have hread : ∀ (width : Nat) (n : Nat) (rest : Bytes), n < 256 ^ width →
      ofBytes ((toBytes width n ++ rest).take width) = n := by
    intro width n rest hn
    rw [List.take_left' length_toBytes, ofBytes_toBytes hn]
  refine ⟨toBytes 2 trainerId ++ (encodeFrlgName name ++ (toBytes 2 rfuSessionId ++
    (padded 8 0 partnerData ++ toBytes 4 (tradeSpecies <<< 16)))), ?_, ?_⟩
  · unfold buildRfuRecord
    simp only [raiseIf_eq_ok, bind_eq_ok, pure_eq_ok, hpartner, Int.toNat_natCast]
    exact ⟨(), by omega, (), by omega, (), by omega, trivial⟩
  · have htwo : (toBytes 2 trainerId).length = 2 := length_toBytes
    have hten : (toBytes 2 rfuSessionId).length = 2 := length_toBytes
    refine ⟨?_, hread 2 _ _ (by omega), ?_, ?_, ?_, ?_⟩
    · simp only [List.length_append, length_toBytes, hname, hpadded]
    · rw [List.drop_left' htwo, List.take_left' hname]
      exact frlgName_encodeFrlgName
    · have hdrop : ∀ rest : Bytes, (toBytes 2 trainerId ++ (encodeFrlgName name ++ rest)).drop 10 =
          rest := by
        intro rest
        rw [← List.append_assoc]
        exact List.drop_left' (by rw [List.length_append, htwo, hname])
      rw [hdrop]
      exact hread 2 _ _ (by omega)
    · have hdrop : ∀ rest : Bytes, (toBytes 2 trainerId ++ (encodeFrlgName name ++
          (toBytes 2 rfuSessionId ++ rest))).drop 12 = rest := by
        intro rest
        rw [← List.append_assoc, ← List.append_assoc]
        exact List.drop_left' (by rw [List.length_append, List.length_append, htwo, hname, hten])
      rw [hdrop, List.take_left' hpadded]
    · have hdrop : ∀ rest : Bytes, (toBytes 2 trainerId ++ (encodeFrlgName name ++
          (toBytes 2 rfuSessionId ++ (padded 8 0 partnerData ++ rest)))).drop 20 = rest := by
        intro rest
        rw [← List.append_assoc, ← List.append_assoc, ← List.append_assoc]
        exact List.drop_left' (by
          rw [List.length_append, List.length_append, List.length_append, htwo, hname, hten,
            hpadded])
      rw [hdrop, hshift]
      have hbytes := hread 4 (tradeSpecies * 2 ^ 16) [] (by omega)
      rwa [List.append_nil] at hbytes

/-- The application data of a host: the header, and after it a text that both decoders read as the
record. -/
theorem buildApplicationData_spec {header : Option Bytes}
    (hheader : ∀ given, header = some given → given.length = piaHdr)
    (htrainer : trainerId < 2 ^ 16) (hsession : rfuSessionId < 2 ^ 16)
    (hspecies : tradeSpecies < 2 ^ 16) :
    ∃ data, buildApplicationData trainerId name rfuSessionId partnerData tradeSpecies header =
        .ok data ∧
      Advertised trainerId name rfuSessionId partnerData tradeSpecies
        (b85Decode (data.drop piaHdr)) ∧
      base85Decode (data.drop piaHdr) = .ok (b85Decode (data.drop piaHdr)) := by
  have hhdr : ∃ hdr, givenHeader header = .ok hdr ∧ hdr.length = piaHdr := by
    cases header with
    | none =>
      obtain ⟨hdr, hbuilt⟩ := buildPiaHeader_default
      exact ⟨hdr, hbuilt, length_buildPiaHeader hbuilt⟩
    | some given => exact ⟨given, rfl, hheader given rfl⟩
  obtain ⟨hdr, hbuilt, hlength⟩ := hhdr
  obtain ⟨record, hrecord, hadvertised⟩ := @buildRfuRecord_spec name trainerId rfuSessionId
    tradeSpecies partnerData htrainer hsession hspecies
  obtain ⟨encoded, hencode, hencoded, hdecode⟩ := @b85Encode_spec record
    (by rw [hadvertised.length])
  have hdrop : (hdr ++ encoded).drop piaHdr = encoded := List.drop_left' hlength
  refine ⟨hdr ++ encoded, ?_, ?_, ?_⟩
  · unfold buildApplicationData
    simp only [bind_eq_ok, raiseIf_eq_ok, pure_eq_ok]
    exact ⟨hdr, hbuilt, (), not_not_intro hlength, record, hrecord, encoded, hencode, rfl⟩
  · rw [hdrop, hdecode]
    exact hadvertised
  · rw [hdrop]
    exact base85Decode_of_encoded hencoded

/-- The codec of the beacon: the encoder and the decoder are inverse to one another, the strict
decoder takes just the texts that are encoded and reads them alike, and the application data of a
host holds what it advertises. -/
theorem beacon_codec :
    (∀ x : Bytes, x.length % 4 = 0 → ∃ s, b85Encode x = .ok s ∧ (∀ c ∈ s, inAlphabet c = true) ∧
      b85Decode s = x) ∧
    (∀ s, Encoded s → b85Encode (b85Decode s) = .ok s ∧ base85Decode s = .ok (b85Decode s)) ∧
    (∀ s, ¬ Encoded s → ∃ e, base85Decode s = .error e) ∧
    (∀ (trainerId rfuSessionId tradeSpecies : Nat) (name : Text) (partnerData : Bytes)
      (header : Option Bytes), (∀ given, header = some given → given.length = piaHdr) →
      trainerId < 2 ^ 16 → rfuSessionId < 2 ^ 16 → tradeSpecies < 2 ^ 16 →
      ∃ data, buildApplicationData trainerId name rfuSessionId partnerData tradeSpecies header =
          .ok data ∧
        Advertised trainerId name rfuSessionId partnerData tradeSpecies
          (b85Decode (data.drop piaHdr)) ∧
        base85Decode (data.drop piaHdr) = .ok (b85Decode (data.drop piaHdr))) := by
  refine ⟨?_, ?_, ?_, ?_⟩
  · intro x hx
    obtain ⟨s, hencode, hencoded, hdecode⟩ := b85Encode_spec hx
    exact ⟨s, hencode, hencoded.alphabet, hdecode⟩
  · intro s hs
    exact ⟨b85Encode_b85Decode hs, base85Decode_of_encoded hs⟩
  · intro s hs
    exact base85Decode_raises hs
  · intro trainerId rfuSessionId tradeSpecies name partnerData header hheader htrainer hsession
      hspecies
    exact buildApplicationData_spec hheader htrainer hsession hspecies

/-- Two groups, the second of the greatest value there is. -/
def sampleText : Bytes := [0x58, 0x23, 0x23, 0x23, 0x23, 0x23, 0x2F, 0x59, 0x3A, 0x76]

theorem sampleText_encoded : Encoded sampleText :=
  ⟨rfl, List.all_eq_true.mp rfl, by decide⟩

/-- The same but one in its last digit is out of range. -/
theorem sampleText_not_encoded : ¬ Encoded (sampleText.dropLast ++ [0x77]) := by
  intro h
  exact absurd (h.range 1 (by decide)) (by decide)

/-- The beacon of a host with a header and a partner of its own. -/
theorem beacon_codec_destroy :
    (∃ s, b85Encode [0x35, 0, 0, 0] = .ok s ∧ (∀ c ∈ s, inAlphabet c = true) ∧
      b85Decode s = [0x35, 0, 0, 0]) ∧
    (b85Encode (b85Decode sampleText) = .ok sampleText ∧
      base85Decode sampleText = .ok (b85Decode sampleText)) ∧
    (∃ e, base85Decode (sampleText.dropLast ++ [0x77]) = .error e) ∧
    ∃ data, buildApplicationData 0x9CA7 "DESTROY".toList 0x1EFD [0x61, 0, 0x44] 25
        (some (List.replicate piaHdr 0xAB)) = .ok data ∧
      Advertised 0x9CA7 "DESTROY".toList 0x1EFD [0x61, 0, 0x44] 25
        (b85Decode (data.drop piaHdr)) ∧
      base85Decode (data.drop piaHdr) = .ok (b85Decode (data.drop piaHdr)) := by
  refine ⟨beacon_codec.1 _ rfl, beacon_codec.2.1 _ sampleText_encoded,
    beacon_codec.2.2.1 _ sampleText_not_encoded, ?_⟩
  refine beacon_codec.2.2.2 0x9CA7 0x1EFD 25 "DESTROY".toList [0x61, 0, 0x44] _ ?_ (by decide)
    (by decide) (by decide)
  intro given hgiven
  rw [← Option.some.inj hgiven]
  exact List.length_replicate

end SwitchTrade.Rfu

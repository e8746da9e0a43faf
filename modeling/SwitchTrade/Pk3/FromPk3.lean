import SwitchTrade.Pk3.PartyTail

/-!
# Which form a file is in

`Mon.from_pk3` takes a file for the wire form when its checksum is right as it is and its key is not
zero, and encrypts it otherwise. For a wire record this is the right guess. For the decrypted form
of a wire record it is the right guess unless the half words of the wire record, still encrypted,
add up to the checksum as well; then the decrypted bytes are kept as if they were the wire form.
-/

namespace SwitchTrade.Pk3

/-- `Mon`: the bytes of a party record. -/
structure Mon where
  raw : List UInt8
  length_eq : raw.length = partyMonSize
  deriving DecidableEq, Repr

/-- `Mon.__init__`. -/
def Mon.new (party100 : List UInt8) : Except String Mon :=
  if h : party100.length = partyMonSize then .ok ⟨party100, h⟩
  else .error ("party mon must be " ++ toString partyMonSize ++ " bytes, got "
    ++ toString party100.length)

/-- `box_bytes`. -/
def Mon.boxBytes (mon : Mon) : List UInt8 := mon.raw.take boxSize

/-- What `from_pk3` takes for the wire form of the bytes. -/
def chosenWire (data : List UInt8) : List UInt8 :=
  if wireValid data && key data ≠ 0 then data
  else
    let enc := toEncrypted data
    if wireValid enc then enc else data

/-- A box record widened by an empty tail, whose mail byte says there is none. -/
def widened (wire : List UInt8) : List UInt8 :=
  if wire.length = boxSize then
    (wire ++ List.replicate (partyMonSize - boxSize) 0).set 85 0xFF
  else wire

/-- `Mon.from_pk3`. -/
def fromPk3 (baseStats : Nat → Option BaseStats) (data : List UInt8) : Except String Mon :=
  if data.length ≠ boxSize ∧ data.length ≠ partyMonSize then
    .error (".pk3/.ek3 must be " ++ toString boxSize ++ " or " ++ toString partyMonSize
      ++ " bytes, got " ++ toString data.length)
  else
    let wire := widened (chosenWire data)
    if wireValid wire && wire.getD 84 0 == 0 then
      match buildPartyTail baseStats (toDecrypted wire) with
      | .error e => .error e
      | .ok none => Mon.new wire
      | .ok (some tail) => Mon.new (wire.take boxSize ++ tail)
    else Mon.new wire

/-! ## The box bytes that are held -/

variable {baseStats : Nat → Option BaseStats} {data w : List UInt8}

theorem length_chosenWire (h : 80 ≤ data.length) : (chosenWire data).length = data.length := by
  unfold chosenWire
  dsimp only
  split
  · rfl
  · split
    · exact length_toEncrypted h
    · rfl

theorem widened_spec (h : data.length = boxSize ∨ data.length = partyMonSize) :
    (widened data).length = partyMonSize ∧ (widened data).take boxSize = data.take boxSize := by
  unfold widened
  by_cases hbox : data.length = boxSize
  · rw [if_pos hbox]
    constructor
    · rw [List.length_set, List.length_append, List.length_replicate, hbox]
      rfl
    · rw [List.take_set_of_le (by decide), List.take_append_of_le_length (Nat.le_of_eq hbox.symm)]
  · rw [if_neg hbox]
    exact ⟨h.resolve_left hbox, rfl⟩

theorem Mon.new_ok {bytes : List UInt8} (h : bytes.length = partyMonSize) :
    ∃ mon, Mon.new bytes = .ok mon ∧ mon.boxBytes = bytes.take boxSize :=
  ⟨⟨bytes, h⟩, dif_pos h, rfl⟩

/-- The tail and the widening leave the box bytes of the chosen form. -/
theorem fromPk3_ok (h : data.length = boxSize ∨ data.length = partyMonSize) :
    ∃ mon, fromPk3 baseStats data = .ok mon ∧ mon.boxBytes = (chosenWire data).take boxSize := by
  have hle : 80 ≤ data.length := by
    unfold boxSize partyMonSize at h
    omega
  have hchosen := length_chosenWire hle
  have hsizes : (chosenWire data).length = boxSize ∨ (chosenWire data).length = partyMonSize := by
    rwa [hchosen]
  obtain ⟨hlen, htake⟩ := widened_spec hsizes
  unfold fromPk3
  rw [if_neg (by omega)]
  dsimp only
  split
  · obtain ⟨tail, hbuild, htail⟩ :=
      buildPartyTail_ok baseStats (toDecrypted (widened (chosenWire data)))
    rw [hbuild]
    cases tail with
    | none =>
      rw [← htake]
      exact Mon.new_ok hlen
    | some bytes =>
      have hbox : ((widened (chosenWire data)).take boxSize).length = boxSize := by
        rw [List.length_take, hlen]
        rfl
      have hwhole : ((widened (chosenWire data)).take boxSize ++ bytes).length = partyMonSize := by
        rw [List.length_append, hbox, htail bytes rfl]
        rfl
      obtain ⟨mon, hnew, hbytes⟩ := Mon.new_ok hwhole
      refine ⟨mon, hnew, ?_⟩
      rw [hbytes, List.take_left' hbox, htake]
  · rw [← htake]
    exact Mon.new_ok hlen

/-! ## The guess -/

theorem key_ne_zero (h : personality w ≠ trainerId w) : key w ≠ 0 := by
  intro hzero
  apply h
  have hback : personality w ^^^ trainerId w ^^^ trainerId w = 0 ^^^ trainerId w := by
    rw [← hzero]
    rfl
  rwa [Nat.xor_assoc, Nat.xor_self, Nat.xor_zero, Nat.zero_xor] at hback

theorem chosenWire_of_wire (hvalid : wireValid w = true) (hkey : key w ≠ 0) :
    chosenWire w = w := by
  unfold chosenWire
  rw [if_pos (by simp [hvalid, hkey])]

/-- Of a decrypted file whose checksum is wrong as it is, the wire form is found again. -/
theorem chosenWire_toDecrypted (h : 80 ≤ w.length) (hvalid : wireValid w = true)
    (hkey : key w ≠ 0) : chosenWire (toDecrypted w) =
      if checksum (secure w) = field w 28 30 then toDecrypted w else w := by
  have hsame : key (toDecrypted w) = key w := by rw [toDecrypted_eq h, key_withSecure h]
  unfold chosenWire
  by_cases hsum : checksum (secure w) = field w 28 30
  · have hguess := (wireValid_toDecrypted h).mpr hsum
    rw [if_pos (by simp [hguess, hsame, hkey]), if_pos hsum]
  · have hguess : wireValid (toDecrypted w) = false := by
      rw [← Bool.not_eq_true, wireValid_toDecrypted h]
      exact hsum
    rw [if_neg (by simp [hguess]), if_neg hsum]
    dsimp only
    rw [toEncrypted_toDecrypted h, if_pos hvalid]

/-- A wire record and its decrypted form are both held as the wire record exactly when the half
words of the wire record, still encrypted, do not add up to its checksum, or its decrypted box is
the box itself. -/
theorem fromPk3_either_form_iff (baseStats : Nat → Option BaseStats)
    (hlen : w.length = boxSize ∨ w.length = partyMonSize) (hvalid : wireValid w = true)
    (hkey : personality w ≠ trainerId w) :
    ((∃ mon, fromPk3 baseStats w = .ok mon ∧ mon.boxBytes = w.take boxSize) ∧
      ∃ mon, fromPk3 baseStats (toDecrypted w) = .ok mon ∧ mon.boxBytes = w.take boxSize) ↔
    (checksum (secure w) ≠ field w 28 30 ∨ (toDecrypted w).take boxSize = w.take boxSize) := by
  have hle : 80 ≤ w.length := by
    unfold boxSize partyMonSize at hlen
    omega
  have hdec : (toDecrypted w).length = boxSize ∨ (toDecrypted w).length = partyMonSize := by
    rwa [length_toDecrypted hle]
  obtain ⟨mon, hmon, hbox⟩ := @fromPk3_ok baseStats _ hlen
  obtain ⟨mon', hmon', hbox'⟩ := @fromPk3_ok baseStats _ hdec
  rw [chosenWire_of_wire hvalid (key_ne_zero hkey)] at hbox
  rw [chosenWire_toDecrypted hle hvalid (key_ne_zero hkey)] at hbox'
  by_cases hsum : checksum (secure w) = field w 28 30
  · rw [if_pos hsum] at hbox'
    constructor
    · rintro ⟨-, held, hheld, hbytes⟩
      rw [hmon'] at hheld
      cases hheld
      exact .inr (hbox'.symm.trans hbytes)
    · rintro (hne | hsame)
      · exact absurd hsum hne
      · exact ⟨⟨mon, hmon, hbox⟩, mon', hmon', hbox'.trans hsame⟩
  · rw [if_neg hsum] at hbox'
    constructor
    · intro _
      exact .inl hsum
    · intro _
      exact ⟨⟨mon, hmon, hbox⟩, mon', hmon', hbox'⟩

/-- A box record of trainer id zero, so that the key is the personality: on the wire its
substructures are zeros, each word of them the key, but for the first word of the third. -/
def boxRecord (pid word sum : List UInt8) : List UInt8 :=
  pid ++ List.replicate 24 0 ++ sum ++ [0, 0] ++ (List.replicate 6 pid).flatten ++ word ++
    (List.replicate 5 pid).flatten

/-- With the highest bit for a key, every second half word changes by half the modulus, and twelve
such changes do not show in the sum: the decrypted bytes pass for the wire form. -/
theorem fromPk3_keeps_decrypted :
    ∃ w : List UInt8, w.length = boxSize ∧ wireValid w = true ∧ personality w ≠ trainerId w ∧
      ¬ ∃ mon, fromPk3 (fun _ => none) (toDecrypted w) = .ok mon ∧
        mon.boxBytes = w.take boxSize := by
  refine ⟨boxRecord [0, 0, 0, 0x80] [4, 0, 0, 0x80] [4, 0], by decide +kernel, by decide +kernel,
    by decide +kernel, ?_⟩
  have hheld : (fromPk3 (fun _ => none)
      (toDecrypted (boxRecord [0, 0, 0, 0x80] [4, 0, 0, 0x80] [4, 0]))).toOption.map Mon.boxBytes ≠
      some ((boxRecord [0, 0, 0, 0x80] [4, 0, 0, 0x80] [4, 0]).take boxSize) := by
    decide +kernel
  rintro ⟨mon, hmon, hbox⟩
  rw [hmon, ← hbox] at hheld
  exact hheld rfl

theorem fromPk3_either_form_odd_key :
    (∃ mon, fromPk3 (fun _ => none) (boxRecord [1, 0, 0, 0] [5, 0, 0, 0] [4, 0]) = .ok mon ∧
      mon.boxBytes = (boxRecord [1, 0, 0, 0] [5, 0, 0, 0] [4, 0]).take boxSize) ∧
    ∃ mon, fromPk3 (fun _ => none) (toDecrypted (boxRecord [1, 0, 0, 0] [5, 0, 0, 0] [4, 0])) =
      .ok mon ∧ mon.boxBytes = (boxRecord [1, 0, 0, 0] [5, 0, 0, 0] [4, 0]).take boxSize :=
  (fromPk3_either_form_iff (fun _ => none) (.inl (by decide +kernel)) (by decide +kernel)
    (by decide +kernel)).mpr (.inl (by decide +kernel))

end SwitchTrade.Pk3

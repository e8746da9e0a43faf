import SwitchTrade.Rfu.Slot
import SwitchTrade.Transition.Fallible
import SwitchTrade.Transition.LittleEndian

/-!
# The base 85 of the beacon

`_b85_encode` of `bridge/frlgsim/beacon.py`, `_b85_decode` of `bridge/frlgsim/transport.py` and
`_base85_decode` of `switchtrade/connection/a_stage.py`. Four bytes are five digits, the lowest
first, over an alphabet that skips the backslash. `_b85_decode` reads any bytes; on the texts that
`Encoded` describes it is inverse to the encoder, and these are the texts the strict decoder takes.
-/

namespace SwitchTrade.Rfu

open LittleEndian Chunks Fallible

/-- `_digit_char`. -/
def digitChar (d : Nat) : Nat :=
  let c := d + 0x23
  if 0x5C ≤ c then c + 1 else c

/-- The five characters of a group of four bytes. -/
def b85EncodeGroup (group : Bytes) : Bytes :=
  (digits 85 5 (ofBytes group)).map fun d => UInt8.ofNat (digitChar d)

/-- `_b85_encode`. -/
def b85Encode (data : Bytes) : Except String Bytes :=
  if data.length % 4 ≠ 0 then
    .error ("base85 payload must be a multiple of 4 bytes, got " ++ toString data.length)
  else .ok ((List.range (data.length / 4)).flatMap fun i => b85EncodeGroup (chunk 4 i data))

/-- `(c - 0x23) if c < 0x5C else (c - 0x24)`. -/
def charDigit (c : UInt8) : Int := if c < 0x5C then c.toNat - 0x23 else c.toNat - 0x24

/-- The base 85 value of a group, its first character the lowest digit. -/
def groupValue (group : Bytes) : Int := group.foldr (fun c v => v * 85 + charDigit c) 0

/-- `_b85_decode`. -/
def b85Decode (s : Bytes) : Bytes :=
  (List.range (s.length / 5)).flatMap fun i =>
    toBytes 4 (groupValue (chunk 5 i s) % 2 ^ 32).toNat

/-- `0x23 <= character <= 0x78` and not the backslash. -/
def inAlphabet (c : UInt8) : Bool := 0x23 ≤ c && c ≤ 0x78 && c != 0x5C

/-- One character of `_base85_decode`. -/
def strictStep (number : Int) (character : UInt8) : Except String Int :=
  if !inAlphabet character then .error "base85 alphabet is invalid"
  else .ok (number * 85 + charDigit character)

/-- One group of `_base85_decode`. -/
def strictGroup (group : Bytes) : Except String Bytes := do
  let number ← group.reverse.foldlM strictStep 0
  if 0xFFFFFFFF < number then .error "base85 group is out of range"
  else .ok (toBytes 4 number.toNat)

/-- `_base85_decode`. -/
def base85Decode (value : Bytes) : Except String Bytes :=
  if value.length % 5 ≠ 0 then .error "base85 length is invalid"
  else ((List.range (value.length / 5)).mapM fun i => strictGroup (chunk 5 i value)).map
    List.flatten

/-- A text over the alphabet in whole groups, each of which is the value of four bytes. -/
structure Encoded (s : Bytes) : Prop where
  whole : s.length % 5 = 0
  alphabet : ∀ c ∈ s, inAlphabet c = true
  range : ∀ i < s.length / 5, groupValue (chunk 5 i s) < 2 ^ 32

/-! ## Digits and characters -/

theorem digitChar_spec {d : Nat} (h : d < 85) :
    inAlphabet (UInt8.ofNat (digitChar d)) = true ∧
      charDigit (UInt8.ofNat (digitChar d)) = d := by
  have hall : ∀ e < 85, inAlphabet (UInt8.ofNat (digitChar e)) = true ∧
      charDigit (UInt8.ofNat (digitChar e)) = e := by decide +kernel
  exact hall d h

theorem charDigit_spec {c : UInt8} (h : inAlphabet c = true) :
    ∃ d : Nat, d < 85 ∧ charDigit c = d ∧ UInt8.ofNat (digitChar d) = c := by
  have hall : ∀ n < 256, inAlphabet (UInt8.ofNat n) = true →
      (charDigit (UInt8.ofNat n)).toNat < 85 ∧
        charDigit (UInt8.ofNat n) = ((charDigit (UInt8.ofNat n)).toNat : Int) ∧
        UInt8.ofNat (digitChar (charDigit (UInt8.ofNat n)).toNat) = UInt8.ofNat n := by
    decide +kernel
  have hc := hall c.toNat c.toNat_lt
  rw [UInt8.ofNat_toNat] at hc
  exact ⟨(charDigit c).toNat, hc h⟩

/-- The digits of a group over the alphabet. -/
theorem digits_of_alphabet {group : Bytes} (h : ∀ c ∈ group, inAlphabet c = true) :
    ∃ ds : List Nat, (∀ d ∈ ds, d < 85) ∧ groupValue group = (Nat.ofDigits 85 ds : Nat) ∧
      ds.map (fun d => UInt8.ofNat (digitChar d)) = group := by
  induction group with
  | nil => exact ⟨[], by simp, rfl, rfl⟩
  | cons c group ih =>
    obtain ⟨d, hd, hdigit, hchar⟩ := charDigit_spec (h c (by simp))
    obtain ⟨ds, hds, hvalue, hchars⟩ := ih fun e he => h e (by simp [he])
    refine ⟨d :: ds, ?_, ?_, ?_⟩
    · intro e he
      rcases List.mem_cons.mp he with rfl | he
      · exact hd
      · exact hds e he
    · have hstep : groupValue (c :: group) = groupValue group * 85 + charDigit c := rfl
      rw [hstep, hvalue, hdigit, Nat.ofDigits_cons, Nat.cast_add, Nat.cast_mul]
      ring
    · rw [List.map_cons, hchar, hchars]

theorem groupValue_encoded {ds : List Nat} (h : ∀ d ∈ ds, d < 85) :
    groupValue (ds.map fun d => UInt8.ofNat (digitChar d)) = (Nat.ofDigits 85 ds : Nat) := by
  induction ds with
  | nil => rfl
  | cons d ds ih =>
    have hdigit : charDigit (UInt8.ofNat (digitChar d)) = d := (digitChar_spec (h d (by simp))).2
    have hrest := ih fun e he => h e (by simp [he])
    have hstep : groupValue ((d :: ds).map fun d => UInt8.ofNat (digitChar d)) =
        groupValue (ds.map fun d => UInt8.ofNat (digitChar d)) * 85 +
          charDigit (UInt8.ofNat (digitChar d)) := rfl
    rw [hstep, hrest, hdigit, Nat.ofDigits_cons, Nat.cast_add, Nat.cast_mul]
    ring

/-! ## One group -/

theorem length_b85EncodeGroup {group : Bytes} : (b85EncodeGroup group).length = 5 := by
  rw [b85EncodeGroup, List.length_map, length_digits]

theorem alphabet_b85EncodeGroup {group : Bytes} {c : UInt8} (h : c ∈ b85EncodeGroup group) :
    inAlphabet c = true := by
  obtain ⟨d, hd, rfl⟩ := List.mem_map.mp h
  exact (digitChar_spec (lt_of_mem_digits (by decide) hd)).1

theorem groupValue_b85EncodeGroup {group : Bytes} (h : group.length = 4) :
    groupValue (b85EncodeGroup group) = (ofBytes group : Nat) := by
  have hlt : ofBytes group < 85 ^ 5 := by
    have hbytes := @ofBytes_lt group
    rw [h] at hbytes
    omega
  rw [b85EncodeGroup, groupValue_encoded fun d hd => lt_of_mem_digits (by decide) hd,
    ofDigits_digits hlt]

theorem decode_b85EncodeGroup {group : Bytes} (h : group.length = 4) :
    toBytes 4 (groupValue (b85EncodeGroup group) % 2 ^ 32).toNat = group := by
  have hlt := @ofBytes_lt group
  rw [h] at hlt
  have hmod : ((ofBytes group : Nat) % (2 : Int) ^ 32).toNat = ofBytes group := by omega
  have hback := @toBytes_ofBytes group
  rw [h] at hback
  rw [groupValue_b85EncodeGroup h, hmod, hback]

theorem encode_of_group {group : Bytes} (hlength : group.length = 5)
    (h : ∀ c ∈ group, inAlphabet c = true) (hrange : groupValue group < 2 ^ 32) :
    b85EncodeGroup (toBytes 4 (groupValue group % 2 ^ 32).toNat) = group := by
  obtain ⟨ds, hds, hvalue, hchars⟩ := digits_of_alphabet h
  have hcount : ds.length = 5 := by
    rw [← hlength, ← hchars, List.length_map]
  rw [hvalue] at hrange ⊢
  have hmod : ((Nat.ofDigits 85 ds : Nat) % (2 : Int) ^ 32).toNat = Nat.ofDigits 85 ds := by omega
  have hback := digits_ofDigits hds
  rw [hcount] at hback
  rw [hmod, b85EncodeGroup, ofBytes_toBytes (by omega), hback, hchars]

/-! ## The strict decoder, group by group -/

theorem foldlM_strictStep {group : Bytes} (h : ∀ c ∈ group, inAlphabet c = true) :
    group.reverse.foldlM strictStep 0 = .ok (groupValue group) := by
  induction group with
  | nil => rfl
  | cons c group ih =>
    have hc : inAlphabet c = true := h c (by simp)
    have hrest := ih fun e he => h e (by simp [he])
    rw [List.reverse_cons, List.foldlM_append, hrest]
    show strictStep (groupValue group) c >>= pure = _
    rw [strictStep, hc]
    rfl

theorem strictGroup_ok {group : Bytes} (h : ∀ c ∈ group, inAlphabet c = true)
    (hrange : groupValue group < 2 ^ 32) :
    strictGroup group = .ok (toBytes 4 (groupValue group % 2 ^ 32).toNat) := by
  obtain ⟨ds, -, hvalue, -⟩ := digits_of_alphabet h
  have hmod : groupValue group % 2 ^ 32 = groupValue group := by omega
  rw [strictGroup, foldlM_strictStep h, hmod]
  exact if_neg (by omega)

theorem strictGroup_raises {group : Bytes}
    (h : ¬ ((∀ c ∈ group, inAlphabet c = true) ∧ groupValue group < 2 ^ 32)) :
    ∃ e, strictGroup group = .error e := by
  by_cases halphabet : ∀ c ∈ group, inAlphabet c = true
  · have hlarge : ¬ groupValue group < 2 ^ 32 := fun hlt => h ⟨halphabet, hlt⟩
    refine ⟨"base85 group is out of range", ?_⟩
    rw [strictGroup, foldlM_strictStep halphabet]
    exact if_pos (by omega)
  · cases hgroup : strictGroup group with
    | error e => exact ⟨e, rfl⟩
    | ok bytes =>
      exfalso
      rw [strictGroup, bind_eq_ok] at hgroup
      obtain ⟨number, hnumber, -⟩ := hgroup
      apply halphabet
      -- A loop that returned has passed the check at every character.
      have hall : ∀ (cs : Bytes) (n m : Int), cs.foldlM strictStep n = .ok m →
          ∀ c ∈ cs, inAlphabet c = true := by
        intro cs
        induction cs with
        | nil =>
          intro n m _ c hc
          cases hc
        | cons d cs ih =>
          intro n m hfold c hc
          rw [List.foldlM_cons, bind_eq_ok] at hfold
          obtain ⟨n', hstep, hrest⟩ := hfold
          rcases List.mem_cons.mp hc with rfl | hc
          · by_contra hout
            rw [Bool.not_eq_true] at hout
            rw [strictStep, hout] at hstep
            cases hstep
          · exact ih n' m hrest c hc
      intro c hc
      exact hall _ _ _ hnumber c (List.mem_reverse.mpr hc)

/-! ## Whole texts -/

variable {x s : Bytes}

theorem chunk_mem {w i : Nat} {c : UInt8} (h : c ∈ chunk w i s) : c ∈ s :=
  List.mem_of_mem_drop (List.mem_of_mem_take h)

theorem length_chunk_of_lt {w i : Nat} (h : i < s.length / w) :
    (chunk w i s).length = w := by
  apply length_chunk
  have hend := @end_le w i _ h
  have hmul := Nat.div_mul_le_self s.length w
  omega

/-- What is encoded is over the alphabet, in groups that are the values of four bytes, and is
decoded to what it was. -/
theorem b85Encode_spec (h : x.length % 4 = 0) : ∃ s, b85Encode x = .ok s ∧ Encoded s ∧
    b85Decode s = x := by
  have hwhole : x.length = x.length / 4 * 4 := by omega
  have hgroup : ∀ i < x.length / 4, (chunk 4 i x).length = 4 := fun i hi =>
    length_chunk_of_lt hi
  have hlength : ((List.range (x.length / 4)).flatMap
      fun i => b85EncodeGroup (chunk 4 i x)).length = x.length / 4 * 5 := by
    rw [List.length_flatMap]
    simp only [length_b85EncodeGroup]
    rw [List.map_const', List.sum_replicate_nat, List.length_range]
  have hpiece : ∀ i < x.length / 4, chunk 5 i ((List.range (x.length / 4)).flatMap
      fun i => b85EncodeGroup (chunk 4 i x)) = b85EncodeGroup (chunk 4 i x) := by
    intro i hi
    exact chunk_flatMap (fun k _ => length_b85EncodeGroup) hi
  have hcount : x.length / 4 * 5 / 5 = x.length / 4 := Nat.mul_div_cancel _ (by decide)
  refine ⟨_, if_neg (by omega), ⟨?_, ?_, ?_⟩, ?_⟩
  · rw [hlength]
    exact Nat.mul_mod_left _ 5
  · intro c hc
    obtain ⟨i, -, hci⟩ := List.mem_flatMap.mp hc
    exact alphabet_b85EncodeGroup hci
  · intro i hi
    rw [hlength, hcount] at hi
    have hlt := @ofBytes_lt (chunk 4 i x)
    rw [hgroup i hi] at hlt
    rw [hpiece i hi, groupValue_b85EncodeGroup (hgroup i hi)]
    omega
  · have hdecoded : ∀ i ∈ List.range (x.length / 4),
        toBytes 4 (groupValue (chunk 5 i ((List.range (x.length / 4)).flatMap
          fun i => b85EncodeGroup (chunk 4 i x))) % 2 ^ 32).toNat = chunk 4 i x := by
      intro i hi
      rw [hpiece i (List.mem_range.mp hi)]
      exact decode_b85EncodeGroup (hgroup i (List.mem_range.mp hi))
    rw [b85Decode, hlength, hcount, List.flatMap_congr hdecoded, flatMap_chunk hwhole]

theorem b85Encode_b85Decode (h : Encoded s) : b85Encode (b85Decode s) = .ok s := by
  have hwhole : s.length = s.length / 5 * 5 := by
    have hmod := h.whole
    omega
  have hlength : (b85Decode s).length = s.length / 5 * 4 := by
    rw [b85Decode, List.length_flatMap]
    simp only [length_toBytes]
    rw [List.map_const', List.sum_replicate_nat, List.length_range]
  have hcount : s.length / 5 * 4 / 4 = s.length / 5 := Nat.mul_div_cancel _ (by decide)
  have hencoded : ∀ i ∈ List.range (s.length / 5),
      b85EncodeGroup (chunk 4 i (b85Decode s)) = chunk 5 i s := by
    intro i hi
    have hlt := List.mem_range.mp hi
    have hpiece : chunk 4 i (b85Decode s) =
        toBytes 4 (groupValue (chunk 5 i s) % 2 ^ 32).toNat :=
      chunk_flatMap (fun k _ => length_toBytes) hlt
    rw [hpiece]
    exact encode_of_group (length_chunk_of_lt hlt)
      (fun c hc => h.alphabet c (chunk_mem hc)) (h.range i hlt)
  rw [b85Encode, hlength, if_neg (by omega), hcount, List.flatMap_congr hencoded,
    flatMap_chunk hwhole]

theorem base85Decode_of_encoded (h : Encoded s) : base85Decode s = .ok (b85Decode s) := by
  have hgroups : ∀ i ∈ List.range (s.length / 5), strictGroup (chunk 5 i s) =
      .ok (toBytes 4 (groupValue (chunk 5 i s) % 2 ^ 32).toNat) := by
    intro i hi
    exact strictGroup_ok (fun c hc => h.alphabet c (chunk_mem hc))
      (h.range i (List.mem_range.mp hi))
  rw [base85Decode, if_neg (by rw [h.whole]; decide), mapM_eq_ok_map hgroups, b85Decode,
    List.flatMap_def]
  rfl

theorem base85Decode_raises (h : ¬ Encoded s) : ∃ e, base85Decode s = .error e := by
  by_cases hwhole : s.length % 5 = 0
  · have hbad : ∃ i < s.length / 5, ¬ ((∀ c ∈ chunk 5 i s, inAlphabet c = true) ∧
        groupValue (chunk 5 i s) < 2 ^ 32) := by
      by_contra hnone
      have hall : ∀ i < s.length / 5, (∀ c ∈ chunk 5 i s, inAlphabet c = true) ∧
          groupValue (chunk 5 i s) < 2 ^ 32 := fun i hi =>
        Classical.not_not.mp fun hbad => hnone ⟨i, hi, hbad⟩
      have hlength : s.length = s.length / 5 * 5 := by omega
      refine h ⟨hwhole, ?_, fun i hi => (hall i hi).2⟩
      intro c hc
      rw [← flatMap_chunk hlength] at hc
      obtain ⟨i, hi, hci⟩ := List.mem_flatMap.mp hc
      exact (hall i (List.mem_range.mp hi)).1 c hci
    obtain ⟨i, hi, hgroup⟩ := hbad
    obtain ⟨e, he⟩ := strictGroup_raises hgroup
    have hraises : ∃ e', (List.range (s.length / 5)).mapM (fun i => strictGroup (chunk 5 i s)) =
        .error e' := mapM_raises (List.mem_range.mpr hi) he
    obtain ⟨e', he'⟩ := hraises
    refine ⟨e', ?_⟩
    rw [base85Decode, if_neg (by omega), he']
    rfl
  · exact ⟨_, if_pos hwhole⟩

end SwitchTrade.Rfu

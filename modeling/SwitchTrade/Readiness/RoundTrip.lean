import SwitchTrade.Readiness.Total

/-!
# The round trip of `SIDE_READY`

A valid record holds texts without surrogates and integers, so what `encode` writes is read
back, unless a generation has more digits than the interpreter writes. A valid record is also
the only one of its identity: its seat and its run are in their canonical form.
-/

namespace SwitchTrade.Readiness

open PyJson Fallible
open Tunnel (TunnelV2Error SourceSeat Bytes)

variable {py : Library}

/-! ## The fields of a valid record are scalars -/

theorem str_isScalar (s : String) : ∀ n ∈ str s, IsScalar n := by
  intro n hn
  obtain ⟨c, -, rfl⟩ := List.mem_map.mp hn
  have hvalid : c.toNat < 0xD800 ∨ 0xDFFF < c.toNat ∧ c.toNat < 0x110000 := c.valid
  unfold IsScalar
  omega

theorem hexDigit_isScalar (n : Nat) : IsScalar (hexDigit (n % 16)) := by
  unfold IsScalar hexDigit
  left
  split <;> omega

theorem hexDigits_isScalar (n first last : Nat) : ∀ c ∈ hexDigits n first last, IsScalar c := by
  intro c hc
  obtain ⟨i, -, rfl⟩ := List.mem_map.mp hc
  exact hexDigit_isScalar _

theorem uuidStr_isScalar (n : Nat) : ∀ c ∈ uuidStr n, IsScalar c := by
  have hdash : IsScalar 45 := .inl (by omega)
  intro c hc
  simp only [uuidStr, List.mem_append, List.mem_cons, or_assoc] at hc
  rcases hc with hc | rfl | hc | rfl | hc | rfl | hc | rfl | hc
  all_goals first
    | exact hdash
    | exact hexDigits_isScalar _ _ _ c hc

theorem sha256_isScalar {t : Text} (h : sha256Pattern t = true) : ∀ n ∈ t, IsScalar n := by
  intro n hn
  unfold sha256Pattern at h
  rw [Bool.and_eq_true, List.all_eq_true] at h
  have hdigit := h.2 n hn
  simp only [decide_eq_true_eq] at hdigit
  unfold IsScalar
  omega

theorem roleGate_isScalar {t gate : Text} (h : roleGate t = some gate) :
    (∀ n ∈ t, IsScalar n) ∧ ∀ n ∈ gate, IsScalar n := by
  unfold roleGate at h
  split at h
  · rename_i ht
    cases h
    exact ⟨ht ▸ str_isScalar _, str_isScalar _⟩
  split at h
  · rename_i ht
    cases h
    exact ⟨ht ▸ str_isScalar _, str_isScalar _⟩
  · cases h

/-- A value that is written and read back. -/
def IsPlain (v : Value) : Prop :=
  ∃ s, scalarOf v = some s ∧ ∀ t, s = .text t → ∀ n ∈ t, IsScalar n

theorem isPlain_text {t : Text} (h : ∀ n ∈ t, IsScalar n) : IsPlain (.text t) := by
  refine ⟨.text t, rfl, ?_⟩
  intro t' ht'
  cases ht'
  exact h

theorem isPlain_int (n : Int) : IsPlain (.int n) := by
  refine ⟨.int n, rfl, ?_⟩
  intro t ht
  cases ht

theorem Valid.isPlain {r : SideReady} (h : Valid py r) : ∀ item ∈ r.items, IsPlain item.2 := by
  obtain ⟨attempt, hattempt, hattempt'⟩ := h.attempt
  obtain ⟨seat, hseat⟩ := h.seat
  obtain ⟨runId, hrun, hrun'⟩ := h.run
  obtain ⟨role, gate, hrole, hgate, hgate'⟩ := h.role
  obtain ⟨activation, hactivation⟩ := h.activation
  obtain ⟨stage, hstage⟩ := h.stage
  obtain ⟨proof, hproof⟩ := h.proof
  obtain ⟨launch, hlaunch, hlaunch'⟩ := h.launch
  obtain ⟨advertisement, hadvertisement, hadvertisement'⟩ := h.advertisement
  obtain ⟨n, -, hn⟩ := Option.map_eq_some_iff.mp hrun'
  intro item hitem
  simp only [SideReady.items, List.mem_cons, List.not_mem_nil, or_false] at hitem
  rcases hitem with rfl | rfl | rfl | rfl | rfl | rfl | rfl | rfl | rfl | rfl | rfl
  · exact hactivation ▸ isPlain_int activation
  · exact hadvertisement ▸ isPlain_text (sha256_isScalar hadvertisement')
  · exact hattempt ▸ isPlain_text hattempt'
  · exact h.contract ▸ isPlain_text (str_isScalar _)
  · exact hlaunch ▸ isPlain_text (sha256_isScalar hlaunch')
  · exact hgate' ▸ isPlain_text (roleGate_isScalar hgate).2
  · exact hproof ▸ isPlain_int proof
  · exact hrun ▸ isPlain_text (hn ▸ uuidStr_isScalar n)
  · exact hseat ▸ isPlain_text (str_isScalar _)
  · exact hstage ▸ isPlain_int stage
  · exact hrole ▸ isPlain_text (roleGate_isScalar hgate).1

theorem scalarOf_value {v : Value} {s : Scalar} (h : scalarOf v = some s) : s.value = v := by
  cases v <;> cases h <;> rfl

/-- The items of plain values are scalars, which are read back as these values. -/
theorem scalars_of_plain {items : List (String × Value)} (h : ∀ item ∈ items, IsPlain item.2) :
    ∃ scalars,
      (items.mapM fun item => (scalarOf item.2).map (str item.1, ·)) = some scalars ∧
        (scalars.map fun i => (i.1, i.2.value)) = (items.map fun i => (str i.1, i.2)) ∧
          ∀ i ∈ scalars, Written i := by
  induction items with
  | nil => exact ⟨[], rfl, rfl, fun i hi => nomatch hi⟩
  | cons item items ih =>
    obtain ⟨s, hs, hplain⟩ := h item List.mem_cons_self
    obtain ⟨scalars, hmap, hvalues, hwritten⟩ :=
      ih fun i hi => h i (List.mem_cons_of_mem item hi)
    refine ⟨(str item.1, s) :: scalars, ?_, ?_, ?_⟩
    · rw [List.mapM_cons, hs, hmap]
      rfl
    · rw [List.map_cons, List.map_cons, hvalues, scalarOf_value hs]
    · intro i hi
      rcases List.mem_cons.mp hi with rfl | hi
      · exact ⟨str_isScalar _, hplain⟩
      · exact hwritten i hi

/-- The items of a valid record are scalars. -/
theorem scalars_of_valid {r : SideReady} (h : r.validate py = .ok r) :
    ∃ scalars,
      (r.items.mapM fun item => (scalarOf item.2).map (str item.1, ·)) = some scalars ∧
        (scalars.map fun i => (i.1, i.2.value)) = (r.items.map fun i => (str i.1, i.2)) ∧
          ∀ i ∈ scalars, Written i :=
  scalars_of_plain (validate_ok h).2.isPlain

/-! ## The record is read back -/

/-- The generations have no more digits than the interpreter writes. -/
def SideReady.Writable (r : SideReady) : Prop :=
  ∀ n, .int n ∈ [r.activationGeneration, r.stageGeneration, r.proofGeneration] →
    n.natAbs < 10 ^ maxStrDigits

theorem decodeAscii_of_ascii {cs : List Char} (h : ∀ c ∈ cs, c.toNat < 128) :
    decodeAscii (cs.map fun c => UInt8.ofNat c.toNat) = .ok cs := by
  have hsmall : ∀ c ∈ cs, (UInt8.ofNat c.toNat).toNat = c.toNat := by
    intro c hc
    have := h c hc
    exact UInt8.toNat_ofNat_of_lt' (lt_of_lt_of_le this (by decide))
  have hall : (cs.map fun c => UInt8.ofNat c.toNat).all (· < 128) = true := by
    rw [List.all_eq_true]
    intro b hb
    obtain ⟨c, hc, rfl⟩ := List.mem_map.mp hb
    have hlt : (UInt8.ofNat c.toNat).toNat < 128 := by rw [hsmall c hc]; exact h c hc
    exact decide_eq_true (UInt8.lt_iff_toNat_lt.mpr hlt)
  have hback : (cs.map fun c => UInt8.ofNat c.toNat).map (fun b => Char.ofNat b.toNat) = cs := by
    rw [List.map_map]
    conv_rhs => rw [← List.map_id cs]
    apply List.map_congr_left
    intro c hc
    show Char.ofNat (UInt8.ofNat c.toNat).toNat = c
    rw [hsmall c hc, Char.ofNat_toNat]
  unfold decodeAscii
  rw [if_pos hall, hback]

theorem hasFields_items (r : SideReady) :
    hasFields (r.items.map fun i => (str i.1, i.2)) = true := by
  simp [hasFields, SideReady.items, fields, str_inj]

theorem ofItems_items (r : SideReady) :
    SideReady.ofItems (r.items.map fun i => (str i.1, i.2)) = r := by
  simp [SideReady.ofItems, SideReady.items, lookup, str_inj]

/-- The integers of a record are its generations. -/
theorem int_of_items {r : SideReady} (h : Valid py r) {n : Int} :
    (∃ key, (key, Value.int n) ∈ r.items) ↔
      .int n ∈ [r.activationGeneration, r.stageGeneration, r.proofGeneration] := by
  obtain ⟨attempt, hattempt, -⟩ := h.attempt
  obtain ⟨seat, hseat⟩ := h.seat
  obtain ⟨runId, hrun, -⟩ := h.run
  obtain ⟨role, gate, hrole, -, hgate⟩ := h.role
  obtain ⟨launch, hlaunch, -⟩ := h.launch
  obtain ⟨advertisement, hadvertisement, -⟩ := h.advertisement
  simp only [SideReady.items, h.contract, hattempt, hseat, hrun, hrole, hgate, hlaunch,
    hadvertisement, List.mem_cons, Prod.mk.injEq, reduceCtorEq, and_false, or_false, false_or,
    List.not_mem_nil]
  constructor
  · rintro ⟨key, ⟨-, hn⟩ | ⟨-, hn⟩ | ⟨-, hn⟩⟩
    · exact .inl hn
    · exact .inr (.inr hn)
    · exact .inr (.inl hn)
  · rintro (hn | hn | hn)
    · exact ⟨_, .inl ⟨rfl, hn⟩⟩
    · exact ⟨_, .inr (.inr ⟨rfl, hn⟩)⟩
    · exact ⟨_, .inr (.inl ⟨rfl, hn⟩)⟩

/-- A valid record is written if and only if its generations are. -/
theorem dumps_of_valid {r : SideReady} (h : Valid py r) {scalars : List (Text × Scalar)}
    (hvalues : (scalars.map fun i => (i.1, i.2.value)) = (r.items.map fun i => (str i.1, i.2))) :
    dumps scalars = none ↔ ¬ r.Writable := by
  have hmem (n : Int) : (∃ key, (key, Scalar.int n) ∈ scalars) ↔
      .int n ∈ [r.activationGeneration, r.stageGeneration, r.proofGeneration] := by
    rw [← int_of_items h]
    constructor
    · rintro ⟨key, hkey⟩
      have hitem : (key, Value.int n) ∈ r.items.map fun i => (str i.1, i.2) := by
        rw [← hvalues]
        exact List.mem_map.mpr ⟨_, hkey, rfl⟩
      obtain ⟨⟨name, v⟩, hname, he⟩ := List.mem_map.mp hitem
      cases he
      exact ⟨name, hname⟩
    · rintro ⟨name, hname⟩
      have hitem : (str name, Value.int n) ∈ scalars.map fun i => (i.1, i.2.value) := by
        rw [hvalues]
        exact List.mem_map.mpr ⟨_, hname, rfl⟩
      obtain ⟨⟨key, s⟩, hkey, he⟩ := List.mem_map.mp hitem
      cases s with
      | int m =>
        cases he
        exact ⟨_, hkey⟩
      | text t => cases he
  rw [dumps_eq_none, SideReady.Writable]
  push Not
  constructor
  · rintro ⟨⟨key, s⟩, hi, hnone⟩
    cases s with
    | int n => exact ⟨n, (hmem n).mp ⟨key, hi⟩, dumpsInt_eq_none.mp hnone⟩
    | text t => cases hnone
  · rintro ⟨n, hn, hlarge⟩
    obtain ⟨key, hkey⟩ := (hmem n).mpr hn
    exact ⟨_, hkey, dumpsInt_eq_none.mpr hlarge⟩

theorem dump_eq {r : SideReady} {scalars : List (Text × Scalar)}
    (hmap : (r.items.mapM fun item => (scalarOf item.2).map (str item.1, ·)) = some scalars) :
    r.dump = (orRaise (dumps scalars) .valueError).map
      fun text => text.map fun c => UInt8.ofNat c.toNat := by
  unfold SideReady.dump
  rw [hmap]
  show (orRaise (dumps scalars) _ >>= _) = _
  cases dumps scalars <;> rfl

/-- What is written of a record is parsed as the record, at any depth that allows one
dictionary, and at no other. -/
theorem parse_dump {r : SideReady} (h : ∀ item ∈ r.items, IsPlain item.2) {payload : Bytes}
    (hp : r.dump = .ok payload) (depth : Nat) :
    parse (depth + 1) payload = .ok r ∧ parse 0 payload = .error .recursionError := by
  obtain ⟨scalars, hmap, hvalues, hwritten⟩ := scalars_of_plain h
  rw [dump_eq hmap] at hp
  cases hcs : dumps scalars with
  | none =>
    rw [hcs] at hp
    cases hp
  | some cs =>
    rw [hcs] at hp
    cases hp
    have hascii := decodeAscii_of_ascii (dumps_ascii hcs hwritten)
    have hloads := loads_dumps depth hcs hwritten
    rw [hvalues] at hloads
    refine ⟨parse_ok.mpr ⟨cs, _, hascii, hloads, hasFields_items r, ofItems_items r⟩, ?_⟩
    have hdeep : loadsValue 0 cs = .error .recursionError := by
      obtain ⟨body, -, rfl⟩ := Option.map_eq_some_iff.mp hcs
      rfl
    unfold parse
    rw [hascii]
    show (loadsValue 0 cs >>= _) = _
    rw [hdeep]
    rfl

/-- A valid record is read back as it was written if and only if it can be written, and the
interpreter may go one level deep. -/
theorem decode_encode_iff (depth : Nat) {r : SideReady} (h : r.validate py = .ok r) :
    (r.encode py >>= SideReady.decode py depth) = .ok r ↔ r.Writable ∧ 0 < depth := by
  have hplain := (validate_ok h).2.isPlain
  obtain ⟨scalars, hmap, hvalues, -⟩ := scalars_of_valid h
  have hdumps := dumps_of_valid (validate_ok h).2 hvalues
  have hencode : r.encode py = r.dump := by
    unfold SideReady.encode
    rw [h]
    rfl
  rw [hencode]
  constructor
  · intro hok
    obtain ⟨payload, hp, hdecode⟩ := bind_eq_ok.mp hok
    constructor
    · by_contra hw
      rw [dump_eq hmap, hdumps.mpr hw] at hp
      cases hp
    · by_contra hdepth
      obtain rfl : depth = 0 := by omega
      have hparse := (decode_ok.mp hdecode).1
      rw [(parse_dump hplain hp 0).2] at hparse
      cases hparse
  · rintro ⟨hw, hdepth⟩
    obtain ⟨depth, rfl⟩ : ∃ k, depth = k + 1 := ⟨depth - 1, by omega⟩
    obtain ⟨cs, hcs⟩ := Option.ne_none_iff_exists'.mp fun hnone => hdumps.mp hnone hw
    have hp : r.dump = .ok (cs.map fun c => UInt8.ofNat c.toNat) := by
      rw [dump_eq hmap, hcs]
      rfl
    exact bind_eq_ok.mpr ⟨_, hp, decode_ok.mpr ⟨(parse_dump hplain hp depth).1, h⟩⟩

/-! ## One record for each identity -/

/-- Two records that may differ in the form of their run and of their seat: what the run
names, and what the seat names, is the same. -/
structure SameButForm (py : Library) (r r' : SideReady) : Prop where
  rest : r' = { r with sourceSeat := r'.sourceSeat, runId := r'.runId }
  seat : parseSeat r'.sourceSeat = parseSeat r.sourceSeat
  run : uuidText py r'.runId = uuidText py r.runId

theorem Valid.eq_of_sameButForm {r r' : SideReady} (h : Valid py r) (h' : Valid py r')
    (hsame : SameButForm py r r') : r = r' := by
  obtain ⟨t, hrun, ht⟩ := h.run
  obtain ⟨t', hrun', ht'⟩ := h'.run
  have huuid := hsame.run
  rw [hrun, hrun', uuidText, uuidText, ht, ht'] at huuid
  have hruns : r'.runId = r.runId := by
    rw [hrun, hrun']
    exact congrArg Value.text (Except.ok.inj huuid)
  obtain ⟨seat, hseat⟩ := h.seat
  obtain ⟨seat', hseat'⟩ := h'.seat
  have hparse : ∀ s : SourceSeat, parseSeat (.text (str s.label)) = .ok s := by
    intro s
    cases s <;> simp [parseSeat, SourceSeat.label, str_inj]
  have hseats := hsame.seat
  rw [hseat, hseat', hparse, hparse] at hseats
  rw [hsame.rest, hruns, hseat', Except.ok.inj hseats, ← hseat]

def Accepted (py : Library) (depth : Nat) (payload : Bytes) : Prop :=
  ∃ r, SideReady.decode py depth payload = .ok r

/-- Of two payloads whose records differ only in form, one is refused. -/
theorem not_both_accepted {depth : Nat} {payload payload' : Bytes} {r r' : SideReady}
    (h : parse depth payload = .ok r) (h' : parse depth payload' = .ok r')
    (hsame : SameButForm py r r') (hne : r ≠ r') :
    ¬ (Accepted py depth payload ∧ Accepted py depth payload') := by
  rintro ⟨⟨s, hs⟩, s', hs'⟩
  obtain ⟨hparse, hvalid⟩ := decode_ok.mp hs
  obtain ⟨hparse', hvalid'⟩ := decode_ok.mp hs'
  obtain rfl : r = s := Except.ok.inj (h.symm.trans hparse)
  obtain rfl : r' = s' := Except.ok.inj (h'.symm.trans hparse')
  exact hne ((validate_ok hvalid).2.eq_of_sameButForm (validate_ok hvalid').2 hsame)

/-! ## The contract of `decode` -/

/-- A payload is answered with a valid record or a `TunnelV2Error`, unless it is too deep or
its run is no text. A valid record is read back, unless it cannot be written. No two payloads
that differ in form are accepted. -/
theorem sideReady_decode (py : Library) (depth : Nat) :
    (∀ payload, Answered py depth payload ↔
      ¬ TooDeep depth payload ∧ ¬ ForeignRun depth payload) ∧
    (∀ r : SideReady, r.validate py = .ok r →
      ((r.encode py >>= SideReady.decode py depth) = .ok r ↔ r.Writable ∧ 0 < depth)) ∧
    ∀ payload payload' r r', parse depth payload = .ok r → parse depth payload' = .ok r' →
      SameButForm py r r' → r ≠ r' →
        ¬ (Accepted py depth payload ∧ Accepted py depth payload') := by
  refine ⟨answered_iff depth, ?_, ?_⟩
  · intro r hr
    exact decode_encode_iff depth hr
  · intro payload payload' r r' h h' hsame hne
    exact not_both_accepted h h' hsame hne

/-- `int(text, 16)` of a text of hexadecimal digits. -/
def plainHexadecimal (t : Text) : Option Int :=
  (t.foldlM
    (fun n c =>
      if 48 ≤ c ∧ c ≤ 57 then some (16 * n + (c - 48))
      else if 97 ≤ c ∧ c ≤ 102 then some (16 * n + (c - 87))
      else if 65 ≤ c ∧ c ≤ 70 then some (16 * n + (c - 55))
      else none)
    0).map Int.ofNat

def plainLibrary : Library := ⟨plainHexadecimal⟩

/-- A record of the creator, with the run it is given. -/
def sampleReady (runId : Value) : SideReady where
  contractVersion := .text contract
  attemptId := .text (str "attempt")
  activationGeneration := .int 1
  sourceSeat := .text (str "member_a")
  switchRole := .text (str "a_room_joiner")
  localGate := .text (str "A_READY")
  runId := runId
  stageGeneration := .int 1
  launchIdentitySha256 := .text (List.replicate 64 48)
  advertisementSha256 := .text (List.replicate 64 48)
  proofGeneration := .int 1

/-- What is written of a record. -/
def SideReady.bytes (r : SideReady) : Bytes := r.dump.toOption.getD []

def lowerRun : Value := .text (str "abcdef01-2345-6789-abcd-ef0123456789")

def upperRun : Value := .text (str "ABCDEF01-2345-6789-ABCD-EF0123456789")

theorem sampleReady_isPlain {t : Text} (h : ∀ n ∈ t, IsScalar n) :
    ∀ item ∈ (sampleReady (.text t)).items, IsPlain item.2 := by
  have hzero : ∀ n ∈ List.replicate 64 48, IsScalar n := by
    intro n hn
    rw [List.eq_of_mem_replicate hn]
    exact .inl (by omega)
  intro item hitem
  simp only [SideReady.items, sampleReady, List.mem_cons, List.not_mem_nil, or_false] at hitem
  rcases hitem with rfl | rfl | rfl | rfl | rfl | rfl | rfl | rfl | rfl | rfl | rfl
  all_goals first
    | exact isPlain_int 1
    | exact isPlain_text hzero
    | exact isPlain_text (str_isScalar _)
    | exact isPlain_text h

theorem sampleReady_sameButForm {v w : Value} (h : uuidText py w = uuidText py v) :
    SameButForm py (sampleReady v) (sampleReady w) := ⟨rfl, rfl, h⟩

theorem sampleReady_parsed {s : String}
    (h : (sampleReady (.text (str s))).dump.toOption.isSome = true) :
    parse 100 (sampleReady (.text (str s))).bytes = .ok (sampleReady (.text (str s))) := by
  have hp : (sampleReady (.text (str s))).dump = .ok (sampleReady (.text (str s))).bytes := by
    unfold SideReady.bytes
    cases hd : (sampleReady (.text (str s))).dump with
    | ok payload => rfl
    | error e =>
      rw [hd] at h
      cases h
  exact (parse_dump (sampleReady_isPlain (str_isScalar s)) hp 99).1

/-- The record is read back with the run in lower case, and refused with it in upper case. -/
theorem sideReady_decode_sample :
    ((sampleReady lowerRun).encode plainLibrary >>= SideReady.decode plainLibrary 100) =
        .ok (sampleReady lowerRun) ∧
      ¬ (Accepted plainLibrary 100 (sampleReady lowerRun).bytes ∧
        Accepted plainLibrary 100 (sampleReady upperRun).bytes) := by
  have hvalid : (sampleReady lowerRun).validate plainLibrary = .ok (sampleReady lowerRun) := by
    have hok : ((sampleReady lowerRun).validate plainLibrary).toOption.isSome = true := by
      decide +kernel
    cases h : (sampleReady lowerRun).validate plainLibrary with
    | ok r => rw [(validate_ok h).1]
    | error e =>
      rw [h] at hok
      cases hok
  have hwritable : (sampleReady lowerRun).Writable := by
    intro n hn
    obtain rfl : n = 1 := by simpa [sampleReady] using hn
    have hlt : 1 < 10 ^ maxStrDigits := Nat.one_lt_pow (by decide) (by omega)
    exact hlt
  have hsame : SameButForm plainLibrary (sampleReady lowerRun) (sampleReady upperRun) :=
    sampleReady_sameButForm (by decide +kernel)
  have hne : sampleReady lowerRun ≠ sampleReady upperRun := by
    intro h
    have hrun : lowerRun = upperRun := congrArg SideReady.runId h
    have htext : str "abcdef01-2345-6789-abcd-ef0123456789" =
        str "ABCDEF01-2345-6789-ABCD-EF0123456789" := Value.text.inj hrun
    exact absurd (str_inj.mp htext) (by decide)
  have hlower : parse 100 (sampleReady lowerRun).bytes = .ok (sampleReady lowerRun) :=
    sampleReady_parsed (s := "abcdef01-2345-6789-abcd-ef0123456789") (by decide +kernel)
  have hupper : parse 100 (sampleReady upperRun).bytes = .ok (sampleReady upperRun) :=
    sampleReady_parsed (s := "ABCDEF01-2345-6789-ABCD-EF0123456789") (by decide +kernel)
  obtain ⟨-, hround, hform⟩ := sideReady_decode plainLibrary 100
  exact ⟨(hround _ hvalid).mpr ⟨hwritable, by omega⟩, hform _ _ _ _ hlower hupper hsame hne⟩

/-- The run is a number: `uuid.UUID` asks it for `replace`, and the `AttributeError` is the
caller's. -/
theorem numeric_run_escapes :
    ¬ Answered plainLibrary 100 (SideReady.bytes (sampleReady (.int 1))) := by
  have herror : (match SideReady.decode plainLibrary 100
      (SideReady.bytes (sampleReady (.int 1))) with
    | .error e => some e
    | .ok _ => none) = some .attributeError := by decide +kernel
  rintro (⟨r, hr, -⟩ | ⟨e, he⟩)
  · rw [hr] at herror
    cases herror
  · rw [he] at herror
    cases herror

end SwitchTrade.Readiness

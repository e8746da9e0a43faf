import SwitchTrade.Transition.Permuted
import SwitchTrade.Transition.LittleEndian

/-!
# The record of a Pokémon

`frlgsim/mon.py`: the box record of 80 bytes, which a party record continues by 20. Its bytes 32 to
80 are four substructures of 12 bytes. On the wire they stand in the order that the personality
picks and are XORed word by word with a key; in a decrypted file they stand in the order G, A, E, M
in the clear. The checksum is a sum of half words, so it does not see the order.
-/

namespace SwitchTrade.Pk3

/-- Growth, attacks, EVs and misc. -/
inductive Substruct
  | G
  | A
  | E
  | M
  deriving DecidableEq, Repr

open Substruct

/-- `"GAEM"`. -/
def canonical : List Substruct := [G, A, E, M]

/-- `SUBSTRUCT_ORDER`. -/
def substructOrder : List (List Substruct) := [
  [G, A, E, M], [G, A, M, E], [G, E, A, M], [G, E, M, A], [G, M, A, E], [G, M, E, A],
  [A, G, E, M], [A, G, M, E], [A, E, G, M], [A, E, M, G], [A, M, G, E], [A, M, E, G],
  [E, G, A, M], [E, G, M, A], [E, A, G, M], [E, A, M, G], [E, M, G, A], [E, M, A, G],
  [M, G, A, E], [M, G, E, A], [M, A, G, E], [M, A, E, G], [M, E, G, A], [M, E, A, G]]

def boxSize : Nat := 80

def partyMonSize : Nat := 100

def secureOff : Nat := 32

def secureEnd : Nat := 80

/-- `buf[start:stop]`. -/
def slice (buf : List UInt8) (start stop : Nat) : List UInt8 := (buf.take stop).drop start

/-- `int.from_bytes(buf[start:stop], "little")`. -/
def field (buf : List UInt8) (start stop : Nat) : Nat := LittleEndian.ofBytes (slice buf start stop)

def personality (buf : List UInt8) : Nat := field buf 0 4

def trainerId (buf : List UInt8) : Nat := field buf 4 8

def key (buf : List UInt8) : Nat := personality buf ^^^ trainerId buf

/-- `SUBSTRUCT_ORDER[pid % 24]`. -/
def orderOf (pid : Nat) : List Substruct := substructOrder.getD (pid % 24) canonical

/-- The bytes of the four substructures. -/
def secure (buf : List UInt8) : List UInt8 := slice buf secureOff secureEnd

/-- `buf[SECURE_OFF:SECURE_END] = sec`. -/
def withSecure (buf sec : List UInt8) : List UInt8 :=
  buf.take secureOff ++ sec ++ buf.drop secureEnd

/-- One word of `_xor_secure`. -/
def xorWord (key : Nat) (word : List UInt8) : List UInt8 :=
  LittleEndian.toBytes 4 ((LittleEndian.ofBytes word ^^^ key) &&& 0xFFFFFFFF)

/-- `_xor_secure`. -/
def xorSecure (buf : List UInt8) (key : Nat) : List UInt8 :=
  withSecure buf (Chunks.mapped 4 12 (xorWord key) (secure buf))

/-- Where in the order the substructure `ci` of the canonical order stands. -/
def placeOf (order : List Substruct) (ci : Nat) : Nat := order.idxOf (canonical.getD ci G)

/-- Which substructure of the canonical order stands at the place `p` of the order. -/
def standsAt (order : List Substruct) (p : Nat) : Nat := canonical.idxOf (order.getD p G)

/-- `to_decrypted`. -/
def toDecrypted (wire : List UInt8) : List UInt8 :=
  let pid := personality wire
  let dec := xorSecure wire (key wire)
  let canon := Chunks.permuted 12 4 (placeOf (orderOf pid)) (secure dec)
  withSecure dec canon

/-- `to_encrypted`. -/
def toEncrypted (pk3 : List UInt8) : List UInt8 :=
  let pid := personality pk3
  let shuf := Chunks.permuted 12 4 (standsAt (orderOf pid)) (secure pk3)
  xorSecure (withSecure pk3 shuf) (key pk3)

/-- What `decode_mon` reads, without the texts of the names. -/
structure Decoded where
  pid : Nat
  otid : Nat
  language : UInt8
  checksumOk : Bool
  stored : Nat
  calculated : Nat
  species : Nat
  heldItem : Nat
  exp : Nat
  moves : List Nat
  level : Option UInt8
  deriving DecidableEq, Repr

/-- The sum of the half words. -/
def checksum (sec : List UInt8) : Nat := Chunks.total 2 24 LittleEndian.ofBytes sec &&& 0xFFFF

/-- `decode_mon`; none when there are too few bytes. -/
def decodeMon (mon : List UInt8) : Option Decoded :=
  if mon.length < 80 then none
  else
    let pid := personality mon
    let sec := Chunks.mapped 4 12 (xorWord (key mon)) (secure mon)
    let calculated := checksum sec
    let stored := field mon 28 30
    let order := orderOf pid
    let growth := Chunks.chunk 12 (order.idxOf G) sec
    let attacks := Chunks.chunk 12 (order.idxOf A) sec
    some {
      pid := pid
      otid := trainerId mon
      language := mon.getD 18 0
      checksumOk := calculated == stored
      stored := stored
      calculated := calculated
      species := field growth 0 2
      heldItem := field growth 2 4
      exp := field growth 4 8
      moves := (List.range 4).map fun i => field attacks (2 * i) (2 * i + 2)
      level := if 100 ≤ mon.length then some (mon.getD 84 0) else none }

/-- `_wire_valid`. -/
def wireValid (b : List UInt8) : Bool :=
  match decodeMon b with
  | none => false
  | some d => d.checksumOk

/-! ## The parts of a record -/

variable {buf sec w d : List UInt8} {k n start stop : Nat}

theorem length_secure (h : 80 ≤ buf.length) : (secure buf).length = 4 * 12 := by
  unfold secure slice secureOff secureEnd
  rw [List.length_drop, List.length_take]
  omega

theorem length_withSecure (h : 80 ≤ buf.length) (hsec : sec.length = 4 * 12) :
    (withSecure buf sec).length = buf.length := by
  unfold withSecure secureOff secureEnd
  rw [List.length_append, List.length_append, List.length_take, List.length_drop]
  omega

theorem secure_withSecure (h : 80 ≤ buf.length) (hsec : sec.length = 4 * 12) :
    secure (withSecure buf sec) = sec := by
  have hhead : (buf.take 32).length = 32 := List.length_take_of_le (by omega)
  have hboth : (buf.take 32 ++ sec).length = 80 := by
    rw [List.length_append, hhead]
    omega
  show ((buf.take 32 ++ sec ++ buf.drop 80).take 80).drop 32 = sec
  rw [List.take_left' hboth, List.drop_left' hhead]

theorem withSecure_secure : withSecure buf (secure buf) = buf := by
  show buf.take 32 ++ (buf.take 80).drop 32 ++ buf.drop 80 = buf
  have hhead : buf.take 32 = (buf.take 80).take 32 := by
    rw [List.take_take]
    rfl
  rw [hhead, List.take_append_drop, List.take_append_drop]

theorem withSecure_withSecure {sec' : List UInt8} (h : 80 ≤ buf.length)
    (hsec : sec.length = 4 * 12) : withSecure (withSecure buf sec) sec' = withSecure buf sec' := by
  have hhead : (buf.take 32).length = 32 := List.length_take_of_le (by omega)
  have hboth : (buf.take 32 ++ sec).length = 80 := by
    rw [List.length_append, hhead]
    omega
  show (buf.take 32 ++ sec ++ buf.drop 80).take 32 ++ sec' ++
    (buf.take 32 ++ sec ++ buf.drop 80).drop 80 = _
  rw [List.drop_left' hboth, List.append_assoc (buf.take 32), List.take_left' hhead]
  rfl

/-- What stands before the substructures is read the same. -/
theorem field_withSecure (h : 80 ≤ buf.length) (hstop : stop ≤ 32) :
    field (withSecure buf sec) start stop = field buf start stop := by
  have htake : (withSecure buf sec).take stop = buf.take stop := by
    show (buf.take 32 ++ sec ++ buf.drop 80).take stop = buf.take stop
    rw [List.append_assoc, List.take_append_of_le_length, List.take_take, Nat.min_eq_left hstop]
    rw [List.length_take]
    omega
  unfold field slice
  rw [htake]

@[simp] theorem personality_withSecure (h : 80 ≤ buf.length) :
    personality (withSecure buf sec) = personality buf :=
  field_withSecure h (by omega)

@[simp] theorem key_withSecure (h : 80 ≤ buf.length) : key (withSecure buf sec) = key buf := by
  unfold key trainerId
  rw [personality_withSecure h, field_withSecure h (by omega)]

/-! ## The key -/

theorem field_lt (h : stop ≤ start + n) : field buf start stop < 256 ^ n := by
  have hlen : (slice buf start stop).length ≤ n := by
    unfold slice
    rw [List.length_drop, List.length_take]
    omega
  exact lt_of_lt_of_le LittleEndian.ofBytes_lt (Nat.pow_le_pow_right (by decide) hlen)

theorem key_lt (buf : List UInt8) : key buf < 2 ^ 32 :=
  Nat.xor_lt_two_pow (field_lt (n := 4) (by omega)) (field_lt (n := 4) (by omega))

@[simp] theorem length_xorWord {word : List UInt8} : (xorWord k word).length = 4 :=
  LittleEndian.length_toBytes

theorem ofBytes_xorWord {word : List UInt8} (hk : k < 2 ^ 32) (hword : word.length = 4) :
    LittleEndian.ofBytes (xorWord k word) = LittleEndian.ofBytes word ^^^ k := by
  have hvalue : LittleEndian.ofBytes word < 2 ^ 32 := by
    have hlt := @LittleEndian.ofBytes_lt word
    rwa [hword] at hlt
  have hxor : LittleEndian.ofBytes word ^^^ k < 2 ^ 32 := Nat.xor_lt_two_pow hvalue hk
  have hmask :
      (LittleEndian.ofBytes word ^^^ k) &&& 0xFFFFFFFF = LittleEndian.ofBytes word ^^^ k := by
    have hand := Nat.and_two_pow_sub_one_eq_mod (LittleEndian.ofBytes word ^^^ k) 32
    rw [Nat.mod_eq_of_lt hxor] at hand
    exact hand
  rw [xorWord, hmask, LittleEndian.ofBytes_toBytes hxor]

/-- XOR with the key undoes itself. -/
theorem xorWord_xorWord {word : List UInt8} (hk : k < 2 ^ 32) (hword : word.length = 4) :
    xorWord k (xorWord k word) = word := by
  have hvalue : LittleEndian.ofBytes word < 2 ^ 32 := by
    have hlt := @LittleEndian.ofBytes_lt word
    rwa [hword] at hlt
  have hmask : LittleEndian.ofBytes word &&& 0xFFFFFFFF = LittleEndian.ofBytes word := by
    have hand := Nat.and_two_pow_sub_one_eq_mod (LittleEndian.ofBytes word) 32
    rw [Nat.mod_eq_of_lt hvalue] at hand
    exact hand
  have hback := @LittleEndian.toBytes_ofBytes word
  rw [hword] at hback
  rw [xorWord, ofBytes_xorWord hk hword, Nat.xor_assoc, Nat.xor_self, Nat.xor_zero, hmask, hback]

/-! ## The two conversions -/

theorem length_xorred (h : sec.length = 12 * 4) :
    (Chunks.mapped 4 12 (xorWord k) sec).length = 12 * 4 :=
  Chunks.length_mapped (fun _ _ => length_xorWord) h

theorem xorred_xorred (hk : k < 2 ^ 32) (h : sec.length = 12 * 4) :
    Chunks.mapped 4 12 (xorWord k) (Chunks.mapped 4 12 (xorWord k) sec) = sec :=
  Chunks.mapped_mapped (fun _ _ => length_xorWord) (fun _ => xorWord_xorWord hk) h

/-- Each order names the four substructures, each of them once. -/
structure Names (order : List Substruct) : Prop where
  placeOf_lt : ∀ ci < 4, placeOf order ci < 4
  standsAt_lt : ∀ p < 4, standsAt order p < 4
  standsAt_placeOf : ∀ ci < 4, standsAt order (placeOf order ci) = ci
  placeOf_standsAt : ∀ p < 4, placeOf order (standsAt order p) = p
  perm : ((List.range 4).map (placeOf order)).Perm (List.range 4)

theorem orderOf_names (pid : Nat) : Names (orderOf pid) := by
  have hall : ∀ n < 24,
      (∀ ci < 4, placeOf (substructOrder.getD n canonical) ci < 4) ∧
      (∀ p < 4, standsAt (substructOrder.getD n canonical) p < 4) ∧
      (∀ ci < 4, standsAt (substructOrder.getD n canonical)
        (placeOf (substructOrder.getD n canonical) ci) = ci) ∧
      (∀ p < 4, placeOf (substructOrder.getD n canonical)
        (standsAt (substructOrder.getD n canonical) p) = p) ∧
      ((List.range 4).map (placeOf (substructOrder.getD n canonical))).Perm (List.range 4) := by
    decide +kernel
  obtain ⟨hplace, hstands, hback, hforth, hperm⟩ := hall (pid % 24) (Nat.mod_lt pid (by decide))
  exact ⟨hplace, hstands, hback, hforth, hperm⟩

/-- The decrypted form: the words cleared and the substructures put in the canonical order. -/
theorem toDecrypted_eq (h : 80 ≤ w.length) : toDecrypted w = withSecure w
    (Chunks.permuted 12 4 (placeOf (orderOf (personality w)))
      (Chunks.mapped 4 12 (xorWord (key w)) (secure w))) := by
  have hxor := length_xorred (k := key w) (length_secure h)
  unfold toDecrypted xorSecure
  dsimp only
  rw [secure_withSecure h hxor, withSecure_withSecure h hxor]

/-- The wire form: the substructures put in the order of the personality and the words XORed. -/
theorem toEncrypted_eq (h : 80 ≤ d.length) : toEncrypted d = withSecure d
    (Chunks.mapped 4 12 (xorWord (key d))
      (Chunks.permuted 12 4 (standsAt (orderOf (personality d))) (secure d))) := by
  have hshuf := Chunks.length_permuted (orderOf_names (personality d)).standsAt_lt
    (length_secure h)
  unfold toEncrypted xorSecure
  dsimp only
  rw [secure_withSecure h hshuf, withSecure_withSecure h hshuf]

theorem length_canon (h : 80 ≤ w.length) :
    (Chunks.permuted 12 4 (placeOf (orderOf (personality w)))
      (Chunks.mapped 4 12 (xorWord k) (secure w))).length = 4 * 12 :=
  Chunks.length_permuted (orderOf_names (personality w)).placeOf_lt
    (length_xorred (length_secure h))

theorem length_shuffled (h : 80 ≤ d.length) :
    (Chunks.mapped 4 12 (xorWord k)
      (Chunks.permuted 12 4 (standsAt (orderOf (personality d))) (secure d))).length = 4 * 12 :=
  length_xorred (Chunks.length_permuted (orderOf_names (personality d)).standsAt_lt
    (length_secure h))

theorem length_toDecrypted (h : 80 ≤ w.length) : (toDecrypted w).length = w.length := by
  rw [toDecrypted_eq h, length_withSecure h (length_canon h)]

theorem length_toEncrypted (h : 80 ≤ d.length) : (toEncrypted d).length = d.length := by
  rw [toEncrypted_eq h, length_withSecure h (length_shuffled h)]

/-- What was decrypted is encrypted to what it was. -/
theorem toEncrypted_toDecrypted (h : 80 ≤ w.length) : toEncrypted (toDecrypted w) = w := by
  have hnames := orderOf_names (personality w)
  have hcanon := length_canon (k := key w) h
  have hxor := length_xorred (k := key w) (length_secure h)
  have hlen : 80 ≤ (toDecrypted w).length := by rwa [length_toDecrypted h]
  rw [toEncrypted_eq hlen, toDecrypted_eq h, personality_withSecure h, key_withSecure h,
    secure_withSecure h hcanon, withSecure_withSecure h hcanon,
    Chunks.permuted_permuted hnames.standsAt_lt hnames.placeOf_lt hnames.placeOf_standsAt hxor,
    xorred_xorred (key_lt w) (length_secure h), withSecure_secure]

theorem toDecrypted_toEncrypted (h : 80 ≤ d.length) : toDecrypted (toEncrypted d) = d := by
  have hnames := orderOf_names (personality d)
  have hshuf := length_shuffled (k := key d) h
  have hperm := Chunks.length_permuted hnames.standsAt_lt (length_secure h)
  have hlen : 80 ≤ (toEncrypted d).length := by rwa [length_toEncrypted h]
  rw [toDecrypted_eq hlen, toEncrypted_eq h, personality_withSecure h, key_withSecure h,
    secure_withSecure h hshuf, withSecure_withSecure h hshuf, xorred_xorred (key_lt d) hperm,
    Chunks.permuted_permuted hnames.placeOf_lt hnames.standsAt_lt hnames.standsAt_placeOf
      (length_secure h), withSecure_secure]

/-! ## The checksum -/

/-- The order of the substructures does not matter to the sum. -/
theorem checksum_permuted {order : List Substruct} (hnames : Names order)
    (h : sec.length = 4 * 12) :
    checksum (Chunks.permuted 12 4 (placeOf order) sec) = checksum sec := by
  unfold checksum
  rw [show (24 : Nat) = 4 * 6 from rfl, show (12 : Nat) = 6 * 2 from rfl,
    Chunks.total_permuted hnames.perm h]

theorem wireValid_iff (h : 80 ≤ w.length) : wireValid w = true ↔
    checksum (Chunks.mapped 4 12 (xorWord (key w)) (secure w)) = field w 28 30 := by
  unfold wireValid decodeMon
  rw [if_neg (by omega)]
  exact beq_iff_eq

/-- The decrypted form passes for a wire record when the half words of the wire record, as they
are, add up to its checksum. -/
theorem wireValid_toDecrypted (h : 80 ≤ w.length) :
    wireValid (toDecrypted w) = true ↔ checksum (secure w) = field w 28 30 := by
  have hnames := orderOf_names (personality w)
  have hcanon := length_canon (k := key w) h
  have hxor := length_xorred (k := key w) (length_secure h)
  have hlen : 80 ≤ (toDecrypted w).length := by rwa [length_toDecrypted h]
  have hsecure : Chunks.mapped 4 12 (xorWord (key w)) (Chunks.permuted 12 4
      (placeOf (orderOf (personality w))) (Chunks.mapped 4 12 (xorWord (key w)) (secure w))) =
      Chunks.permuted 12 4 (placeOf (orderOf (personality w))) (secure w) := by
    have hcommute := @Chunks.mapped_permuted _ 4 4 3 (xorWord (key w)) _ _ hnames.placeOf_lt
      (fun _ _ => length_xorWord) hxor
    rw [xorred_xorred (key_lt w) (length_secure h)] at hcommute
    exact hcommute
  rw [wireValid_iff hlen, toDecrypted_eq h, key_withSecure h, secure_withSecure h hcanon, hsecure,
    checksum_permuted hnames (length_secure h), field_withSecure h (by omega)]

end SwitchTrade.Pk3

import SwitchTrade.Pia.Datagram

/-!
# Names and addresses of a station

The texts of a Session message: names in UTF-8 or UTF-16, read with every malformed part replaced,
and addresses as dotted numbers. `_ip4` reads an address back to its bytes (`ip4_dotted`); what is
no dotted number it does not read.
-/

namespace SwitchTrade.Pia

/-- A text without lone surrogates. -/
abbrev Text := List Char

/-- `text.encode()`. -/
def encode (text : Text) : Bytes := text.flatMap String.utf8EncodeChar

/-- U+FFFD. -/
def replacement : Char := '\uFFFD'

/-! ## Reading names -/

/-- The code point of the payload bits of a UTF-8 sequence. -/
def utf8Char (lead : UInt8) (leadBits : Nat) (tail : Bytes) : Char :=
  Char.ofNat (tail.foldl (fun n byte => n * 64 + byte.toNat % 64) (lead.toNat % leadBits))

/-- How many bytes may follow a first byte, the least and the greatest second byte, and the modulus
of its payload bits. -/
def utf8Lead (lead : UInt8) : Option (Nat × UInt8 × UInt8 × Nat) :=
  if lead < 0x80 then some (0, 0, 0, 128)
  else if lead < 0xC2 then none
  else if lead < 0xE0 then some (1, 0x80, 0xBF, 32)
  else if lead < 0xF0 then
    some (2, if lead = 0xE0 then 0xA0 else 0x80, if lead = 0xED then 0x9F else 0xBF, 16)
  else if lead < 0xF5 then
    some (3, if lead = 0xF0 then 0x90 else 0x80, if lead = 0xF4 then 0x8F else 0xBF, 8)
  else none

/-- The bytes that follow a first byte as far as they are well formed. -/
def utf8Tail (low high : UInt8) : Nat → Bytes → Bytes
  | 0, _ => []
  | _ + 1, [] => []
  | more + 1, byte :: rest =>
    if low ≤ byte ∧ byte ≤ high then byte :: utf8Tail 0x80 0xBF more rest else []

/-- One character and how many bytes of the rest belong to it; a sequence that is malformed is
replaced as far as it was well formed. -/
def utf8Step (lead : UInt8) (rest : Bytes) : Char × Nat :=
  match utf8Lead lead with
  | none => (replacement, 0)
  | some (more, low, high, leadBits) =>
    let tail := utf8Tail low high more rest
    (if tail.length = more then utf8Char lead leadBits tail else replacement, tail.length)

/-- `raw.decode("utf-8", errors="replace")`; every turn consumes a byte at least. -/
def decodeUtf8Fuel : Nat → Bytes → Text
  | 0, _ => []
  | _ + 1, [] => []
  | fuel + 1, lead :: rest =>
    let step := utf8Step lead rest
    step.1 :: decodeUtf8Fuel fuel (rest.drop step.2)

def decodeUtf8 (raw : Bytes) : Text := decodeUtf8Fuel raw.length raw

/-- One character and how many bytes belong to it. A high surrogate needs a low one after it; at the
end of the data what is left is replaced at once. -/
def utf16Step (raw : Bytes) : Char × Nat :=
  match raw with
  | high :: low :: rest =>
    let unit := high.toNat * 256 + low.toNat
    if unit < 0xD800 ∨ 0xE000 ≤ unit then (Char.ofNat unit, 2)
    else if 0xDC00 ≤ unit then (replacement, 2)
    else
      match rest with
      | high' :: low' :: _ =>
        let unit' := high'.toNat * 256 + low'.toNat
        if 0xDC00 ≤ unit' ∧ unit' < 0xE000 then
          (Char.ofNat (0x10000 + (unit - 0xD800) * 1024 + (unit' - 0xDC00)), 4)
        else (replacement, 2)
      | _ => (replacement, raw.length)
  | _ => (replacement, raw.length)

/-- `raw.decode("utf-16-be", errors="replace")`; every turn consumes a byte at least. -/
def decodeUtf16Fuel : Nat → Bytes → Text
  | 0, _ => []
  | _ + 1, [] => []
  | fuel + 1, raw =>
    let step := utf16Step raw
    step.1 :: decodeUtf16Fuel fuel (raw.drop step.2)

def decodeUtf16 (raw : Bytes) : Text := decodeUtf16Fuel raw.length raw

/-! ## Addresses -/

/-- `int(x)` of the parts of an address: a text of ASCII digits. -/
def decimal (x : Text) : Option Nat :=
  if x ≠ [] ∧ x.all (fun c => '0' ≤ c ∧ c ≤ '9') = true then
    some (x.foldl (fun n c => 10 * n + (c.toNat - 48)) 0)
  else none

/-- `_ip4`; a part that is no number, or none of a byte, raises. -/
def ip4 (ip : Text) : Option Bytes :=
  (ip.splitOn '.').mapM fun x => do
    let n ← decimal x
    if n < 256 then some (UInt8.ofNat n) else none

/-- `".".join(str(x) for x in address)`. -/
def dotted (address : Bytes) : Text :=
  ['.'].intercalate (address.map fun x => Nat.toDigits 10 x.toNat)

/-- `address.hex()`. -/
def hexText (address : Bytes) : Text :=
  address.flatMap fun x => [Nat.digitChar (x.toNat / 16), Nat.digitChar (x.toNat % 16)]

/-- A text that `_ip4` reads. -/
abbrev Address := { text : Text // (ip4 text).isSome = true }

def Address.bytes (a : Address) : Bytes := (ip4 a.1).get a.2

theorem decimal_toDigits {n : Nat} (h : n < 256) :
    decimal (Nat.toDigits 10 n) = some n ∧ '.' ∉ Nat.toDigits 10 n := by
  have hall : ∀ n < 256, decimal (Nat.toDigits 10 n) = some n ∧ '.' ∉ Nat.toDigits 10 n := by
    decide +kernel
  exact hall n h

theorem ip4_dotted {address : Bytes} (h : address ≠ []) : ip4 (dotted address) = some address := by
  have hparts : ∀ part ∈ address.map fun x => Nat.toDigits 10 x.toNat, '.' ∉ part := by
    intro part hpart
    obtain ⟨x, -, rfl⟩ := List.mem_map.mp hpart
    exact (decimal_toDigits x.toNat_lt).2
  have hne : address.map (fun x => Nat.toDigits 10 x.toNat) ≠ [] := by
    simpa using h
  rw [ip4, dotted, List.splitOn_intercalate '.' hparts hne]
  clear hparts hne h
  induction address with
  | nil => rfl
  | cons x address ih =>
    have hbyte : (do
        let n ← decimal (Nat.toDigits 10 x.toNat)
        if n < 256 then some (UInt8.ofNat n) else none) = some x := by
      rw [(decimal_toDigits x.toNat_lt).1]
      have hlt := x.toNat_lt
      simp [hlt]
    rw [List.map_cons, List.mapM_cons, hbyte, ih]
    rfl

end SwitchTrade.Pia

import SwitchTrade.Pk3.Record
import Mathlib.Logic.Function.Basic

/-!
# The encryption of a record

`to_decrypted` and `to_encrypted` on the records of the two sizes. Each is the inverse of the other,
both change nothing but the substructures (`SameOutside`), and the decrypted record has the four
substructures where `decode_mon` finds them in the wire record (`Reads`): its checksum is the sum of
the half words that stand there in the clear.
-/

namespace SwitchTrade.Pk3

open Substruct

/-- A box record, or a party record. -/
inductive RecordForm
  | box
  | party
  deriving DecidableEq, Repr

def RecordForm.size : RecordForm → Nat
  | .box => boxSize
  | .party => partyMonSize

/-- The records of one form, wire or decrypted. -/
abbrev Record (form : RecordForm) := { buf : List UInt8 // buf.length = form.size }

variable {form : RecordForm} {w d xs : List UInt8} {i width start stop : Nat}

theorem Record.boxed (w : Record form) : 80 ≤ w.1.length := by
  rw [w.2]
  cases form with
  | box => exact Nat.le_refl 80
  | party => exact (by decide : 80 ≤ 100)

/-- `to_decrypted`. -/
def decrypt (w : Record form) : Record form :=
  ⟨toDecrypted w.1, (length_toDecrypted w.boxed).trans w.2⟩

/-- `to_encrypted`. -/
def encrypt (d : Record form) : Record form :=
  ⟨toEncrypted d.1, (length_toEncrypted d.boxed).trans d.2⟩

theorem encrypt_decrypt (w : Record form) : encrypt (decrypt w) = w :=
  Subtype.ext (toEncrypted_toDecrypted w.boxed)

theorem decrypt_encrypt (d : Record form) : decrypt (encrypt d) = d :=
  Subtype.ext (toDecrypted_toEncrypted d.boxed)

/-! ## What is left unchanged -/

/-- The header, and what follows the substructures: the tail of a party record. -/
def SameOutside (buf buf' : List UInt8) : Prop :=
  buf'.length = buf.length ∧ buf'.take secureOff = buf.take secureOff ∧
    buf'.drop secureEnd = buf.drop secureEnd

theorem sameOutside_withSecure {buf sec : List UInt8} (h : 80 ≤ buf.length)
    (hsec : sec.length = 4 * 12) : SameOutside buf (withSecure buf sec) := by
  have hhead : (buf.take 32).length = 32 := List.length_take_of_le (by omega)
  have hboth : (buf.take 32 ++ sec).length = 80 := by
    rw [List.length_append, hhead]
    omega
  refine ⟨length_withSecure h hsec, ?_, ?_⟩
  · show (buf.take 32 ++ sec ++ buf.drop 80).take 32 = buf.take 32
    rw [List.append_assoc, List.take_left' hhead]
  · show (buf.take 32 ++ sec ++ buf.drop 80).drop 80 = buf.drop 80
    rw [List.drop_left' hboth]

/-! ## What is read in the clear -/

/-- What `decode_mon` reads of a wire record stands in the clear record: the stored checksum in the
header, the sum over the substructures, and the fields of growth and attacks at their places in the
canonical order. -/
def Reads (wire clear : List UInt8) : Prop :=
  ∃ decoded, decodeMon wire = some decoded ∧
    decoded.pid = personality clear ∧ decoded.otid = trainerId clear ∧
    decoded.stored = field clear 28 30 ∧ decoded.calculated = checksum (secure clear) ∧
    decoded.species = field (secure clear) 0 2 ∧ decoded.heldItem = field (secure clear) 2 4 ∧
    decoded.exp = field (secure clear) 4 8 ∧
    decoded.moves = (List.range 4).map fun i => field (secure clear) (12 + 2 * i) (14 + 2 * i)

theorem field_chunk (h : stop ≤ width) :
    field (Chunks.chunk width i xs) start stop =
      field xs (i * width + start) (i * width + stop) := by
  have hslice : slice (Chunks.chunk width i xs) start stop =
      slice xs (i * width + start) (i * width + stop) := by
    unfold slice Chunks.chunk
    rw [List.take_take, Nat.min_eq_left h, List.take_drop, List.drop_drop]
  unfold field
  rw [hslice]

/-- A substructure of the decrypted record is the one that the order of the personality names. -/
theorem chunk_secure_toDecrypted (h : 80 ≤ w.length) {ci : Nat} (hci : ci < 4) :
    Chunks.chunk 12 ci (secure (toDecrypted w)) =
      Chunks.chunk 12 (placeOf (orderOf (personality w)) ci)
        (Chunks.mapped 4 12 (xorWord (key w)) (secure w)) := by
  rw [toDecrypted_eq h, secure_withSecure h (length_canon h),
    Chunks.chunk_permuted (orderOf_names (personality w)).placeOf_lt
      (length_xorred (length_secure h)) hci]

theorem field_substruct (h : 80 ≤ w.length) {ci : Nat} (hci : ci < 4) (hstop : stop ≤ 12) :
    field (Chunks.chunk 12 (placeOf (orderOf (personality w)) ci)
      (Chunks.mapped 4 12 (xorWord (key w)) (secure w))) start stop =
      field (secure (toDecrypted w)) (ci * 12 + start) (ci * 12 + stop) := by
  rw [← chunk_secure_toDecrypted h hci, field_chunk hstop]

theorem reads_toDecrypted (h : 80 ≤ w.length) : Reads w (toDecrypted w) := by
  have hnames := orderOf_names (personality w)
  have hxor := length_xorred (k := key w) (length_secure h)
  have hheader : ∀ start stop, stop ≤ 32 →
      field w start stop = field (toDecrypted w) start stop := by
    intro start stop hstop
    rw [toDecrypted_eq h, field_withSecure h hstop]
  have hsum : checksum (Chunks.mapped 4 12 (xorWord (key w)) (secure w)) =
      checksum (secure (toDecrypted w)) := by
    rw [toDecrypted_eq h, secure_withSecure h (length_canon h), checksum_permuted hnames hxor]
  -- growth stands first in the canonical order, attacks second
  have hgrowth := fun start stop => @field_substruct w start stop h 0 (by decide)
  have hattacks := fun start stop => @field_substruct w start stop h 1 (by decide)
  have hdecoded : ∃ decoded, decodeMon w = some decoded := by
    unfold decodeMon
    rw [if_neg (by omega)]
    exact ⟨_, rfl⟩
  obtain ⟨decoded, hdecoded⟩ := hdecoded
  refine ⟨decoded, hdecoded, ?_⟩
  unfold decodeMon at hdecoded
  rw [if_neg (by omega)] at hdecoded
  cases hdecoded
  refine ⟨hheader 0 4 (by decide), hheader 4 8 (by decide), hheader 28 30 (by decide), hsum,
    (hgrowth 0 2 (by decide)).trans rfl, (hgrowth 2 4 (by decide)).trans rfl,
    (hgrowth 4 8 (by decide)).trans rfl, ?_⟩
  apply List.map_congr_left
  intro i hi
  have hlt := List.mem_range.mp hi
  have hmove := hattacks (2 * i) (2 * i + 2) (by omega)
  rw [show 14 + 2 * i = 1 * 12 + (2 * i + 2) by omega]
  exact hmove

theorem reads_toEncrypted (h : 80 ≤ d.length) : Reads (toEncrypted d) d := by
  have hlen : 80 ≤ (toEncrypted d).length := by rwa [length_toEncrypted h]
  have hreads := reads_toDecrypted hlen
  rwa [toDecrypted_toEncrypted h] at hreads

/-- For the records of either form. -/
theorem encryption_bijective (form : RecordForm) :
    Function.Bijective (@decrypt form) ∧ Function.Bijective (@encrypt form) ∧
    ∀ w : Record form,
      (encrypt (decrypt w) = w ∧ decrypt (encrypt w) = w) ∧
      (SameOutside w.1 (decrypt w).1 ∧ SameOutside w.1 (encrypt w).1) ∧
      (Reads w.1 (decrypt w).1 ∧ Reads (encrypt w).1 w.1) ∧
      checksum (secure (decrypt (encrypt w)).1) = checksum (secure w.1) := by
  refine ⟨?_, ?_, ?_⟩
  · exact Function.bijective_iff_has_inverse.mpr ⟨encrypt, encrypt_decrypt, decrypt_encrypt⟩
  · exact Function.bijective_iff_has_inverse.mpr ⟨decrypt, decrypt_encrypt, encrypt_decrypt⟩
  · intro w
    have hlen := w.boxed
    have hdecrypt : SameOutside w.1 (toDecrypted w.1) := by
      rw [toDecrypted_eq hlen]
      exact sameOutside_withSecure hlen (length_canon hlen)
    have hencrypt : SameOutside w.1 (toEncrypted w.1) := by
      rw [toEncrypted_eq hlen]
      exact sameOutside_withSecure hlen (length_shuffled hlen)
    refine ⟨⟨encrypt_decrypt w, decrypt_encrypt w⟩, ⟨hdecrypt, hencrypt⟩,
      ⟨reads_toDecrypted hlen, reads_toEncrypted hlen⟩, ?_⟩
    rw [decrypt_encrypt]

end SwitchTrade.Pk3

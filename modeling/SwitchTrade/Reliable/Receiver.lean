import SwitchTrade.Reliable.Link
import SwitchTrade.Transition.Serial

/-!
# What the receiver has

The receiver knows only serial numbers. `Reception` says which frames stand behind them:
every frame below `next` was received, and what is held ahead of it is exactly what was
received there. Both receive paths run the same loop over the contiguous run, one over the
buffered payloads (`deliver`) and one over the set of ids (`advance`). The bulk
acknowledgement that either path makes covers received frames only (`Describes`).
-/

namespace SwitchTrade.Reliable

open Transition

universe u v

variable {Time : Type u} {Payload : Type v}

/-- How far a channel may put a frame or an acknowledgement out of its order. -/
def reorder : Nat := 2 ^ 14

theorem seqLt_serial {start : BitVec 16} {m n : Nat} (hmn : m < n + 2 ^ 15)
    (hnm : n < m + 2 ^ 15) : seqLt (serial start m) (serial start n) = decide (m < n) := by
  rw [seqLt, decide_eq_decide]
  exact Serial.toNat_sub_lt_half hmn hnm

/-- The frames received, by number, against the ids a link holds. -/
structure Reception (start : BitVec 16) (received : List Nat) (held : BitVec 16 → Prop)
    (next : BitVec 16) (count : Nat) : Prop where
  next_eq : next = serial start count
  below : ∀ n < count, n ∈ received
  held_iff : ∀ seq, held seq ↔ ∃ n ∈ received, count ≤ n ∧ seq = serial start n
  near : ∀ n ∈ received, n < count + reorder

namespace Reception

variable {start : BitVec 16} {received : List Nat} {held held' : BitVec 16 → Prop}
  {next : BitVec 16} {count : Nat}

theorem number_eq (h : Reception start received held next count) {n : Nat}
    (hn : n ∈ received) (hc : count ≤ n) (hs : next = serial start n) : n = count := by
  have hnear := h.near n hn
  unfold reorder at hnear
  rw [h.next_eq] at hs
  exact (Serial.eq_of_serial_eq hs (by omega) (by omega)).symm

theorem held_next (h : Reception start received held next count) :
    held next ↔ count ∈ received := by
  rw [h.held_iff]
  constructor
  · rintro ⟨n, hn, hc, hs⟩
    rw [← h.number_eq hn hc hs]
    exact hn
  · intro hn
    exact ⟨count, hn, Nat.le_refl _, h.next_eq⟩

/-- One turn of either loop: the held frame at `next` is taken. -/
theorem turn (h : Reception start received held next count) (hheld : held next)
    (htake : ∀ seq, held' seq ↔ held seq ∧ seq ≠ next) :
    Reception start received held' (next + 1) (count + 1) where
  next_eq := by
    rw [h.next_eq]
    exact Serial.serial_succ
  below := by
    intro n hn
    by_cases hlt : n < count
    · exact h.below n hlt
    · have heq : n = count := by omega
      rw [heq]
      exact h.held_next.mp hheld
  held_iff := by
    intro seq
    rw [htake, h.held_iff]
    constructor
    · rintro ⟨⟨n, hn, hc, rfl⟩, hne⟩
      have hcount : n ≠ count := by
        rintro rfl
        exact hne h.next_eq.symm
      exact ⟨n, hn, by omega, rfl⟩
    · rintro ⟨n, hn, hc, rfl⟩
      refine ⟨⟨n, hn, by omega, rfl⟩, ?_⟩
      intro hs
      have := h.number_eq hn (by omega) hs.symm
      omega
  near := by
    intro n hn
    have := h.near n hn
    omega

/-! ## One frame arrives -/

/-- The frame at `next`, that was not received before. -/
theorem arrive_next (h : Reception start received held next count) (hnew : count ∉ received) :
    Reception start (count :: received) held (next + 1) (count + 1) where
  next_eq := by
    rw [h.next_eq]
    exact Serial.serial_succ
  below := by
    intro n hn
    by_cases hlt : n < count
    · exact List.mem_cons_of_mem _ (h.below n hlt)
    · have heq : n = count := by omega
      rw [heq]
      exact List.mem_cons_self
  held_iff := by
    intro seq
    rw [h.held_iff]
    constructor
    · rintro ⟨n, hn, hc, rfl⟩
      have hcount : n ≠ count := by
        rintro rfl
        exact hnew hn
      exact ⟨n, List.mem_cons_of_mem _ hn, by omega, rfl⟩
    · rintro ⟨n, hn, hc, rfl⟩
      rcases List.mem_cons.mp hn with rfl | hn
      · omega
      · exact ⟨n, hn, by omega, rfl⟩
  near := by
    intro n hn
    rcases List.mem_cons.mp hn with rfl | hn
    · unfold reorder
      omega
    · have := h.near n hn
      omega

/-- A frame ahead of the gap, that is held from now on. -/
theorem arrive_ahead (h : Reception start received held next count) {number : Nat}
    (hahead : count ≤ number) (hnear : number < count + reorder)
    (hadd : ∀ seq, held' seq ↔ held seq ∨ seq = serial start number) :
    Reception start (number :: received) held' next count where
  next_eq := h.next_eq
  below := fun n hn => List.mem_cons_of_mem _ (h.below n hn)
  held_iff := by
    intro seq
    rw [hadd, h.held_iff]
    constructor
    · rintro (⟨n, hn, hc, hs⟩ | hs)
      · exact ⟨n, List.mem_cons_of_mem _ hn, hc, hs⟩
      · exact ⟨number, List.mem_cons_self, hahead, hs⟩
    · rintro ⟨n, hn, hc, hs⟩
      rcases List.mem_cons.mp hn with rfl | hn
      · exact .inr hs
      · exact .inl ⟨n, hn, hc, hs⟩
  near := by
    intro n hn
    rcases List.mem_cons.mp hn with rfl | hn
    · exact hnear
    · exact h.near n hn

/-- A frame that was received before changes nothing. -/
theorem arrive_old (h : Reception start received held next count) {number : Nat}
    (hold : number < count) : Reception start (number :: received) held next count where
  next_eq := h.next_eq
  below := fun n hn => List.mem_cons_of_mem _ (h.below n hn)
  held_iff := by
    intro seq
    rw [h.held_iff]
    constructor
    · rintro ⟨n, hn, hc, hs⟩
      exact ⟨n, List.mem_cons_of_mem _ hn, hc, hs⟩
    · rintro ⟨n, hn, hc, hs⟩
      rcases List.mem_cons.mp hn with rfl | hn
      · omega
      · exact ⟨n, hn, hc, hs⟩
  near := by
    intro n hn
    rcases List.mem_cons.mp hn with rfl | hn
    · omega
    · exact h.near n hn

end Reception

/-! ## The live path -/

/-- The live path keeps the ids it is ahead by; the frame at `next` is missing. -/
def Live (start : BitVec 16) (received : List Nat) (link : ReliableLink Time Payload)
    (count : Nat) : Prop :=
  Reception start received (· ∈ link.recvOoo) link.recvNext count

namespace Live

variable {start : BitVec 16} {received : List Nat} {link : ReliableLink Time Payload}
  {count : Nat}

theorem advance {turns : Nat} (h : Live start received link count)
    (hturns : link.recvOoo.length ≤ turns) :
    ∃ count', count' ∉ received ∧ count ≤ count' ∧
      Live start received (ReliableLink.advance turns link) count' := by
  induction turns generalizing link count with
  | zero =>
    have hnil : link.recvOoo = [] := List.length_eq_zero_iff.mp (by omega)
    refine ⟨count, ?_, Nat.le_refl _, h⟩
    rw [← h.held_next, hnil]
    exact List.not_mem_nil
  | succ turns ih =>
    unfold ReliableLink.advance
    split
    · rename_i hmem
      have hless : (link.recvOoo.filter fun seq => seq ≠ link.recvNext).length <
          link.recvOoo.length :=
        List.length_filter_lt_length_iff_exists.mpr ⟨_, hmem, by simp⟩
      have hturn : Live start received
          { link with
            recvOoo := link.recvOoo.filter fun seq => seq ≠ link.recvNext
            recvNext := link.recvNext + 1 } (count + 1) := by
        apply Reception.turn h hmem
        intro seq
        show seq ∈ link.recvOoo.filter _ ↔ _
        rw [List.mem_filter]
        simp
      obtain ⟨count', hmissing, hle, hlive⟩ := ih hturn (by
        show (link.recvOoo.filter _).length ≤ turns
        omega)
      exact ⟨count', hmissing, by omega, hlive⟩
    · rename_i hmem
      refine ⟨count, ?_, Nat.le_refl _, h⟩
      rw [← h.held_next]
      exact hmem

theorem noteReceived {number : Nat} (h : Live start received link count)
    (hmissing : count ∉ received) (hlow : count < number + 2 ^ 15)
    (hhigh : number < count + reorder) :
    ∃ count', count' ∉ number :: received ∧ count ≤ count' ∧
      Live start (number :: received) (link.noteReceived (serial start number)) count' := by
  have hroom := hhigh
  unfold reorder at hroom
  have hnext : serial start number = link.recvNext ↔ number = count := by
    rw [h.next_eq]
    constructor
    · intro hs
      exact Serial.eq_of_serial_eq hs (by omega) (by omega)
    · rintro rfl
      rfl
  unfold ReliableLink.noteReceived
  by_cases heq : number = count
  · subst heq
    rw [if_pos (hnext.mpr rfl)]
    have harrive : Live start (number :: received)
        { link with recvNext := link.recvNext + 1 } (number + 1) := h.arrive_next hmissing
    obtain ⟨count', hnew, hle, hlive⟩ := harrive.advance (Nat.le_refl _)
    exact ⟨count', hnew, by omega, hlive⟩
  · rw [if_neg (fun hs => heq (hnext.mp hs))]
    have hstill : count ∉ number :: received := by
      intro hmem
      rcases List.mem_cons.mp hmem with rfl | hmem
      · exact heq rfl
      · exact hmissing hmem
    have hlt : seqLt link.recvNext (serial start number) = decide (count < number) := by
      rw [h.next_eq]
      exact seqLt_serial (by omega) (by omega)
    rw [hlt]
    by_cases hahead : count < number
    · rw [if_pos (by simpa using hahead)]
      refine ⟨count, hstill, Nat.le_refl _, h.arrive_ahead hahead.le hhigh ?_⟩
      intro seq
      show seq ∈ link.recvOoo.insert _ ↔ _
      rw [List.mem_insert_iff, or_comm]
    · rw [if_neg (by simpa using hahead)]
      exact ⟨count, hstill, Nat.le_refl _, h.arrive_old (by omega)⟩

end Live

/-! ## The path that delivers -/

/-- The other path keeps the payloads it is ahead by, each the one that was queued, and
has handed out the payloads below `next`. -/
structure Delivering (start : BitVec 16) (queued : List Payload) (received : List Nat)
    (link : ReliableLink Time Payload) (count : Nat) (out : List Payload) : Prop where
  reception : Reception start received (· ∈ link.recvBuf.keys) link.recvNext count
  buffered : ∀ n payload, n ∈ received → count ≤ n →
    link.recvBuf.get? (serial start n) = some payload → queued[n]? = some payload
  out_eq : out = queued.take count
  count_le : count ≤ queued.length
  unused : link.recvOoo = []

namespace Delivering

variable {start : BitVec 16} {queued : List Payload} {received : List Nat}
  {link : ReliableLink Time Payload} {count : Nat} {out done : List Payload}

/-- The next payload is handed out. -/
private theorem take_succ {payload : Payload} (hout : out = queued.take count)
    (hpayload : queued[count]? = some payload) : out ++ [payload] = queued.take (count + 1) := by
  rw [hout, List.take_add_one, hpayload]
  rfl

private theorem count_lt {payload : Payload} (hpayload : queued[count]? = some payload) :
    count + 1 ≤ queued.length := (List.getElem?_eq_some_iff.mp hpayload).1

theorem deliver {turns : Nat} (h : Delivering start queued received link count (done ++ out))
    (hturns : link.recvBuf.items.length ≤ turns) :
    ∃ count', count' ∉ received ∧ count ≤ count' ∧
      Delivering start queued received (ReliableLink.deliver turns link out).1 count'
        (done ++ (ReliableLink.deliver turns link out).2) := by
  induction turns generalizing link count out with
  | zero =>
    have hnil : link.recvBuf.items = [] := List.length_eq_zero_iff.mp (by omega)
    refine ⟨count, ?_, Nat.le_refl _, h⟩
    rw [← h.reception.held_next, Dict.keys, hnil]
    exact List.not_mem_nil
  | succ turns ih =>
    unfold ReliableLink.deliver
    split
    · rename_i payload hget
      have hmem : link.recvNext ∈ link.recvBuf.keys :=
        Dict.get?_isSome.mp (by rw [hget]; rfl)
      have hcount := h.reception.held_next.mp hmem
      have hless := Dict.length_erase_lt hget
      have hat := hget
      rw [h.reception.next_eq] at hat
      have hpayload := h.buffered count payload hcount (Nat.le_refl _) hat
      have hturn : Delivering start queued received
          { link with
            recvBuf := link.recvBuf.erase link.recvNext
            recvNext := link.recvNext + 1 } (count + 1) (done ++ (out ++ [payload])) := by
        refine ⟨h.reception.turn hmem ?_, ?_, ?_, count_lt hpayload, h.unused⟩
        · intro seq
          rw [← Dict.get?_isSome, ← Dict.get?_isSome]
          by_cases hs : seq = link.recvNext
          · subst hs
            rw [Dict.get?_erase_self]
            simp
          · rw [Dict.get?_erase_of_ne _ hs]
            simp [hs]
        · intro n p hn hc hgetn
          have hne : serial start n ≠ link.recvNext := by
            intro hs
            have := h.reception.number_eq hn (by omega) hs.symm
            omega
          rw [Dict.get?_erase_of_ne _ hne] at hgetn
          exact h.buffered n p hn (by omega) hgetn
        · rw [← List.append_assoc]
          exact take_succ h.out_eq hpayload
      obtain ⟨count', hmissing, hle, hdel⟩ := ih hturn (by
        show (link.recvBuf.erase _).items.length ≤ turns
        omega)
      exact ⟨count', hmissing, by omega, hdel⟩
    · rename_i hnone
      refine ⟨count, ?_, Nat.le_refl _, h⟩
      rw [← h.reception.held_next, ← Dict.get?_isSome, hnone]
      simp

theorem onData {number : Nat} {payload : Payload}
    (h : Delivering start queued received link count out) (hmissing : count ∉ received)
    (hpayload : queued[number]? = some payload) (hlow : count < number + 2 ^ 15)
    (hhigh : number < count + reorder) :
    ∃ count', count' ∉ number :: received ∧ count ≤ count' ∧
      Delivering start queued (number :: received) (link.onData (serial start number) payload).1
        count' (out ++ (link.onData (serial start number) payload).2) := by
  have hroom := hhigh
  unfold reorder at hroom
  have hnext : serial start number = link.recvNext ↔ number = count := by
    rw [h.reception.next_eq]
    constructor
    · intro hs
      exact Serial.eq_of_serial_eq hs (by omega) (by omega)
    · rintro rfl
      rfl
  unfold ReliableLink.onData
  by_cases heq : number = count
  · subst heq
    rw [if_pos (hnext.mpr rfl)]
    have harrive : Delivering start queued (number :: received)
        { link with recvNext := link.recvNext + 1 } (number + 1) (out ++ [payload]) := by
      refine ⟨h.reception.arrive_next hmissing, ?_, take_succ h.out_eq hpayload,
        count_lt hpayload, h.unused⟩
      intro n p hn hc hget
      rcases List.mem_cons.mp hn with rfl | hn
      · omega
      · exact h.buffered n p hn (by omega) hget
    obtain ⟨count', hnew, hle, hdel⟩ := harrive.deliver (Nat.le_refl _)
    exact ⟨count', hnew, by omega, hdel⟩
  · rw [if_neg (fun hs => heq (hnext.mp hs))]
    have hstill : count ∉ number :: received := by
      intro hmem
      rcases List.mem_cons.mp hmem with rfl | hmem
      · exact heq rfl
      · exact hmissing hmem
    have hlt : seqLt link.recvNext (serial start number) = decide (count < number) := by
      rw [h.reception.next_eq]
      exact seqLt_serial (by omega) (by omega)
    rw [hlt]
    by_cases hahead : count < number
    · rw [if_pos (by simpa using hahead)]
      refine ⟨count, hstill, Nat.le_refl _, h.reception.arrive_ahead hahead.le hhigh ?_, ?_,
        (List.append_nil out).trans h.out_eq, h.count_le, h.unused⟩
      · intro seq
        show seq ∈ (link.recvBuf.set _ _).keys ↔ _
        rw [← Dict.get?_isSome, ← Dict.get?_isSome]
        by_cases hs : seq = serial start number
        · subst hs
          rw [Dict.get?_set_self]
          simp
        · rw [Dict.get?_set_of_ne _ _ hs]
          simp [hs]
      · intro n p hn hc hget
        change (link.recvBuf.set _ _).get? _ = _ at hget
        by_cases hs : n = number
        · subst hs
          rw [Dict.get?_set_self] at hget
          cases hget
          exact hpayload
        · have hold : n ∈ received := by
            rcases List.mem_cons.mp hn with hs' | hn
            · exact absurd hs' hs
            · exact hn
          have hnear := h.reception.near n hold
          unfold reorder at hnear
          have hne : serial start n ≠ serial start number := by
            intro hsame
            exact hs (Serial.eq_of_serial_eq hsame (by omega) (by omega))
          rw [Dict.get?_set_of_ne _ _ hne] at hget
          exact h.buffered n p hold hc hget
    · rw [if_neg (by simpa using hahead)]
      refine ⟨count, hstill, Nat.le_refl _, h.reception.arrive_old (by omega), ?_,
        (List.append_nil out).trans h.out_eq, h.count_le, h.unused⟩
      intro n p hn hc hget
      rcases List.mem_cons.mp hn with rfl | hn
      · omega
      · exact h.buffered n p hn hc hget

end Delivering

/-! ## The acknowledgement -/

theorem parseBulkAck_build (next : BitVec 16) (mask : List UInt8) (streamId : UInt8)
    (hmask : mask.length = 16) :
    parseBulkAck (buildBulkAck next mask streamId) = (some next, mask) := by
  have hlt : next.toNat < 2 ^ 16 := next.isLt
  have hhi : (UInt8.ofNat (next.toNat / 256)).toNat = next.toNat / 256 := by
    rw [UInt8.toNat_ofNat', Nat.mod_eq_of_lt]
    omega
  have hlo : (UInt8.ofNat (next.toNat % 256)).toNat = next.toNat % 256 := by
    rw [UInt8.toNat_ofNat', Nat.mod_eq_of_lt]
    omega
  have hnumber : 256 * (next.toNat / 256) + next.toNat % 256 = next.toNat := by omega
  have htake : mask.take 16 = mask := List.take_of_length_le (by omega)
  show (some (BitVec.ofNat 16 (256 * (UInt8.ofNat (next.toNat / 256)).toNat +
    (UInt8.ofNat (next.toNat % 256)).toNat)), ljust (mask.take 16)) = _
  rw [hhi, hlo, hnumber, htake, ljust, hmask, BitVec.ofNat_toNat, BitVec.setWidth_eq]
  simp

/-- An acknowledgement that covers the frames below `count` and, in its mask, some frames
above it; all of them were received. -/
def Describes (start : BitVec 16) (received : List Nat) (payload : List UInt8) (count : Nat) :
    Prop :=
  ∃ mask, parseBulkAck payload = (some (serial start count), mask) ∧
    (∀ n < count, n ∈ received) ∧
    ∀ i, (fromBytes mask).testBit i → count + 1 + i ∈ received

theorem Describes.mono {start : BitVec 16} {received received' : List Nat} {payload : List UInt8}
    {count : Nat} (h : Describes start received payload count) (hsub : received ⊆ received') :
    Describes start received' payload count := by
  obtain ⟨mask, hparse, hbelow, hbits⟩ := h
  exact ⟨mask, hparse, fun n hn => hsub (hbelow n hn), fun i hi => hsub (hbits i hi)⟩

/-- A frame near the acknowledged count that the acknowledgement covers was received. -/
theorem received_of_covers {start : BitVec 16} {received : List Nat} {mask : List UInt8}
    {count n : Nat} (hbelow : ∀ n < count, n ∈ received)
    (hbits : ∀ i, (fromBytes mask).testBit i → count + 1 + i ∈ received)
    (hlow : n < count + 2 ^ 15) (hhigh : count < n + 2 ^ 15)
    (hc : ReliableLink.covers (serial start count) (fromBytes mask) (serial start n)) :
    n ∈ received ∧ n < count + 129 := by
  rw [ReliableLink.covers, seqLt_serial hlow hhigh, Bool.or_eq_true] at hc
  rcases hc with hlt | hmask
  · have hlt : n < count := by simpa using hlt
    exact ⟨hbelow n hlt, by omega⟩
  · rw [Serial.serial_sub_sub_one] at hmask
    simp only [Bool.and_eq_true, decide_eq_true_eq] at hmask
    obtain ⟨-, hsmall, hbit⟩ := hmask
    by_cases hn : count + 1 ≤ n
    · rw [Serial.toNat_sub hn (by omega)] at hsmall hbit
      have hmem := hbits _ hbit
      have hnumber : count + 1 + (n - (count + 1)) = n := by omega
      rw [hnumber] at hmem
      exact ⟨hmem, by omega⟩
    · rw [Serial.toNat_sub_of_lt (by omega) (by omega)] at hsmall
      omega

/-- The acknowledgement of a receiver that holds some of the received ids in its set. -/
theorem ackPayload_describes {start : BitVec 16} {received : List Nat}
    {held : BitVec 16 → Prop} {link : ReliableLink Time Payload} {count : Nat}
    (h : Reception start received held link.recvNext count) (hmissing : count ∉ received)
    (hooo : ∀ seq ∈ link.recvOoo, held seq) :
    Describes start received link.ackPayload count := by
  have hlt : ∀ i ∈ link.maskBits, i < 8 * (List.replicate 16 (0 : UInt8)).length := by
    intro i hi
    have hi := (List.mem_filter.mp hi).2
    rw [List.length_replicate]
    simpa using hi
  have hlen : (link.maskBits.foldl setBit (List.replicate 16 0)).length = 16 := by
    rw [Bitmap.length_foldl_setBit, List.length_replicate]
  refine ⟨link.maskBits.foldl setBit (List.replicate 16 0), ?_, h.below, ?_⟩
  · rw [ReliableLink.ackPayload, parseBulkAck_build _ _ _ hlen, h.next_eq]
  · intro i hi
    rw [Bitmap.testBit_foldl_setBit hlt, Bitmap.fromBytes_replicate_zero, Nat.zero_testBit,
      Bool.false_or, decide_eq_true_eq] at hi
    obtain ⟨seq, hseq, hi⟩ := List.mem_map.mp (List.mem_filter.mp hi).1
    obtain ⟨n, hn, hc, rfl⟩ := (h.held_iff seq).mp (hooo seq hseq)
    have hnear := h.near n hn
    unfold reorder at hnear
    have hne : n ≠ count := by
      rintro rfl
      exact hmissing hn
    rw [h.next_eq, Serial.serial_sub_sub_one, Serial.toNat_sub (by omega) (by omega)] at hi
    have hnumber : count + 1 + i = n := by omega
    rw [hnumber]
    exact hn

end SwitchTrade.Reliable

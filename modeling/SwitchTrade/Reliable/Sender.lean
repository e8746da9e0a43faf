import SwitchTrade.Reliable.Link
import SwitchTrade.Transition.Serial

/-!
# The send window

The sender counts its frames from 0 in the order they were queued. `Window` says which of
them a link holds: the frames from `base` on, in their order, each under its serial number
with the payload that was queued. A frame that is marked, and every frame below the base,
is one of which `known` holds. Queueing, acknowledging and sending again keep the window;
an acknowledgement moves its base up (`Window.onAck`).
-/

namespace SwitchTrade.Reliable

open Transition

universe u v

variable {Time : Type u} {Payload : Type v}

/-- The window of a link that has queued the payloads `queued`. -/
structure Window (start : BitVec 16) (queued : List Payload) (known : Nat → Prop)
    (link : ReliableLink Time Payload) (base : Nat) : Prop where
  base_le : base ≤ queued.length
  width : queued.length ≤ base + maxInflight
  outSeq : link.outSeq = serial start queued.length
  windowLo : link.windowLo = serial start base
  keys : link.unacked.keys = (List.range' base (queued.length - base)).map (serial start)
  inner : ∀ n entry, base ≤ n → n < queued.length →
    link.unacked.get? (serial start n) = some entry → queued[n]? = some entry.inner
  marked : ∀ n entry, base ≤ n → n < queued.length →
    link.unacked.get? (serial start n) = some entry → entry.acked → known n
  freed : ∀ n < base, known n

namespace Window

variable {start : BitVec 16} {queued : List Payload} {known : Nat → Prop}
  {link : ReliableLink Time Payload} {base : Nat}

theorem inflight_eq (h : Window start queued known link base) :
    link.inflight = queued.length - base := by
  have hlen := congrArg List.length h.keys
  rw [Dict.keys, List.length_map, List.length_map, List.length_range'] at hlen
  exact hlen

/-- Two frames of the window, or one of it and the next to be queued, have different ids. -/
theorem number_inj (h : Window start queued known link base) {m n : Nat} (hm : base ≤ m)
    (hmN : m ≤ queued.length) (hn : base ≤ n) (hnN : n ≤ queued.length)
    (hs : serial start m = serial start n) : m = n := by
  have hw := h.width
  unfold maxInflight at hw
  exact Serial.eq_of_serial_eq hs (by omega) (by omega)

theorem mem_keys (h : Window start queued known link base) {seq : BitVec 16} :
    seq ∈ link.unacked.keys ↔ ∃ n, base ≤ n ∧ n < queued.length ∧ seq = serial start n := by
  rw [h.keys, List.mem_map]
  constructor
  · rintro ⟨n, hn, rfl⟩
    rw [List.mem_range'_1] at hn
    have := h.base_le
    exact ⟨n, hn.1, by omega, rfl⟩
  · rintro ⟨n, hb, hN, rfl⟩
    refine ⟨n, ?_, rfl⟩
    rw [List.mem_range'_1]
    omega

/-- What is found under an id is the frame of that number. -/
theorem of_get? (h : Window start queued known link base) {seq : BitVec 16}
    {entry : Entry Time Payload} (hget : link.unacked.get? seq = some entry) :
    ∃ n, base ≤ n ∧ n < queued.length ∧ seq = serial start n ∧ queued[n]? = some entry.inner := by
  have hmem : seq ∈ link.unacked.keys := Dict.get?_isSome.mp (by rw [hget]; rfl)
  obtain ⟨n, hb, hN, rfl⟩ := h.mem_keys.mp hmem
  exact ⟨n, hb, hN, rfl, h.inner n entry hb hN hget⟩

/-- The window depends on the send side of the link only. -/
theorem congr (h : Window start queued known link base) {other : ReliableLink Time Payload}
    (hout : other.outSeq = link.outSeq) (hlo : other.windowLo = link.windowLo)
    (hun : other.unacked = link.unacked) : Window start queued known other base where
  base_le := h.base_le
  width := h.width
  outSeq := hout ▸ h.outSeq
  windowLo := hlo ▸ h.windowLo
  keys := hun ▸ h.keys
  inner := hun ▸ h.inner
  marked := hun ▸ h.marked
  freed := h.freed

theorem mono (h : Window start queued known link base) {known' : Nat → Prop}
    (hk : ∀ n < queued.length, known n → known' n) : Window start queued known' link base :=
  { h with
    marked := fun n entry hb hN hget ha => hk n hN (h.marked n entry hb hN hget ha)
    freed := fun n hn => hk n (by have := h.base_le; omega) (h.freed n hn) }

theorem new (start : BitVec 16) (known : Nat → Prop) (knobs : Knobs Time) :
    Window start [] known (ReliableLink.new start knobs : ReliableLink Time Payload) 0 where
  base_le := Nat.le_refl 0
  width := Nat.zero_le _
  outSeq := Serial.serial_zero.symm
  windowLo := Serial.serial_zero.symm
  keys := rfl
  inner := fun _ _ _ hn => absurd hn (Nat.not_lt_zero _)
  marked := fun _ _ _ hn => absurd hn (Nat.not_lt_zero _)
  freed := fun _ hn => absurd hn (Nat.not_lt_zero _)

/-! ## Queueing -/

/-- The next id is free: the window with it is not wider than the id space. -/
theorem outSeq_ne (h : Window start queued known link base) {n : Nat} (hb : base ≤ n)
    (hN : n < queued.length) : serial start n ≠ link.outSeq := by
  intro hs
  rw [h.outSeq] at hs
  have := h.number_inj hb hN.le h.base_le (Nat.le_refl _) hs
  omega

theorem get?_outSeq (h : Window start queued known link base) :
    link.unacked.get? link.outSeq = none := by
  rw [← Option.not_isSome_iff_eq_none, Dict.get?_isSome, h.mem_keys]
  rintro ⟨n, hb, hN, hs⟩
  exact h.outSeq_ne hb hN hs.symm

theorem get?_queue (h : Window start queued known link base) {inner : Payload} {flags : UInt8}
    {now : Time} {n : Nat} {entry : Entry Time Payload} (hb : base ≤ n)
    (hN : n < queued.length + 1)
    (hget : (link.queue inner flags now).1.unacked.get? (serial start n) = some entry) :
    n = queued.length ∧ entry = ⟨flags, inner, now, 0, false⟩ ∨
      n < queued.length ∧ link.unacked.get? (serial start n) = some entry := by
  change (link.unacked.set link.outSeq ⟨flags, inner, now, 0, false⟩).get? _ = _ at hget
  by_cases hn : n = queued.length
  · subst hn
    rw [← h.outSeq, Dict.get?_set_self] at hget
    cases hget
    exact .inl ⟨rfl, rfl⟩
  · have hold : n < queued.length := by omega
    rw [Dict.get?_set_of_ne _ _ (h.outSeq_ne hb hold)] at hget
    exact .inr ⟨hold, hget⟩

theorem queue (h : Window start queued known link base) (inner : Payload) (flags : UInt8)
    (now : Time) (hroom : link.inflight < Reliable.maxInflight) :
    Window start (queued ++ [inner]) known (link.queue inner flags now).1 base := by
  rw [h.inflight_eq] at hroom
  have hle := h.base_le
  have hlen : (queued ++ [inner]).length = queued.length + 1 := List.length_append
  refine ⟨by omega, by omega, ?_, h.windowLo, ?_, ?_, ?_, h.freed⟩
  · show link.outSeq + 1 = _
    rw [h.outSeq, hlen]
    exact Serial.serial_succ
  · show (link.unacked.set _ _).keys = _
    have hcount : queued.length + 1 - base = queued.length - base + 1 := by omega
    have hlast : base + 1 * (queued.length - base) = queued.length := by omega
    rw [Dict.keys_set_of_none h.get?_outSeq, h.keys, h.outSeq, hlen, hcount, List.range'_concat,
      List.map_append, hlast]
    rfl
  · intro n entry hb hN hget
    rw [hlen] at hN
    rcases h.get?_queue hb hN hget with ⟨rfl, rfl⟩ | ⟨hold, hget⟩
    · simp
    · rw [List.getElem?_append_left hold]
      exact h.inner n entry hb hold hget
  · intro n entry hb hN hget ha
    rw [hlen] at hN
    rcases h.get?_queue hb hN hget with ⟨rfl, rfl⟩ | ⟨hold, hget⟩
    · exact absurd ha (by simp)
    · exact h.marked n entry hb hold hget ha

/-! ## Acknowledgements -/

/-- Every entry the acknowledgement covers is marked. -/
theorem mapValues_mark (h : Window start queued known link base) {ackId : BitVec 16}
    {mask : Nat} (hcovers : ∀ n, base ≤ n → n < queued.length →
      ReliableLink.covers ackId mask (serial start n) → known n) :
    Window start queued known
      { link with unacked := link.unacked.mapValues (ReliableLink.mark ackId mask) } base where
  base_le := h.base_le
  width := h.width
  outSeq := h.outSeq
  windowLo := h.windowLo
  keys := (Dict.keys_mapValues _ _).trans h.keys
  inner := by
    intro n entry hb hN hget
    rw [Dict.get?_mapValues, Option.map_eq_some_iff] at hget
    obtain ⟨old, hold, rfl⟩ := hget
    rw [h.inner n old hb hN hold, ReliableLink.mark]
    split <;> rfl
  marked := by
    intro n entry hb hN hget ha
    rw [Dict.get?_mapValues, Option.map_eq_some_iff] at hget
    obtain ⟨old, hold, rfl⟩ := hget
    rw [ReliableLink.mark] at ha
    split at ha
    · rename_i hc
      exact hcovers n hb hN hc
    · exact h.marked n old hb hN hold ha
  freed := h.freed

/-- Freeing the acknowledged frame at the base. -/
theorem erase (h : Window start queued known link base) {entry : Entry Time Payload}
    (hget : link.unacked.get? link.windowLo = some entry) (ha : entry.acked) :
    Window start queued known
      { link with
        unacked := link.unacked.erase link.windowLo
        windowLo := link.windowLo + 1 } (base + 1) := by
  have hw := h.width
  obtain ⟨n, hb, hN, hs, -⟩ := h.of_get? hget
  have hlt : base < queued.length := by omega
  have hcount : queued.length - base = queued.length - (base + 1) + 1 := by omega
  have hkeys : link.unacked.keys = link.windowLo ::
      (List.range' (base + 1) (queued.length - (base + 1))).map (serial start) := by
    rw [h.keys, hcount, List.range'_succ, List.map_cons, h.windowLo]
  have hne : ∀ m, base + 1 ≤ m → m < queued.length → serial start m ≠ link.windowLo := by
    intro m hm hmN heq
    rw [h.windowLo] at heq
    have := h.number_inj (by omega) hmN.le (Nat.le_refl _) hlt.le heq
    omega
  refine ⟨hlt, by omega, h.outSeq, ?_, Dict.keys_erase_of_head hkeys, ?_, ?_, ?_⟩
  · show link.windowLo + 1 = _
    rw [h.windowLo]
    exact Serial.serial_succ
  · intro m e hm hmN hgetm
    rw [Dict.get?_erase_of_ne _ (hne m hm hmN)] at hgetm
    exact h.inner m e (by omega) hmN hgetm
  · intro m e hm hmN hgetm hae
    rw [Dict.get?_erase_of_ne _ (hne m hm hmN)] at hgetm
    exact h.marked m e (by omega) hmN hgetm hae
  · intro m hm
    by_cases hmb : m < base
    · exact h.freed m hmb
    · have hmeq : m = base := by omega
      subst hmeq
      rw [h.windowLo] at hget
      exact h.marked m entry (Nat.le_refl _) hlt hget ha

theorem free (turns : Nat) (h : Window start queued known link base) :
    ∃ base', base ≤ base' ∧ Window start queued known (ReliableLink.free turns link) base' := by
  induction turns generalizing link base with
  | zero => exact ⟨base, Nat.le_refl _, h⟩
  | succ turns ih =>
    unfold ReliableLink.free
    split
    · rename_i entry hget
      split
      · rename_i ha
        obtain ⟨base', hle, hwin⟩ := ih (h.erase hget ha)
        exact ⟨base', by omega, hwin⟩
      · exact ⟨base, Nat.le_refl _, h⟩
    · exact ⟨base, Nat.le_refl _, h⟩

theorem trackGap (h : Window start queued known link base) (ackId : BitVec 16) (mask : Nat) :
    Window start queued known (link.trackGap ackId mask) base := by
  unfold ReliableLink.trackGap
  split
  · split
    · split
      · exact h.congr rfl rfl rfl
      · exact h.congr rfl rfl rfl
    · exact h.congr rfl rfl rfl
  · exact h.congr rfl rfl rfl

/-- An acknowledgement that covers only known frames of the window keeps the window, from
a base that is at least as high. -/
theorem onAck [Clock Time] (h : Window start queued known link base) {ackId : BitVec 16}
    {mask : List UInt8} (now : Option Time) (hcovers : ∀ n, base ≤ n → n < queued.length →
      ReliableLink.covers ackId (fromBytes mask) (serial start n) → known n) :
    ∃ base', base ≤ base' ∧
      Window start queued known (link.onAck (some ackId) mask now) base' := by
  have hmark : Window start queued known
      { link with
        rtt := link.unacked.items.foldl (ReliableLink.sample ackId (fromBytes mask) now) link.rtt
        unacked := link.unacked.mapValues (ReliableLink.mark ackId (fromBytes mask)) } base :=
    (h.mapValues_mark hcovers).congr rfl rfl rfl
  obtain ⟨base', hle, hfree⟩ := hmark.free (link.unacked.mapValues _).items.length
  exact ⟨base', hle, hfree.trackGap ackId (fromBytes mask)⟩

/-! ## Sending again -/

/-- A stamp changes neither the payload nor the mark. -/
theorem set_stamp (h : Window start queued known link base) {seq : BitVec 16}
    {entry stamped : Entry Time Payload} (hget : link.unacked.get? seq = some entry)
    (hinner : stamped.inner = entry.inner) (hacked : stamped.acked = entry.acked) :
    Window start queued known { link with unacked := link.unacked.set seq stamped } base where
  base_le := h.base_le
  width := h.width
  outSeq := h.outSeq
  windowLo := h.windowLo
  keys := (Dict.keys_set_of_some hget).trans h.keys
  inner := by
    intro n e hb hN hgetn
    by_cases hs : serial start n = seq
    · subst hs
      rw [Dict.get?_set_self] at hgetn
      cases hgetn
      rw [h.inner n entry hb hN hget, hinner]
    · rw [Dict.get?_set_of_ne _ _ hs] at hgetn
      exact h.inner n e hb hN hgetn
  marked := by
    intro n e hb hN hgetn ha
    by_cases hs : serial start n = seq
    · subst hs
      rw [Dict.get?_set_self] at hgetn
      cases hgetn
      exact h.marked n entry hb hN hget (hacked ▸ ha)
    · rw [Dict.get?_set_of_ne _ _ hs] at hgetn
      exact h.marked n e hb hN hgetn ha
  freed := h.freed

end Window

/-! ## What is sent again -/

namespace ReliableLink

variable [Clock Time]

/-- A frame to be sent again is the frame of an entry that is not acknowledged. -/
def Unmarked (link : ReliableLink Time Payload) (frame : BitVec 16 × UInt8 × Payload) : Prop :=
  ∃ entry, link.unacked.get? frame.1 = some entry ∧ entry.acked = false ∧
    frame.2 = (entry.flags, entry.inner)

/-- The loop returns frames of unmarked entries only and stamps what it returns. -/
theorem resend_spec {P : ReliableLink Time Payload → Prop} {baseRto : Option Time} {now : Time}
    {limit : Option Int} {source : ReliableLink Time Payload}
    (hstamp : ∀ (link : ReliableLink Time Payload) seq entry resends, P link →
      link.unacked.get? seq = some entry →
      P { link with
          unacked := link.unacked.set seq { entry with lastTx := now, resends := resends } })
    {rest : List (BitVec 16 × Entry Time Payload)} {link : ReliableLink Time Payload}
    {out : List (BitVec 16 × UInt8 × Payload)} (hlink : P link)
    (hkeys : (rest.map Prod.fst).Nodup)
    (hrest : ∀ item ∈ rest, link.unacked.get? item.1 = some item.2 ∧
      source.unacked.get? item.1 = some item.2)
    (hout : ∀ frame ∈ out, source.Unmarked frame) :
    P (resend baseRto now limit link out rest).1 ∧
      ∀ frame ∈ (resend baseRto now limit link out rest).2, source.Unmarked frame := by
  induction rest generalizing link out with
  | nil => exact ⟨hlink, hout⟩
  | cons item rest ih =>
    obtain ⟨seq, entry⟩ := item
    obtain ⟨hget, hsource⟩ := hrest _ List.mem_cons_self
    rw [List.map_cons, List.nodup_cons] at hkeys
    have hlater : ∀ item ∈ rest, link.unacked.get? item.1 = some item.2 ∧
        source.unacked.get? item.1 = some item.2 :=
      fun item hitem => hrest item (List.mem_cons_of_mem _ hitem)
    unfold resend
    by_cases hacked : entry.acked
    · rw [if_pos hacked]
      exact ih hlink hkeys.2 hlater hout
    rw [if_neg hacked]
    by_cases hdue : link.due baseRto now seq entry
    · rw [if_pos hdue]
      have hlink' := hstamp link seq entry (entry.resends + 1) hlink hget
      have hout' : ∀ frame ∈ out ++ [(seq, entry.flags, entry.inner)], source.Unmarked frame := by
        intro frame hframe
        rcases List.mem_append.mp hframe with hframe | hframe
        · exact hout frame hframe
        · rw [List.mem_singleton.mp hframe]
          exact ⟨entry, hsource, by simpa using hacked, rfl⟩
      show P (ite _ _ _ : _ × _).1 ∧ ∀ frame ∈ (ite _ _ _ : _ × _).2, _
      split
      · exact ⟨hlink', hout'⟩
      · apply ih hlink' hkeys.2 _ hout'
        intro item hitem
        have hne : item.1 ≠ seq := by
          intro heq
          have hmem : item.1 ∈ rest.map Prod.fst := List.mem_map_of_mem hitem
          rw [heq] at hmem
          exact hkeys.1 hmem
        refine ⟨?_, (hlater item hitem).2⟩
        show (link.unacked.set seq _).get? item.1 = _
        rw [Dict.get?_set_of_ne _ _ hne]
        exact (hlater item hitem).1
    · rw [if_neg hdue]
      split
      · exact ⟨hlink, hout⟩
      · exact ih hlink hkeys.2 hlater hout

theorem dueRetransmits_spec {P : ReliableLink Time Payload → Prop}
    {link : ReliableLink Time Payload} {now : Time} {limit : Option Int}
    (hstamp : ∀ (link : ReliableLink Time Payload) seq entry resends, P link →
      link.unacked.get? seq = some entry →
      P { link with
          unacked := link.unacked.set seq { entry with lastTx := now, resends := resends } })
    (hlink : P link) :
    P (link.dueRetransmits now limit).1 ∧
      ∀ frame ∈ (link.dueRetransmits now limit).2, link.Unmarked frame := by
  have hperm := List.perm_insertionSort
    (fun a b : BitVec 16 × Entry Time Payload =>
      (a.1 - link.windowLo).toNat ≤ (b.1 - link.windowLo).toNat) link.unacked.items
  apply resend_spec hstamp hlink
  · exact (hperm.map Prod.fst).nodup_iff.mpr link.unacked.nodup
  · intro item hitem
    have hget := Dict.get?_eq_some.mpr (hperm.mem_iff.mp hitem)
    exact ⟨hget, hget⟩
  · intro frame hframe
    cases hframe

end ReliableLink

theorem Window.dueRetransmits [Clock Time] {start : BitVec 16} {queued : List Payload}
    {known : Nat → Prop} {link : ReliableLink Time Payload} {base : Nat}
    (h : Window start queued known link base) (now : Time) (limit : Option Int) :
    Window start queued known (link.dueRetransmits now limit).1 base :=
  (ReliableLink.dueRetransmits_spec (P := fun link => Window start queued known link base)
    (fun _ _ _ _ hw hget => hw.set_stamp hget rfl rfl) h).1

end SwitchTrade.Reliable

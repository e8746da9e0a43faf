import SwitchTrade.Reliable.Sender
import SwitchTrade.Reliable.Receiver
import SwitchTrade.Transition.Run
import Mathlib.Algebra.Ring.Int.Defs
import Mathlib.Data.List.Perm.Subperm

/-!
# Selective repeat over a lossy channel

One link sends, another receives, and what is between them may lose, repeat and reorder
both the data frames and the bulk acknowledgements. Nothing leaves the two channels: a
frame that never arrives is lost, one that arrives twice is repeated. `Channel` is the only
limit on the order: a frame or an acknowledgement does not arrive after one that is
`reorder` or more sequence numbers ahead of it.

The numbers of frames and acknowledgements count from the start of the stream. They are
kept beside what is sent, to say what the serial numbers stand for; no code reads them.
-/

namespace SwitchTrade.Reliable

open Transition

universe u v

variable {Time : Type u} {Payload : Type v}

/-- Whether the receiver hands the payloads out in order (`on_data`) or only accounts for
them (`note_received`). -/
inductive Mode where
  | delivery
  | live
  deriving DecidableEq

/-- A data frame under way. -/
structure Frame (Payload : Type v) where
  number : Nat
  seq : BitVec 16
  inner : Payload

/-- A bulk acknowledgement under way, made when `through` frames were received in a row. -/
structure Ack where
  through : Nat
  payload : List UInt8

structure World (Time : Type u) (Payload : Type v) where
  near : ReliableLink Time Payload
  far : ReliableLink Time Payload
  queued : List Payload
  frames : List (Frame Payload)
  acks : List Ack
  received : List Nat
  heard : List Nat
  delivered : List Payload

inductive Label (Time : Type u) (Payload : Type v) where
  | queue (inner : Payload) (flags : UInt8) (now : Time)
  | resend (now : Time) (limit : Option Int)
  | arrive (i : Nat)
  | acknowledge
  | hear (i : Nat) (now : Option Time)

/-- The number of the first frame that was not received. -/
def firstMissing (received : List Nat) : Nat :=
  ((List.range (received.length + 1)).find? fun n => n ∉ received).getD 0

namespace World

variable (w : World Time Payload)

/-- The number of the frame whose id is `seq`, counted back from the next to be queued. -/
def number (seq : BitVec 16) : Nat := w.queued.length - (w.near.outSeq - seq).toNat

def frame (sent : BitVec 16 × UInt8 × Payload) : Frame Payload :=
  ⟨w.number sent.1, sent.1, sent.2.2⟩

/-- A data frame reaches the receiver. -/
def arrive (mode : Mode) (frame : Frame Payload) : World Time Payload :=
  match mode with
  | .delivery =>
    { w with
      far := (w.far.onData frame.seq frame.inner).1
      received := frame.number :: w.received
      delivered := w.delivered ++ (w.far.onData frame.seq frame.inner).2 }
  | .live =>
    { w with
      far := w.far.noteReceived frame.seq
      received := frame.number :: w.received }

/-- A bulk acknowledgement reaches the sender. -/
def hear [Clock Time] (ack : Ack) (now : Option Time) : World Time Payload :=
  { w with
    near := w.near.onAck (parseBulkAck ack.payload).1 (parseBulkAck ack.payload).2 now
    heard := ack.through :: w.heard }

end World

def step [Clock Time] (mode : Mode) (w : World Time Payload) :
    Label Time Payload → Option (World Time Payload)
  | .queue inner flags now =>
    some { w with
      near := (w.near.queue inner flags now).1
      queued := w.queued ++ [inner]
      frames := w.frames ++ [⟨w.queued.length, (w.near.queue inner flags now).2, inner⟩] }
  | .resend now limit =>
    some { w with
      near := (w.near.dueRetransmits now limit).1
      frames := w.frames ++ (w.near.dueRetransmits now limit).2.map w.frame }
  | .arrive i => w.frames[i]?.map (w.arrive mode)
  | .acknowledge =>
    some { w with acks := w.acks ++ [⟨firstMissing w.received, w.far.ackPayload⟩] }
  | .hear i now => w.acks[i]?.map fun ack => w.hear ack now

/-- What the sender and the channels keep to. -/
def Channel (w : World Time Payload) : Label Time Payload → Prop
  | .queue _ _ _ => w.near.inflight < maxInflight
  | .arrive i => ∀ frame ∈ w.frames[i]?, ∀ n ∈ w.received, n < frame.number + reorder
  | .hear i _ => ∀ ack ∈ w.acks[i]?, ∀ through ∈ w.heard, through < ack.through + reorder
  | _ => True

instance (w : World Time Payload) : (label : Label Time Payload) → Decidable (Channel w label)
  | .queue _ _ _ => inferInstanceAs (Decidable (_ < _))
  | .arrive i => inferInstanceAs
      (Decidable (∀ frame ∈ w.frames[i]?, ∀ n ∈ w.received, n < frame.number + reorder))
  | .hear i _ => inferInstanceAs
      (Decidable (∀ ack ∈ w.acks[i]?, ∀ through ∈ w.heard, through < ack.through + reorder))
  | .resend _ _ => .isTrue trivial
  | .acknowledge => .isTrue trivial

/-- Two fresh links that start at the same sequence id. -/
def fresh (start : BitVec 16) (near far : Knobs Time) : World Time Payload where
  near := .new start near
  far := .new start far
  queued := []
  frames := []
  acks := []
  received := []
  heard := []
  delivered := []

def system [Clock Time] (mode : Mode) (start : BitVec 16) (near far : Knobs Time) :
    System (World Time Payload) (Label Time Payload) :=
  .ofStep (fun w => w = fresh start near far) (step mode)

/-! ## The invariant -/

theorem firstMissing_eq {received : List Nat} {count : Nat}
    (hbelow : ∀ n < count, n ∈ received) (hmissing : count ∉ received) :
    firstMissing received = count := by
  have hsub : List.range count ⊆ received := by
    intro n hn
    exact hbelow n (List.mem_range.mp hn)
  have hlen := (List.nodup_range.subperm hsub).length_le
  rw [List.length_range] at hlen
  have hfind : (List.range (received.length + 1)).find? (fun n => n ∉ received) = some count := by
    rw [List.find?_range_eq_some]
    refine ⟨by simpa using hmissing, List.mem_range.mpr (by omega), ?_⟩
    intro n hn
    simpa using hbelow n hn
  rw [firstMissing, hfind]
  rfl

/-- What the sender may take as acknowledged: the frame was received, and an
acknowledgement that reached it counts up to the frame or has it in the mask. -/
def World.Known (w : World Time Payload) (n : Nat) : Prop :=
  n ∈ w.received ∧ ∃ through ∈ w.heard, n < through + 129

/-- The receiver's half, on either path. -/
def Far (mode : Mode) (start : BitVec 16) (w : World Time Payload) (count : Nat) : Prop :=
  match mode with
  | .delivery => Delivering start w.queued w.received w.far count w.delivered
  | .live => Live start w.received w.far count ∧ w.delivered = []

/-- The two halves agree on what the serial numbers stand for. -/
structure Sound (mode : Mode) (start : BitVec 16) (w : World Time Payload) (base count : Nat) :
    Prop where
  window : Window start w.queued w.Known w.near base
  far : Far mode start w count
  missing : count ∉ w.received
  received_lt : ∀ n ∈ w.received, n < w.queued.length
  frames : ∀ frame ∈ w.frames, frame.seq = serial start frame.number ∧
    w.queued[frame.number]? = some frame.inner
  acks : ∀ ack ∈ w.acks, Describes start w.received ack.payload ack.through ∧
    ack.through ≤ count
  heard_le : ∀ through ∈ w.heard, through ≤ count

namespace Sound

variable {mode : Mode} {start : BitVec 16} {w : World Time Payload} {base count : Nat}

theorem below (h : Sound mode start w base count) : ∀ n < count, n ∈ w.received := by
  have hfar := h.far
  cases mode with
  | delivery => exact hfar.reception.below
  | live => exact hfar.1.below

theorem base_le_count (h : Sound mode start w base count) : base ≤ count := by
  by_contra hlt
  exact h.missing (h.window.freed count (by omega)).1

theorem count_le (h : Sound mode start w base count) : count ≤ w.queued.length := by
  by_contra hlt
  have hmem := h.below w.queued.length (by omega)
  exact absurd (h.received_lt _ hmem) (Nat.lt_irrefl _)

theorem delivered_prefix (h : Sound mode start w base count) : w.delivered <+: w.queued := by
  have hfar := h.far
  cases mode with
  | delivery =>
    rw [hfar.out_eq]
    exact List.take_prefix _ _
  | live =>
    rw [hfar.2]
    exact List.nil_prefix

/-- The number of a frame of the window is read off its id. -/
theorem number_serial (h : Sound mode start w base count) {n : Nat} (hb : base ≤ n)
    (hN : n < w.queued.length) : w.number (serial start n) = n := by
  have hw := h.window.width
  unfold maxInflight at hw
  rw [World.number, h.window.outSeq, Serial.toNat_sub hN.le (by omega)]
  omega

theorem init (near far : Knobs Time) :
    Sound mode start (fresh start near far : World Time Payload) 0 0 where
  window := Window.new start _ near
  far := by
    have hreception : Reception start [] (· ∈ ([] : List (BitVec 16))) start 0 := by
      refine ⟨Serial.serial_zero.symm, ?_, ?_, ?_⟩
      · intro n hn
        exact absurd hn (Nat.not_lt_zero _)
      · intro seq
        constructor
        · intro hmem
          cases hmem
        · rintro ⟨n, hn, -⟩
          cases hn
      · intro n hn
        cases hn
    cases mode with
    | delivery =>
      refine ⟨hreception, ?_, rfl, Nat.le_refl _, rfl⟩
      intro n payload hn
      cases hn
    | live => exact ⟨hreception, rfl⟩
  missing := List.not_mem_nil
  received_lt := fun _ hn => by cases hn
  frames := fun _ hframe => by cases hframe
  acks := fun _ hack => by cases hack
  heard_le := fun _ hheard => by cases hheard

/-! ## One step -/

theorem queue (h : Sound mode start w base count) (inner : Payload) (flags : UInt8) (now : Time)
    (hroom : w.near.inflight < maxInflight) :
    Sound mode start
      { w with
        near := (w.near.queue inner flags now).1
        queued := w.queued ++ [inner]
        frames := w.frames ++ [⟨w.queued.length, (w.near.queue inner flags now).2, inner⟩] }
      base count where
  window := h.window.queue inner flags now hroom
  far := by
    have hfar := h.far
    cases mode with
    | delivery =>
      refine ⟨hfar.reception, ?_, ?_, ?_, hfar.unused⟩
      · intro n payload hn hc hget
        rw [List.getElem?_append_left (h.received_lt n hn)]
        exact hfar.buffered n payload hn hc hget
      · rw [List.take_append_of_le_length h.count_le]
        exact hfar.out_eq
      · rw [List.length_append]
        exact Nat.le_add_right_of_le h.count_le
    | live => exact hfar
  missing := h.missing
  received_lt := by
    intro n hn
    rw [List.length_append]
    exact Nat.lt_add_right _ (h.received_lt n hn)
  frames := by
    intro frame hframe
    rcases List.mem_append.mp hframe with hframe | hframe
    · obtain ⟨hseq, hinner⟩ := h.frames frame hframe
      refine ⟨hseq, ?_⟩
      rw [List.getElem?_append_left (List.getElem?_eq_some_iff.mp hinner).1]
      exact hinner
    · rw [List.mem_singleton.mp hframe]
      exact ⟨h.window.outSeq, by simp⟩
  acks := h.acks
  heard_le := h.heard_le

theorem resend [Clock Time] (h : Sound mode start w base count) (now : Time)
    (limit : Option Int) :
    Sound mode start
      { w with
        near := (w.near.dueRetransmits now limit).1
        frames := w.frames ++ (w.near.dueRetransmits now limit).2.map w.frame }
      base count where
  window := h.window.dueRetransmits now limit
  far := h.far
  missing := h.missing
  received_lt := h.received_lt
  frames := by
    intro frame hframe
    rcases List.mem_append.mp hframe with hframe | hframe
    · exact h.frames frame hframe
    · obtain ⟨sent, hsent, rfl⟩ := List.mem_map.mp hframe
      have hspec := (@ReliableLink.dueRetransmits_spec _ _ _ (fun _ => True) w.near now limit
        (fun _ _ _ _ _ _ => trivial) trivial).2
      obtain ⟨entry, hget, -, hinner⟩ := hspec sent hsent
      obtain ⟨n, hb, hN, hseq, hqueued⟩ := h.window.of_get? hget
      have hnumber : w.number sent.1 = n := by
        rw [hseq]
        exact h.number_serial hb hN
      have hpayload : sent.2.2 = entry.inner := by rw [hinner]
      show sent.1 = serial start (w.number sent.1) ∧
        w.queued[w.number sent.1]? = some sent.2.2
      rw [hnumber, hpayload]
      exact ⟨hseq, hqueued⟩
  acks := h.acks
  heard_le := h.heard_le

/-- A frame under way is near the gap: it was queued, and none far ahead has arrived. -/
theorem frame_near (h : Sound mode start w base count) {frame : Frame Payload}
    (hframe : frame ∈ w.frames) (hchannel : ∀ n ∈ w.received, n < frame.number + reorder) :
    frame.number < w.queued.length ∧ count < frame.number + 2 ^ 15 ∧
      frame.number < count + reorder := by
  have hN := (List.getElem?_eq_some_iff.mp (h.frames frame hframe).2).1
  have hw := h.window.width
  have hbase := h.base_le_count
  unfold maxInflight at hw
  unfold reorder at hchannel ⊢
  refine ⟨hN, ?_, by omega⟩
  by_cases hzero : count = 0
  · omega
  · have := hchannel (count - 1) (h.below (count - 1) (by omega))
    omega

theorem arrive (h : Sound mode start w base count) {frame : Frame Payload}
    (hframe : frame ∈ w.frames) (hchannel : ∀ n ∈ w.received, n < frame.number + reorder) :
    ∃ count', Sound mode start (w.arrive mode frame) base count' := by
  obtain ⟨hN, hlow, hhigh⟩ := h.frame_near hframe hchannel
  obtain ⟨hseq, hinner⟩ := h.frames frame hframe
  have hsub : w.received ⊆ frame.number :: w.received := List.subset_cons_of_subset _ (fun _ => id)
  have hknown : ∀ n < w.queued.length, w.Known n →
      n ∈ frame.number :: w.received ∧ ∃ through ∈ w.heard, n < through + 129 :=
    fun n _ hn => ⟨hsub hn.1, hn.2⟩
  have hlt : ∀ n ∈ frame.number :: w.received, n < w.queued.length := by
    intro n hn
    rcases List.mem_cons.mp hn with rfl | hn
    · exact hN
    · exact h.received_lt n hn
  have hfar := h.far
  cases mode with
  | delivery =>
    obtain ⟨count', hmissing, hle, hdel⟩ := hfar.onData h.missing hinner hlow hhigh
    rw [← hseq] at hdel
    exact ⟨count', h.window.mono hknown, hdel, hmissing, hlt, h.frames,
      fun ack hack => ⟨(h.acks ack hack).1.mono hsub, (h.acks ack hack).2.trans hle⟩,
      fun through hheard => (h.heard_le through hheard).trans hle⟩
  | live =>
    obtain ⟨count', hmissing, hle, hlive⟩ := hfar.1.noteReceived h.missing hlow hhigh
    rw [← hseq] at hlive
    exact ⟨count', h.window.mono hknown, ⟨hlive, hfar.2⟩, hmissing, hlt, h.frames,
      fun ack hack => ⟨(h.acks ack hack).1.mono hsub, (h.acks ack hack).2.trans hle⟩,
      fun through hheard => (h.heard_le through hheard).trans hle⟩

theorem acknowledge (h : Sound mode start w base count) :
    Sound mode start
      { w with acks := w.acks ++ [⟨firstMissing w.received, w.far.ackPayload⟩] }
      base count where
  window := h.window
  far := h.far
  missing := h.missing
  received_lt := h.received_lt
  frames := h.frames
  acks := by
    intro ack hack
    rcases List.mem_append.mp hack with hack | hack
    · exact h.acks ack hack
    · rw [List.mem_singleton.mp hack, firstMissing_eq h.below h.missing]
      refine ⟨?_, Nat.le_refl _⟩
      have hfar := h.far
      cases mode with
      | delivery =>
        apply ackPayload_describes hfar.reception h.missing
        intro seq hseq
        rw [hfar.unused] at hseq
        cases hseq
      | live => exact ackPayload_describes hfar.1 h.missing fun _ hseq => hseq
  heard_le := h.heard_le

/-- The acknowledged count is near every frame of the window. -/
theorem ack_near (h : Sound mode start w base count) {through n : Nat} (hle : through ≤ count)
    (hchannel : ∀ earlier ∈ w.heard, earlier < through + reorder) (hb : base ≤ n)
    (hN : n < w.queued.length) : n < through + 2 ^ 15 ∧ through < n + 2 ^ 15 := by
  have hw := h.window.width
  have hcount := h.count_le
  unfold maxInflight at hw
  unfold reorder at hchannel
  refine ⟨?_, by omega⟩
  by_cases hzero : base = 0
  · omega
  · obtain ⟨-, earlier, hheard, hlt⟩ := h.window.freed (base - 1) (by omega)
    have := hchannel earlier hheard
    omega

theorem hear [Clock Time] (h : Sound mode start w base count) {ack : Ack} (hack : ack ∈ w.acks)
    (now : Option Time) (hchannel : ∀ earlier ∈ w.heard, earlier < ack.through + reorder) :
    ∃ base', base ≤ base' ∧ Sound mode start (w.hear ack now) base' count := by
  obtain ⟨⟨mask, hparse, hbelow, hbits⟩, hle⟩ := h.acks ack hack
  have hwindow : Window start w.queued (w.hear ack now).Known w.near base := by
    apply h.window.mono
    rintro n - ⟨hn, through, hheard, hlt⟩
    exact ⟨hn, through, List.mem_cons_of_mem _ hheard, hlt⟩
  obtain ⟨base', hbase, hafter⟩ := @Window.onAck _ _ _ _ _ _ _ _ hwindow
    (serial start ack.through) mask now (by
      intro n hb hN hc
      obtain ⟨hlow, hhigh⟩ := h.ack_near hle hchannel hb hN
      obtain ⟨hn, hnear⟩ := received_of_covers hbelow hbits hlow hhigh hc
      exact ⟨hn, ack.through, List.mem_cons_self, hnear⟩)
  refine ⟨base', hbase, ?_, h.far, h.missing, h.received_lt, h.frames, h.acks, ?_⟩
  · have hnear :
        (w.hear ack now).near = w.near.onAck (some (serial start ack.through)) mask now := by
      rw [World.hear, hparse]
    rw [hnear]
    exact hafter
  · intro through hheard
    rcases List.mem_cons.mp hheard with rfl | hheard
    · exact hle
    · exact h.heard_le through hheard

/-- One step of the sender, the receiver or the channels. Only an acknowledgement that is
heard moves the base, and what is received then does not change. -/
theorem step [Clock Time] (h : Sound mode start w base count) {label : Label Time Payload}
    {t : World Time Payload} (hchannel : Channel w label)
    (hstep : Reliable.step mode w label = some t) :
    ∃ base' count', Sound mode start t base' count' ∧ base ≤ base' ∧
      (base' = base ∨ t.received = w.received) ∧ w.queued.length ≤ t.queued.length := by
  cases label with
  | queue inner flags now =>
    cases hstep
    refine ⟨base, count, h.queue inner flags now hchannel, Nat.le_refl _, .inl rfl, ?_⟩
    show w.queued.length ≤ (w.queued ++ [inner]).length
    rw [List.length_append]
    omega
  | resend now limit =>
    cases hstep
    exact ⟨base, count, h.resend now limit, Nat.le_refl _, .inl rfl, Nat.le_refl _⟩
  | arrive i =>
    obtain ⟨frame, hi, rfl⟩ := Option.map_eq_some_iff.mp hstep
    obtain ⟨count', hsound⟩ := h.arrive (List.mem_of_getElem? hi) (hchannel frame hi)
    refine ⟨base, count', hsound, Nat.le_refl _, .inl rfl, ?_⟩
    cases mode with
    | delivery => exact Nat.le_refl _
    | live => exact Nat.le_refl _
  | acknowledge =>
    cases hstep
    exact ⟨base, count, h.acknowledge, Nat.le_refl _, .inl rfl, Nat.le_refl _⟩
  | hear i now =>
    obtain ⟨ack, hi, rfl⟩ := Option.map_eq_some_iff.mp hstep
    obtain ⟨base', hle, hsound⟩ := h.hear (List.mem_of_getElem? hi) now (hchannel ack hi)
    exact ⟨base', count, hsound, hle, .inr rfl, Nat.le_refl _⟩

/-- What leaves the window in a step was received. -/
theorem freed_received [Clock Time] (h : Sound mode start w base count)
    {label : Label Time Payload} {t : World Time Payload} (hchannel : Channel w label)
    (hstep : Reliable.step mode w label = some t) {seq : BitVec 16}
    (hmem : seq ∈ w.near.unacked.keys) (hgone : seq ∉ t.near.unacked.keys) :
    seq = serial start (w.number seq) ∧ w.number seq ∈ w.received := by
  obtain ⟨base', count', ht, hle, hsame, hgrow⟩ := h.step hchannel hstep
  obtain ⟨n, hb, hN, rfl⟩ := h.window.mem_keys.mp hmem
  have hfreed : n < base' := by
    by_contra hlt
    exact hgone (ht.window.mem_keys.mpr ⟨n, by omega, by omega, rfl⟩)
  rw [h.number_serial hb hN]
  refine ⟨rfl, ?_⟩
  rcases hsame with hbase | hreceived
  · omega
  · rw [← hreceived]
    exact (ht.window.freed n hfreed).1

/-- The ids of the window, from the two ends that the link keeps. -/
theorem mem_unacked (h : Sound mode start w base count) (seq : BitVec 16) :
    seq ∈ w.near.unacked.keys ↔
      (seq - w.near.windowLo).toNat < (w.near.outSeq - w.near.windowLo).toNat := by
  have hw := h.window.width
  have hle := h.window.base_le
  unfold maxInflight at hw
  rw [h.window.mem_keys, h.window.windowLo, h.window.outSeq, Serial.toNat_sub hle (by omega)]
  constructor
  · rintro ⟨n, hb, hN, rfl⟩
    rw [Serial.toNat_sub hb (by omega)]
    omega
  · intro hlt
    refine ⟨base + (seq - serial start base).toNat, by omega, by omega, ?_⟩
    rw [serial, BitVec.ofNat_add, BitVec.ofNat_toNat, BitVec.setWidth_eq, ← BitVec.add_assoc]
    show seq = serial start base + (seq - serial start base)
    rw [BitVec.add_comm, BitVec.sub_add_cancel]

end Sound

theorem sound_of_reachable [Clock Time] {mode : Mode} {start : BitVec 16} {near far : Knobs Time}
    {w : World Time Payload} (h : (system mode start near far).Reachable Channel w) :
    ∃ base count, Sound mode start w base count := by
  apply h.invariant (P := fun w => ∃ base count, Sound mode start w base count)
  · rintro _ rfl
    exact ⟨0, 0, Sound.init near far⟩
  · rintro s label t ⟨base, count, hs⟩ hchannel hstep
    obtain ⟨base', count', ht, -⟩ := hs.step hchannel hstep
    exact ⟨base', count', ht⟩

/-! ## The safety of the exchange -/

/-- In every state that any run reaches: a frame that a step deletes from the window was
received before, no frame marked as acknowledged is sent again, the window is exactly the
ids from its base up to the next one, and what was handed out is a prefix of what was
queued. -/
theorem selective_repeat_safety [Clock Time] (mode : Mode) (start : BitVec 16)
    (near far : Knobs Time) (w : World Time Payload)
    (h : (system mode start near far).Reachable Channel w) :
    (∀ label t, Channel w label → step mode w label = some t →
      ∀ seq ∈ w.near.unacked.keys, seq ∉ t.near.unacked.keys →
        seq = serial start (w.number seq) ∧ w.number seq ∈ w.received) ∧
    (∀ now limit, ∀ frame ∈ (w.near.dueRetransmits now limit).2,
      ∃ entry, w.near.unacked.get? frame.1 = some entry ∧ entry.acked = false) ∧
    (∀ seq, seq ∈ w.near.unacked.keys ↔
      (seq - w.near.windowLo).toNat < (w.near.outSeq - w.near.windowLo).toNat) ∧
    w.delivered <+: w.queued := by
  obtain ⟨base, count, hsound⟩ := sound_of_reachable h
  refine ⟨?_, ?_, hsound.mem_unacked, hsound.delivered_prefix⟩
  · intro label t hchannel hstep seq hmem hgone
    exact hsound.freed_received hchannel hstep hmem hgone
  · intro now limit frame hframe
    have hspec := (@ReliableLink.dueRetransmits_spec _ _ _ (fun _ => True) w.near now limit
      (fun _ _ _ _ _ _ => trivial) trivial).2
    obtain ⟨entry, hget, hacked, -⟩ := hspec frame hframe
    exact ⟨entry, hget, hacked⟩

/-! ## A run across the wrap -/

instance : Clock Int where
  decEq := inferInstance
  decLt := inferInstance
  decLe := inferInstance

def exampleKnobs : Knobs Int where
  maxInflight := 128
  rttJitterK := 0
  dupNackThreshold := 1
  rtoCeilMs := none
  rtoBackoff := 1
  rtoBootstrapMs := none

/-- The second of two frames overtakes the first one, whose id is the last before the wrap;
the mask reports it, the first frame is sent again, and the repeated copy arrives too. -/
def exampleRun : List (Label Int Nat) :=
  [.queue 10 7 0, .queue 11 7 1, .arrive 1, .acknowledge, .hear 0 (some 5), .resend 6 none,
    .arrive 2, .arrive 0, .acknowledge, .hear 1 (some 9), .hear 0 none]

theorem selective_repeat_safety_wrapped :
    ∃ w, System.play (step .live) Channel (fresh 0xFFFF exampleKnobs exampleKnobs) exampleRun =
        some w ∧
      w.frames.map Frame.number = [0, 1, 0] ∧ w.near.windowLo = 1 ∧ w.far.recvNext = 1 ∧
      (∀ seq, seq ∈ w.near.unacked.keys ↔
        (seq - w.near.windowLo).toNat < (w.near.outSeq - w.near.windowLo).toNat) ∧
      w.delivered <+: w.queued := by
  have hplay : ∃ w, System.play (step .live) Channel (fresh 0xFFFF exampleKnobs exampleKnobs)
      exampleRun = some w ∧ w.frames.map Frame.number = [0, 1, 0] ∧ w.near.windowLo = 1 ∧
      w.far.recvNext = 1 := ⟨_, rfl, rfl, rfl, rfl⟩
  obtain ⟨w, hw, hnumbers, hlo, hnext⟩ := hplay
  have hreach : (system .live 0xFFFF exampleKnobs exampleKnobs).Reachable Channel w :=
    ⟨_, rfl, System.run_of_play hw⟩
  have hsafe := selective_repeat_safety .live 0xFFFF exampleKnobs exampleKnobs w hreach
  exact ⟨w, hw, hnumbers, hlo, hnext, hsafe.2.2.1, hsafe.2.2.2⟩

/-- Handed out in order and once, whatever order the frames arrive in. -/
example : (System.play (step .delivery) Channel (fresh 0xFFFF exampleKnobs exampleKnobs)
    [.queue 10 7 0, .queue 11 7 1, .arrive 1, .arrive 0, .arrive 1]).map World.delivered =
      some [10, 11] := rfl

end SwitchTrade.Reliable

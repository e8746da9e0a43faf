import SwitchTrade.Reliable.Inbound

/-!
# Every frame once, as it arrives

The frames handed to the tunnel are the first arrivals, in the order they came (`Sound`). The
memory of the last 4096 serial numbers answers for the whole stream: between a frame and a
late copy of it there is no room for as many other frames, and a serial number in the memory
is too young to have come round again.
-/

namespace SwitchTrade.Reliable

open Transition

universe u

variable {Time : Type u}

/-- The numbers that arrived, without repetitions, the first arrival first. -/
def firstArrivals : List Nat → List Nat
  | [] => []
  | n :: earlier => if n ∈ earlier then firstArrivals earlier else firstArrivals earlier ++ [n]

@[simp] theorem mem_firstArrivals {arrived : List Nat} {n : Nat} :
    n ∈ firstArrivals arrived ↔ n ∈ arrived := by
  induction arrived with
  | nil => rfl
  | cons m earlier ih =>
    unfold firstArrivals
    split
    · rename_i hm
      rw [ih, List.mem_cons]
      constructor
      · exact .inr
      · rintro (rfl | hn)
        · exact hm
        · exact hn
    · rw [List.mem_append, List.mem_singleton, List.mem_cons, ih, or_comm]

theorem nodup_firstArrivals (arrived : List Nat) : (firstArrivals arrived).Nodup := by
  induction arrived with
  | nil => exact List.nodup_nil
  | cons m earlier ih =>
    unfold firstArrivals
    split
    · exact ih
    · rename_i hm
      rw [List.nodup_append]
      refine ⟨ih, List.nodup_singleton m, ?_⟩
      intro a ha b hb hab
      rw [List.mem_singleton] at hb
      subst hb hab
      exact hm (mem_firstArrivals.mp ha)

/-! ## What the code does to the link and to the memory -/

namespace ReliableLink

variable {link : ReliableLink Time Bytes}

/-- The receive side of the link is as it was. -/
def SameReceiver (link link' : ReliableLink Time Bytes) : Prop :=
  link'.recvNext = link.recvNext ∧ link'.recvOoo = link.recvOoo

theorem SameReceiver.trans {link link' link'' : ReliableLink Time Bytes}
    (h : SameReceiver link link') (h' : SameReceiver link' link'') : SameReceiver link link'' :=
  ⟨h'.1.trans h.1, h'.2.trans h.2⟩

theorem free_receiver (turns : Nat) (link : ReliableLink Time Bytes) :
    SameReceiver link (free turns link) := by
  induction turns generalizing link with
  | zero => exact ⟨rfl, rfl⟩
  | succ turns ih =>
    unfold free
    split
    · split
      · exact ih _
      · exact ⟨rfl, rfl⟩
    · exact ⟨rfl, rfl⟩

theorem trackGap_receiver (link : ReliableLink Time Bytes) (ackId : BitVec 16) (mask : Nat) :
    SameReceiver link (link.trackGap ackId mask) := by
  unfold trackGap
  split
  · split
    · split <;> exact ⟨rfl, rfl⟩
    · exact ⟨rfl, rfl⟩
  · exact ⟨rfl, rfl⟩

theorem onAck_receiver [Clock Time] (link : ReliableLink Time Bytes)
    (ackId : Option (BitVec 16)) (mask : List UInt8) (now : Option Time) :
    SameReceiver link (link.onAck ackId mask now) := by
  cases ackId with
  | none => exact ⟨rfl, rfl⟩
  | some ackId =>
    have hmark : SameReceiver link
        { link with
          rtt := link.unacked.items.foldl (sample ackId (fromBytes mask) now) link.rtt
          unacked := link.unacked.mapValues (mark ackId (fromBytes mask)) } := ⟨rfl, rfl⟩
    exact (hmark.trans (free_receiver _ _)).trans (trackGap_receiver _ ackId (fromBytes mask))

theorem dueRetransmits_receiver [Clock Time] (link : ReliableLink Time Bytes) (now : Time)
    (limit : Option Int) : SameReceiver link (link.dueRetransmits now limit).1 :=
  (dueRetransmits_spec (P := SameReceiver link) (fun _ _ _ _ h _ => h) ⟨rfl, rfl⟩).1

end ReliableLink

namespace TunnelSim

variable {sim : TunnelSim Time} {seq : BitVec 16}

theorem not_stale (h : sim.forward seq < 0x8000 ∨ (sim.lastInSeq - seq).toNat < 4096) :
    sim.stale seq = false := by
  unfold stale
  rw [Bool.and_eq_false_iff, Bool.and_eq_false_iff]
  rcases h with h | h
  · exact .inr (.inl (decide_eq_false (by omega)))
  · exact .inr (.inr (decide_eq_false (by omega)))

/-- A serial number that is new. -/
theorem noteInSeq_new (h : seq ∉ sim.seenIn) (hstale : sim.stale seq = false) :
    sim.noteInSeq seq =
      ({ sim with
          inSeqInitialized := true
          seenIn := remember recentLimit sim.seenIn seq
          lastInSeq := if sim.forward seq < 0x8000 then seq else sim.lastInSeq }, true) := by
  unfold noteInSeq
  rw [if_neg h, hstale]
  rfl

theorem noteInSeq_owed (sim : TunnelSim Time) (seq : BitVec 16) :
    ({ sim with ackOwed := true } : TunnelSim Time).noteInSeq seq =
      ({ (sim.noteInSeq seq).1 with ackOwed := true }, (sim.noteInSeq seq).2) := by
  unfold noteInSeq
  show (if seq ∈ sim.seenIn then _ else if sim.stale seq then _ else _) = _
  by_cases hseen : seq ∈ sim.seenIn
  · rw [if_pos hseen, if_pos hseen]
  · rw [if_neg hseen, if_neg hseen]
    by_cases hstale : sim.stale seq
    · rw [if_pos hstale, if_pos hstale]
    · rw [if_neg hstale, if_neg hstale]
      rfl

/-- A copy of a data frame is acknowledged again, and nothing is handed over. -/
theorem onReliable_seen [Clock Time] {flagsA : UInt8} (hflags : flagsA &&& 1 ≠ 0)
    (h : seq ∈ sim.seenIn) (payload : Bytes) (now : Option Time) :
    sim.onReliable seq flagsA payload now =
      { sim with ackOwed := true, rel := sim.rel.noteReceived seq } := by
  have hnote : sim.noteInSeq seq = (sim, false) := if_pos h
  unfold onReliable
  rw [if_pos hflags]
  simp only [noteInSeq_owed, hnote]
  rfl

/-- A data frame that is new is handed over. -/
theorem onReliable_new [Clock Time] {flagsA : UInt8} (hflags : flagsA &&& 1 ≠ 0)
    {seenIn : List (BitVec 16)} {lastInSeq : BitVec 16}
    (h : sim.noteInSeq seq =
      ({ sim with inSeqInitialized := true, seenIn := seenIn, lastInSeq := lastInSeq }, true))
    (payload : Bytes) (now : Option Time) :
    sim.onReliable seq flagsA payload now =
      { seenIn := seenIn
        lastInSeq := lastInSeq
        inSeqInitialized := true
        rel := sim.rel.noteReceived seq
        ackOwed := true
        handed := sim.handed ++ [(flagsA, payload)] } := by
  unfold onReliable
  rw [if_pos hflags]
  simp only [noteInSeq_owed, h]
  rfl

end TunnelSim

namespace Inbound

/-- What the receive path knows of the frames that arrived. -/
structure Sound (stream : Stream) (w : Inbound Time) (count : Nat) : Prop where
  live : Live reliableSeqStart w.arrived w.sim.rel count
  missing : count ∉ w.arrived
  base_le : w.base ≤ count
  window : ∀ n ∈ w.arrived, n ≤ w.base + 128
  order : (firstArrivals w.arrived).Pairwise fun n k => n ≤ k + 128
  seen : w.sim.seenIn = ((firstArrivals w.arrived).map (serial reliableSeqStart)).rtake recentLimit
  initialized : w.sim.inSeqInitialized = !w.arrived.isEmpty
  newest : w.arrived ≠ [] → ∃ m ∈ w.arrived, w.sim.lastInSeq = serial reliableSeqStart m ∧
    ∀ n ∈ w.arrived, n ≤ m
  handed : w.sim.handed = (firstArrivals w.arrived).map stream.frame
  acks : ∀ ack ∈ w.acks, Describes reliableSeqStart w.arrived ack.payload ack.through ∧
    ack.through ≤ count

namespace Sound

variable {stream : Stream} {w : Inbound Time} {count n : Nat}

theorem init (knobs : Knobs Time) : Sound stream (fresh knobs) 0 where
  live := by
    refine ⟨Serial.serial_zero.symm, ?_, ?_, ?_⟩
    · intro n hn
      exact absurd hn (Nat.not_lt_zero _)
    · intro seq
      constructor
      · intro hmem
        cases hmem
      · rintro ⟨n, hn, -⟩
        cases hn
    · intro n hn
      cases hn
  missing := List.not_mem_nil
  base_le := Nat.le_refl _
  window := fun n hn => by cases hn
  order := List.Pairwise.nil
  seen := (List.drop_nil).symm
  initialized := rfl
  newest := fun h => absurd rfl h
  handed := rfl
  acks := fun ack hack => by cases hack

/-- The frames received in a row end where the peer's window ends. -/
theorem count_le (h : Sound stream w count) : count ≤ w.base + 129 := by
  by_cases hzero : count = 0
  · omega
  · have := h.window (count - 1) (h.live.below (count - 1) (by omega))
    omega

/-! ## The memory -/

/-- A copy of a frame that arrived finds its serial number in the memory. -/
theorem seen_of_arrived (h : Sound stream w count) (hn : n ∈ w.arrived)
    (hlate : w.base ≤ n + lateness) : serial reliableSeqStart n ∈ w.sim.seenIn := by
  obtain ⟨older, newer, hsplit⟩ := List.append_of_mem (mem_firstArrivals.mpr hn)
  have horder := h.order
  have hnodup := nodup_firstArrivals w.arrived
  rw [hsplit] at horder hnodup
  have hafter : ∀ k ∈ newer, n ≤ k + 128 := by
    intro k hk
    exact List.rel_of_pairwise_cons (List.pairwise_append.mp horder).2.1 hk
  have hnewer : newer.Nodup := (List.nodup_cons.mp (List.nodup_append.mp hnodup).2.1).2
  have hlen : newer.length ≤ n + lateness + 129 - (n - 128) := by
    apply Recent.length_le_of_between hnewer
    intro k hk
    have hlow := hafter k hk
    have hmem : k ∈ firstArrivals w.arrived := by
      rw [hsplit]
      exact List.mem_append_right _ (List.mem_cons_of_mem _ hk)
    have hhigh := h.window k (mem_firstArrivals.mp hmem)
    omega
  rw [h.seen, Recent.mem_rtake]
  refine ⟨older.map (serial reliableSeqStart), newer.map (serial reliableSeqStart), ?_, ?_⟩
  · rw [hsplit, List.map_append, List.map_cons]
  · rw [List.length_map]
    unfold lateness at hlen
    unfold recentLimit
    omega

/-- What is in the memory is not far behind the frames received in a row. -/
theorem recent_near (h : Sound stream w count) {m : Nat} {older newer : List Nat}
    (hsplit : firstArrivals w.arrived = older ++ m :: newer)
    (hlen : newer.length < recentLimit) : count ≤ m + 129 + recentLimit := by
  have horder := h.order
  rw [hsplit] at horder
  have hbefore : ∀ k ∈ older, k ≤ m + 128 := by
    intro k hk
    exact (List.pairwise_append.mp horder).2.2 k hk m List.mem_cons_self
  have hbetween : count - (m + 129) ≤ newer.length := by
    apply Recent.le_length_of_between
    intro k hlow hhigh
    have hk : k ∈ older ++ m :: newer := by
      rw [← hsplit]
      exact mem_firstArrivals.mpr (h.live.below k hhigh)
    rcases List.mem_append.mp hk with hk | hk
    · have := hbefore k hk
      omega
    · rcases List.mem_cons.mp hk with hk | hk
      · omega
      · exact hk
  omega

/-- A serial number in the memory is that of a frame that arrived. -/
theorem arrived_of_seen (h : Sound stream w count) (hwindow : n ≤ w.base + 128)
    (hlate : w.base ≤ n + lateness) (hseen : serial reliableSeqStart n ∈ w.sim.seenIn) :
    n ∈ w.arrived := by
  rw [h.seen, Recent.mem_rtake] at hseen
  obtain ⟨older', newer', hsplit, hlen⟩ := hseen
  obtain ⟨older, rest, hfirst, -, hrest⟩ := List.map_eq_append_iff.mp hsplit
  obtain ⟨m, newer, rfl, hserial, rfl⟩ := List.map_eq_cons_iff.mp hrest
  rw [List.length_map] at hlen
  have hm : m ∈ w.arrived := by
    rw [← mem_firstArrivals, hfirst]
    exact List.mem_append_right _ List.mem_cons_self
  have hnear := h.recent_near hfirst hlen
  have hhigh := h.window m hm
  have hbase := h.base_le
  unfold lateness at hlate
  unfold recentLimit at hnear
  have heq : m = n := Serial.eq_of_serial_eq hserial (by omega) (by omega)
  rw [← heq]
  exact hm

/-- The newest frame against one of the window that has not arrived. -/
theorem newest_near (h : Sound stream w count) {m : Nat} (hm : m ∈ w.arrived)
    (hmax : ∀ k ∈ w.arrived, k ≤ m) (hwindow : n ≤ w.base + 128) (hn : n ∉ w.arrived) :
    m ≤ n + 128 ∧ n ≤ m + 129 := by
  have hcount : count ≤ n := by
    by_contra hlt
    exact hn (h.live.below n (by omega))
  have hbase := h.base_le
  have hhigh := h.window m hm
  refine ⟨by omega, ?_⟩
  by_cases hzero : count = 0
  · omega
  · have := hmax (count - 1) (h.live.below (count - 1) (by omega))
    omega

/-- A frame that did not arrive is taken for new, and the newest serial number stays that of
the newest frame. -/
theorem note_new (h : Sound stream w count) (hwindow : n ≤ w.base + 128)
    (hlate : w.base ≤ n + lateness) (hn : n ∉ w.arrived) :
    ∃ m ∈ n :: w.arrived, (∀ k ∈ n :: w.arrived, k ≤ m) ∧
      w.sim.noteInSeq (serial reliableSeqStart n) =
        ({ w.sim with
            inSeqInitialized := true
            seenIn := remember recentLimit w.sim.seenIn (serial reliableSeqStart n)
            lastInSeq := serial reliableSeqStart m }, true) := by
  have hseen : serial reliableSeqStart n ∉ w.sim.seenIn := by
    intro hmem
    exact hn (h.arrived_of_seen hwindow hlate hmem)
  by_cases hempty : w.arrived = []
  · have hinit : w.sim.inSeqInitialized = false := by rw [h.initialized, hempty]; rfl
    have hforward : w.sim.forward (serial reliableSeqStart n) = 1 := by
      unfold TunnelSim.forward
      rw [hinit]
      rfl
    refine ⟨n, List.mem_cons_self, ?_, ?_⟩
    · intro k hk
      rw [hempty, List.mem_singleton] at hk
      omega
    · rw [TunnelSim.noteInSeq_new hseen (TunnelSim.not_stale (.inl (by omega))), hforward]
      rfl
  · obtain ⟨m, hm, hlast, hmax⟩ := h.newest hempty
    obtain ⟨hbelow, habove⟩ := h.newest_near hm hmax hwindow hn
    have hinit : w.sim.inSeqInitialized = true := by
      rw [h.initialized]
      simpa using hempty
    have hforward : w.sim.forward (serial reliableSeqStart n) =
        (serial reliableSeqStart n - serial reliableSeqStart m).toNat := by
      unfold TunnelSim.forward
      rw [hinit, hlast]
      rfl
    have hne : n ≠ m := by
      rintro rfl
      exact hn hm
    by_cases hlt : m < n
    · have hsub := @Serial.toNat_sub _ reliableSeqStart _ _ hlt.le (by omega)
      have hstale : w.sim.stale (serial reliableSeqStart n) = false :=
        TunnelSim.not_stale (.inl (by omega))
      refine ⟨n, List.mem_cons_self, ?_, ?_⟩
      · intro k hk
        rcases List.mem_cons.mp hk with rfl | hk
        · exact Nat.le_refl _
        · have := hmax k hk
          omega
      · rw [TunnelSim.noteInSeq_new hseen hstale, if_pos (by omega)]
    · have hsub := @Serial.toNat_sub_of_lt _ reliableSeqStart m n (by omega)
        (by omega)
      have hback := @Serial.toNat_sub _ reliableSeqStart n m (by omega)
        (by omega)
      have hstale : w.sim.stale (serial reliableSeqStart n) = false :=
        TunnelSim.not_stale (.inr (by rw [hlast]; omega))
      refine ⟨m, List.mem_cons_of_mem _ hm, ?_, ?_⟩
      · intro k hk
        rcases List.mem_cons.mp hk with rfl | hk
        · omega
        · exact hmax k hk
      · rw [TunnelSim.noteInSeq_new hseen hstale, if_neg (by omega), hlast]

/-! ## One step -/

/-- Of the frames that arrived, the sound receive path depends on the receive side only. -/
theorem congr (h : Sound stream w count) {rel : ReliableLink Time Bytes}
    (hrel : ReliableLink.SameReceiver w.sim.rel rel) :
    Sound stream { w with sim := { w.sim with rel := rel } } count :=
  { h with
    live := by
      have hlive := h.live
      unfold Live at hlive ⊢
      rw [hrel.1, hrel.2]
      exact hlive }

theorem arrive [Clock Time] (h : Sound stream w count) (now : Option Time)
    (hwindow : n ≤ w.base + 128) (hlate : w.base ≤ n + lateness) :
    ∃ count', Sound stream
      { w with
        sim := w.sim.onReliable (serial reliableSeqStart n) (stream.frame n).1
          (stream.frame n).2 now
        arrived := n :: w.arrived } count' := by
  have hcount := h.count_le
  have hbase := h.base_le
  have hlow : count < n + 2 ^ 15 := by
    unfold lateness at hlate
    omega
  have hhigh : n < count + reorder := by
    unfold reorder
    omega
  obtain ⟨count', hmissing, hle, hlive⟩ := h.live.noteReceived h.missing hlow hhigh
  have hacks : ∀ ack ∈ w.acks,
      Describes reliableSeqStart (n :: w.arrived) ack.payload ack.through ∧
        ack.through ≤ count' := by
    intro ack hack
    obtain ⟨hdescribes, hthrough⟩ := h.acks ack hack
    exact ⟨hdescribes.mono (List.subset_cons_of_subset _ fun _ => id), hthrough.trans hle⟩
  have hwindow' : ∀ k ∈ n :: w.arrived, k ≤ w.base + 128 := by
    intro k hk
    rcases List.mem_cons.mp hk with rfl | hk
    · exact hwindow
    · exact h.window k hk
  refine ⟨count', ?_⟩
  by_cases hn : n ∈ w.arrived
  · have hfirst : firstArrivals (n :: w.arrived) = firstArrivals w.arrived := if_pos hn
    rw [TunnelSim.onReliable_seen (stream.appData n) (h.seen_of_arrived hn hlate)]
    refine ⟨hlive, hmissing, hbase.trans hle, hwindow', ?_, ?_, ?_, ?_, ?_, hacks⟩
    · rw [hfirst]
      exact h.order
    · rw [hfirst]
      exact h.seen
    · show w.sim.inSeqInitialized = _
      rw [h.initialized]
      cases harr : w.arrived with
      | nil =>
        rw [harr] at hn
        cases hn
      | cons k ks => rfl
    · intro _
      obtain ⟨m, hm, hlast, hmax⟩ := h.newest (List.ne_nil_of_mem hn)
      refine ⟨m, List.mem_cons_of_mem _ hm, hlast, ?_⟩
      intro k hk
      rcases List.mem_cons.mp hk with rfl | hk
      · exact hmax k hn
      · exact hmax k hk
    · rw [hfirst]
      exact h.handed
  · obtain ⟨m, hm, hmax, hnote⟩ := h.note_new hwindow hlate hn
    have hfirst : firstArrivals (n :: w.arrived) = firstArrivals w.arrived ++ [n] := if_neg hn
    have hnew : n ∉ firstArrivals w.arrived := fun hmem => hn (mem_firstArrivals.mp hmem)
    rw [TunnelSim.onReliable_new (stream.appData n) hnote]
    refine ⟨hlive, hmissing, hbase.trans hle, hwindow', ?_, ?_, rfl, ?_, ?_, hacks⟩
    · rw [hfirst, List.pairwise_append]
      refine ⟨h.order, List.pairwise_singleton _ _, ?_⟩
      intro k hk k' hk'
      rw [List.mem_singleton] at hk'
      have hkw := h.window k (mem_firstArrivals.mp hk)
      have hcountn : count ≤ n := by
        by_contra hlt
        exact hn (h.live.below n (by omega))
      omega
    · show remember recentLimit w.sim.seenIn _ = _
      have hnot : serial reliableSeqStart n ∉
          ((firstArrivals w.arrived).map (serial reliableSeqStart)).rtake recentLimit := by
        rw [← h.seen]
        intro hmem
        exact hn (h.arrived_of_seen hwindow hlate hmem)
      rw [h.seen, Recent.remember_rtake hnot, hfirst, List.map_append, List.map_singleton]
    · intro _
      exact ⟨m, hm, rfl, hmax⟩
    · show w.sim.handed ++ [_] = _
      rw [h.handed, hfirst, List.map_append, List.map_singleton]

theorem acknowledge (h : Sound stream w count) :
    Sound stream
      { w with
        sim := { w.sim with ackOwed := false }
        acks := w.acks ++ [⟨firstMissing w.arrived, w.sim.rel.ackPayload⟩] } count :=
  { h with
    acks := by
      intro ack hack
      rcases List.mem_append.mp hack with hack | hack
      · exact h.acks ack hack
      · rw [List.mem_singleton.mp hack, firstMissing_eq h.live.below h.missing]
        exact ⟨ackPayload_describes h.live h.missing fun _ hseq => hseq, Nat.le_refl _⟩ }

/-- A frame of the near half of the numbers that an acknowledgement covers has arrived. -/
theorem arrived_of_covers {ack : SentAck}
    (h : Describes reliableSeqStart w.arrived ack.payload ack.through)
    (hlow : n < ack.through + 2 ^ 15) (hhigh : ack.through < n + 2 ^ 15) (hc : ack.Covers n) :
    n ∈ w.arrived := by
  obtain ⟨mask, hparse, hbelow, hbits⟩ := h
  obtain ⟨ackId, hackId, hcovers⟩ := hc
  rw [hparse] at hackId hcovers
  cases hackId
  exact (received_of_covers hbelow hbits hlow hhigh hcovers).1

/-- The peer takes for acknowledged only what has arrived. -/
theorem release (h : Sound stream w count) {base : Nat} (hle : w.base ≤ base)
    (hcovered : ∀ n < base, w.base ≤ n →
      ∃ ack ∈ w.acks, w.base ≤ ack.through + reorder ∧ ack.Covers n) :
    Sound stream { w with base := base } count :=
  { h with
    base_le := by
      by_contra hlt
      obtain ⟨ack, hack, hfresh, hc⟩ := hcovered count (Nat.lt_of_not_le hlt) h.base_le
      obtain ⟨hdescribes, hthrough⟩ := h.acks ack hack
      have hcount := h.count_le
      unfold reorder at hfresh
      exact h.missing (arrived_of_covers hdescribes (by omega) (by omega) hc)
    window := by
      intro n hn
      have := h.window n hn
      show n ≤ base + 128
      omega }

theorem step [Clock Time] (h : Sound stream w count) {label : InboundLabel Time}
    {t : Inbound Time} (hwindow : w.Window label) (hstep : w.step stream label = some t) :
    ∃ count', Sound stream t count' := by
  cases label with
  | arrive n now =>
    cases hstep
    exact h.arrive now hwindow.1 hwindow.2
  | control seq payload now =>
    cases hstep
    exact ⟨count, h.congr (ReliableLink.onAck_receiver _ _ _ now)⟩
  | queue inner flags now =>
    cases hstep
    exact ⟨count, h.congr ⟨rfl, rfl⟩⟩
  | resend now limit =>
    cases hstep
    exact ⟨count, h.congr (ReliableLink.dueRetransmits_receiver _ now limit)⟩
  | acknowledge =>
    cases hstep
    exact ⟨count, h.acknowledge⟩
  | release base =>
    cases hstep
    exact ⟨count, h.release hwindow.1 hwindow.2⟩

end Sound

theorem sound_of_reachable [Clock Time] {stream : Stream} {knobs : Knobs Time} {w : Inbound Time}
    (h : (system stream knobs).Reachable Window w) : ∃ count, Sound stream w count := by
  apply h.invariant (P := fun w => ∃ count, Sound stream w count)
  · rintro _ rfl
    exact ⟨0, Sound.init knobs⟩
  · rintro s label t ⟨count, hs⟩ hwindow hstep
    exact hs.step hwindow hstep

/-! ## What the tunnel is given -/

/-- In every state that any run reaches: the frames handed over are the first arrivals, in
the order they came and each once, and what the acknowledgement covers was handed over. -/
theorem inbound_frames_once [Clock Time] (stream : Stream) (knobs : Knobs Time)
    (w : Inbound Time) (h : (system stream knobs).Reachable Window w) :
    w.sim.handed = (firstArrivals w.arrived).map stream.frame ∧
    (firstArrivals w.arrived).Nodup ∧ (∀ n, n ∈ firstArrivals w.arrived ↔ n ∈ w.arrived) ∧
    ∀ n, n < firstMissing w.arrived + 2 ^ 15 → firstMissing w.arrived < n + 2 ^ 15 →
      SentAck.Covers ⟨firstMissing w.arrived, w.sim.rel.ackPayload⟩ n →
        n ∈ firstArrivals w.arrived := by
  obtain ⟨count, hsound⟩ := sound_of_reachable h
  refine ⟨hsound.handed, nodup_firstArrivals _, fun n => mem_firstArrivals, ?_⟩
  intro n hlow hhigh hc
  have hdescribes : Describes reliableSeqStart w.arrived w.sim.rel.ackPayload
      (firstMissing w.arrived) := by
    rw [firstMissing_eq hsound.live.below hsound.missing]
    exact ackPayload_describes hsound.live hsound.missing fun _ hseq => hseq
  exact mem_firstArrivals.mpr (@Sound.arrived_of_covers _ w _
    ⟨firstMissing w.arrived, w.sim.rel.ackPayload⟩ hdescribes hlow hhigh hc)

/-- The stream-opening frame and the data frames behind it, each one byte longer than the last. -/
def exampleStream : Stream where
  frame n := (if n = 0 then 0x0f else 0x07, List.replicate n 0)
  appData := by
    intro n
    show (if n = 0 then (0x0f : UInt8) else 0x07) &&& 1 ≠ 0
    split <;> decide

/-- The second frame comes first, the first one twice; both are acknowledged, and the third
comes when the peer knows. -/
def exampleInbound : List (InboundLabel Int) :=
  [.arrive 1 none, .arrive 0 none, .arrive 0 none, .acknowledge, .release 2, .arrive 2 none]

theorem inbound_frames_once_example :
    ∃ w, System.play (step exampleStream) Window (fresh exampleKnobs) exampleInbound = some w ∧
      w.base = 2 ∧ w.sim.handed = [1, 0, 2].map exampleStream.frame ∧
      (firstArrivals w.arrived).Nodup := by
  have hplay : ∃ w, System.play (step exampleStream) Window (fresh exampleKnobs)
      exampleInbound = some w ∧ w.base = 2 ∧ firstArrivals w.arrived = [1, 0, 2] :=
    ⟨_, rfl, rfl, rfl⟩
  obtain ⟨w, hw, hbase, hfirst⟩ := hplay
  have hreach : (system exampleStream exampleKnobs).Reachable Window w :=
    ⟨_, rfl, System.run_of_play hw⟩
  obtain ⟨hhanded, hnodup, -⟩ := inbound_frames_once exampleStream exampleKnobs w hreach
  rw [hfirst] at hhanded
  exact ⟨w, hw, hbase, hhanded, hnodup⟩

/-- Two frames of the example stream are one only by one number. -/
theorem exampleStream_frame_inj {m n : Nat} (h : exampleStream.frame m = exampleStream.frame n) :
    m = n := by
  have hlength := congrArg (fun f : UInt8 × List UInt8 => f.2.length) h
  simpa only [exampleStream, List.length_replicate] using hlength

/-- Not in sequence order: a data frame that came behind the next goes to the tunnel behind it. -/
theorem overtaking_frame_handed_first :
    ¬ ∀ w, (system exampleStream exampleKnobs).Reachable Window w →
      ∃ numbers : List Nat, numbers.Pairwise (· < ·) ∧
        w.sim.handed = numbers.map exampleStream.frame := by
  intro hall
  have hplay : ∃ w, System.play (step exampleStream) Window (fresh exampleKnobs)
      [.arrive 0 none, .arrive 2 none, .arrive 1 none] = some w ∧
      w.sim.handed = [0, 2, 1].map exampleStream.frame := ⟨_, rfl, rfl⟩
  obtain ⟨w, hw, hhanded⟩ := hplay
  obtain ⟨numbers, hsorted, hnumbers⟩ := hall w ⟨_, rfl, System.run_of_play hw⟩
  rw [hhanded] at hnumbers
  have heq : [0, 2, 1] = numbers :=
    List.map_injective_iff.mpr (fun _ _ => exampleStream_frame_inj) hnumbers
  rw [← heq] at hsorted
  exact absurd hsorted (by decide)

end Inbound

end SwitchTrade.Reliable

import SwitchTrade.Reliable.Sender
import SwitchTrade.Sim.ChildAcks

/-!
# The window of a child

The frames a child queues are numbered in the order they are queued. At most six of them are under
way, at most three of these acknowledge the host, so that there is always room for a slot, and
whatever a batch carries under a number, sent for the first time or again, is the frame that was
queued under it (`child_window`).
-/

namespace SwitchTrade.Sim

open Rfu Trade Transition
open Reliable hiding Bytes

universe u

variable {Time : Type u}

/-! ## The flags of what is held -/

/-- What the second link holds the first held too, with the same flags. -/
def SameFlags (rel rel' : ReliableLink Time Bytes) : Prop :=
  ∀ seq entry', rel'.unacked.get? seq = some entry' →
    ∃ entry, rel.unacked.get? seq = some entry ∧ entry.flags = entry'.flags

namespace SameFlags

variable {rel rel' rel'' : ReliableLink Time Bytes}

theorem of_unacked (h : rel'.unacked = rel.unacked) : SameFlags rel rel' := by
  intro seq entry hget
  rw [h] at hget
  exact ⟨entry, hget, rfl⟩

theorem trans (h : SameFlags rel rel') (h' : SameFlags rel' rel'') : SameFlags rel rel'' := by
  intro seq entry'' hget
  obtain ⟨entry', hget', hflags'⟩ := h' seq entry'' hget
  obtain ⟨entry, hget, hflags⟩ := h seq entry' hget'
  exact ⟨entry, hget, hflags.trans hflags'⟩

theorem mark (rel : ReliableLink Time Bytes) (ackId : BitVec 16) (mask : Nat) :
    SameFlags rel { rel with unacked := rel.unacked.mapValues (ReliableLink.mark ackId mask) } := by
  intro seq entry' hget
  rw [Dict.get?_mapValues, Option.map_eq_some_iff] at hget
  obtain ⟨entry, hget, rfl⟩ := hget
  refine ⟨entry, hget, ?_⟩
  unfold ReliableLink.mark
  split <;> rfl

theorem erase (rel : ReliableLink Time Bytes) (seq : BitVec 16) :
    SameFlags rel { rel with unacked := rel.unacked.erase seq } := by
  intro other entry hget
  by_cases hsame : other = seq
  · subst hsame
    rw [Dict.get?_erase_self] at hget
    cases hget
  · rw [Dict.get?_erase_of_ne _ hsame] at hget
    exact ⟨entry, hget, rfl⟩

theorem stamp {seq : BitVec 16} {entry stamped : Entry Time Bytes}
    (hget : rel.unacked.get? seq = some entry) (hflags : stamped.flags = entry.flags) :
    SameFlags rel { rel with unacked := rel.unacked.set seq stamped } := by
  intro other entry' hget'
  by_cases hsame : other = seq
  · subst hsame
    rw [Dict.get?_set_self] at hget'
    cases hget'
    exact ⟨entry, hget, hflags.symm⟩
  · rw [Dict.get?_set_of_ne _ _ hsame] at hget'
    exact ⟨entry', hget', rfl⟩

theorem free (turns : Nat) (rel : ReliableLink Time Bytes) :
    SameFlags rel (ReliableLink.free turns rel) := by
  induction turns generalizing rel with
  | zero => exact of_unacked rfl
  | succ turns ih =>
    unfold ReliableLink.free
    split
    · split
      · exact trans (trans (erase rel rel.windowLo) (of_unacked rfl)) (ih _)
      · exact of_unacked rfl
    · exact of_unacked rfl

theorem trackGap (rel : ReliableLink Time Bytes) (ackId : BitVec 16) (mask : Nat) :
    SameFlags rel (rel.trackGap ackId mask) := by
  unfold ReliableLink.trackGap
  split
  · split
    · split <;> exact of_unacked rfl
    · exact of_unacked rfl
  · exact of_unacked rfl

theorem onAck [Clock Time] (rel : ReliableLink Time Bytes) (ackId : Option (BitVec 16))
    (mask : List UInt8) (now : Option Time) : SameFlags rel (rel.onAck ackId mask now) := by
  cases ackId with
  | none => exact of_unacked rfl
  | some ackId =>
    have hmark : SameFlags rel { rel with
        rtt := rel.unacked.items.foldl (ReliableLink.sample ackId (fromBytes mask) now) rel.rtt
        unacked := rel.unacked.mapValues (ReliableLink.mark ackId (fromBytes mask)) } :=
      trans (mark rel ackId (fromBytes mask)) (of_unacked rfl)
    exact trans (trans hmark (free _ _)) (trackGap _ _ _)

theorem due [Clock Time] (rel : ReliableLink Time Bytes) (now : Time) (limit : Option Int) :
    SameFlags rel (rel.dueRetransmits now limit).1 :=
  (ReliableLink.dueRetransmits_spec (P := SameFlags rel)
    (fun _ _ _ _ hsame hget => hsame.trans (stamp hget rfl)) (of_unacked rfl)).1

end SameFlags

/-! ## A link with room for six frames -/

/-- A link that has queued the frames and holds those from the base on. -/
structure Held (queued : List (UInt8 × Bytes)) (rel : ReliableLink Time Bytes) (base : Nat) :
    Prop where
  window : Window reliableSeqStart (queued.map Prod.snd) (fun _ => True) rel base
  flags : ∀ n entry, base ≤ n → n < queued.length →
    rel.unacked.get? (serial reliableSeqStart n) = some entry →
      (queued.map Prod.fst)[n]? = some entry.flags
  limit : rel.maxInflight = windowSize
  room : queued.length ≤ base + windowSize

/-- Every frame of the batch was queued under its number, with its flags, at the base or after. -/
def Sends (queued : List (UInt8 × Bytes)) (base : Nat) (batch : List BatchFrame) : Prop :=
  ∀ seq flags inner, (some seq, flags, inner) ∈ batch →
    ∃ n, base ≤ n ∧ seq = serial reliableSeqStart n ∧ queued[n]? = some (flags, inner)

theorem getElem?_more {α : Type} {xs : List α} {n : Nat} {x : α} (h : xs[n]? = some x)
    (more : List α) : (xs ++ more)[n]? = some x := by
  obtain ⟨hlt, -⟩ := List.getElem?_eq_some_iff.mp h
  rw [List.getElem?_append_left hlt, h]

namespace Sends

variable {queued : List (UInt8 × Bytes)} {base : Nat} {batch batch' : List BatchFrame}

/-- What was sent stays true of what is queued. -/
theorem more (h : Sends queued base batch) (more : List (UInt8 × Bytes)) :
    Sends (queued ++ more) base batch := by
  intro seq flags inner hframe
  obtain ⟨n, hbase, hseq, hget⟩ := h seq flags inner hframe
  exact ⟨n, hbase, hseq, getElem?_more hget more⟩

theorem append (h : Sends queued base batch) (h' : Sends queued base batch') :
    Sends queued base (batch ++ batch') := by
  intro seq flags inner hframe
  rcases List.mem_append.mp hframe with hframe | hframe
  · exact h seq flags inner hframe
  · exact h' seq flags inner hframe

theorem nil : Sends queued base [] := nofun

theorem anywhere (h : Sends queued base batch) : Sends queued 0 batch := by
  intro seq flags inner hframe
  obtain ⟨n, -, hseq, hget⟩ := h seq flags inner hframe
  exact ⟨n, Nat.zero_le n, hseq, hget⟩

end Sends

namespace Held

variable {queued : List (UInt8 × Bytes)} {rel rel' : ReliableLink Time Bytes} {base base' : Nat}
  {now : Time}

theorem base_le (h : Held queued rel base) : base ≤ queued.length := by
  have hle := h.window.base_le
  rwa [List.length_map] at hle

/-- Of what is held nothing new comes and no flags change. -/
theorem keep (h : Held queued rel base)
    (hwindow : Window reliableSeqStart (queued.map Prod.snd) (fun _ => True) rel' base')
    (hflags : SameFlags rel rel') (hlimit : rel'.maxInflight = rel.maxInflight)
    (hle : base ≤ base') : Held queued rel' base' where
  window := hwindow
  flags := by
    intro n entry' hn hlt hget
    obtain ⟨entry, hget, hsame⟩ := hflags _ entry' hget
    rw [← hsame]
    exact h.flags n entry (Nat.le_trans hle hn) hlt hget
  limit := hlimit.trans h.limit
  room := Nat.le_trans h.room (Nat.add_le_add_right hle _)

theorem same (h : Held queued rel base) (hsame : SameWindow rel rel') : Held queued rel' base :=
  h.keep (h.window.congr hsame.outSeq hsame.windowLo hsame.unacked) (.of_unacked hsame.unacked)
    hsame.maxInflight (Nat.le_refl _)

/-- Queueing, where there is room. -/
theorem queue (h : Held queued rel base) (flags : UInt8) (inner : Bytes)
    (hroom : rel.inflight < rel.maxInflight) :
    Held (queued ++ [(flags, inner)]) (rel.queue inner flags now).1 base ∧
      (rel.queue inner flags now).2 = serial reliableSeqStart queued.length := by
  have hless : rel.inflight < windowSize := by
    rw [← h.limit]
    exact hroom
  have hcount := h.window.inflight_eq
  have hout := h.window.outSeq
  rw [List.length_map] at hcount hout
  have hmap : (queued ++ [(flags, inner)]).map Prod.snd = queued.map Prod.snd ++ [inner] := by
    rw [List.map_append]
    rfl
  refine ⟨⟨?_, ?_, h.limit, ?_⟩, hout⟩
  · rw [hmap]
    exact h.window.queue inner flags now (Nat.lt_trans hless (by decide))
  · intro n entry hn hlt hget
    rw [List.length_append, List.length_singleton] at hlt
    rw [List.map_append]
    rcases h.window.get?_queue hn (by rwa [List.length_map]) hget with
      ⟨rfl, rfl⟩ | ⟨hold, hget⟩
    · rw [List.length_map]
      simp
    · rw [List.length_map] at hold
      exact getElem?_more (h.flags n entry hn hold hget) _
  · rw [List.length_append, List.length_singleton]
    omega

/-- The frame that is sent is the one that is queued under its number. -/
theorem snoc (h : Held queued rel base) (flags : UInt8) (frame : Bytes)
    (hroom : rel.inflight < rel.maxInflight) :
    Held (queued ++ [(flags, frame)]) (rel.queue frame flags now).1 base ∧
      Sends (queued ++ [(flags, frame)]) base
        [(some (rel.queue frame flags now).2, flags, frame)] := by
  obtain ⟨hheld, hseq⟩ := @h.queue _ _ _ _ now flags frame hroom
  refine ⟨hheld, ?_⟩
  intro seq flags' inner hframe
  rw [List.mem_singleton, Prod.mk.injEq, Option.some.injEq, Prod.mk.injEq] at hframe
  obtain ⟨rfl, rfl, rfl⟩ := hframe
  exact ⟨queued.length, h.base_le, hseq, List.getElem?_concat_length⟩

/-- The `K` frames that the loop queues are numbered in a row. -/
theorem kLoop (h : Held queued rel base) (kSeqs : List (BitVec 16)) (mid : Nat)
    (pending : List (Nat × Nat)) :
    Held (queued ++ (ChildSim.kLoop now rel kSeqs mid pending).frames.map
          fun frame => (flagsaGba, frame.2))
        (ChildSim.kLoop now rel kSeqs mid pending).rel base ∧
      ∀ i frame, (ChildSim.kLoop now rel kSeqs mid pending).frames[i]? = some frame →
        frame.1 = serial reliableSeqStart (queued.length + i) := by
  have hnone : Held (queued ++ ([] : List (BitVec 16 × Bytes)).map
        fun frame => (flagsaGba, frame.2)) rel base ∧
      ∀ i frame, ([] : List (BitVec 16 × Bytes))[i]? = some frame →
        frame.1 = serial reliableSeqStart (queued.length + i) := by
    rw [List.map_nil, List.append_nil]
    exact ⟨h, fun i frame hframe => by simp at hframe⟩
  induction pending generalizing queued rel kSeqs mid with
  | nil => exact hnone
  | cons pair rest ih =>
    obtain ⟨kSeq, ackedTs⟩ := pair
    unfold ChildSim.kLoop
    split
    · exact hnone
    · rename_i hfree
      obtain ⟨hnext, hseq⟩ := @h.queue _ _ _ _ now flagsaGba (buildK kSeq (mid + 1) ackedTs)
        (by omega)
      obtain ⟨hheld, hnumbers⟩ := ih hnext
        (kSeqs ++ [(rel.queue (buildK kSeq (mid + 1) ackedTs) flagsaGba now).2]) (mid + 1)
        (by
          rw [List.map_nil, List.append_nil]
          exact ⟨hnext, fun i frame hframe => by simp at hframe⟩)
      constructor
      · rw [List.append_assoc] at hheld
        exact hheld
      · intro i frame hframe
        cases i with
        | zero =>
          cases hframe
          exact hseq
        | succ i =>
          have hnumber := hnumbers i frame hframe
          rw [hnumber, List.length_append, List.length_singleton]
          congr 1
          omega

end Held

/-! ## What moves the window -/

namespace SameWindow

theorem refl (rel : ReliableLink Time Bytes) : SameWindow rel rel := ⟨rfl, rfl, rfl, rfl⟩

theorem advance (turns : Nat) (rel : ReliableLink Time Bytes) :
    SameWindow rel (ReliableLink.advance turns rel) := by
  induction turns generalizing rel with
  | zero => exact refl rel
  | succ turns ih =>
    unfold ReliableLink.advance
    split
    · exact ⟨(ih _).outSeq, (ih _).windowLo, (ih _).unacked, (ih _).maxInflight⟩
    · exact refl rel

theorem noteReceived (rel : ReliableLink Time Bytes) (seq : BitVec 16) :
    SameWindow rel (rel.noteReceived seq) := by
  unfold ReliableLink.noteReceived
  split
  · exact ⟨(advance _ _).outSeq, (advance _ _).windowLo, (advance _ _).unacked,
      (advance _ _).maxInflight⟩
  · split
    · exact ⟨rfl, rfl, rfl, rfl⟩
    · exact refl rel

end SameWindow

theorem maxInflight_free (turns : Nat) (rel : ReliableLink Time Bytes) :
    (ReliableLink.free turns rel).maxInflight = rel.maxInflight := by
  induction turns generalizing rel with
  | zero => rfl
  | succ turns ih =>
    unfold ReliableLink.free
    split
    · split
      · exact ih _
      · rfl
    · rfl

theorem maxInflight_trackGap (rel : ReliableLink Time Bytes) (ackId : BitVec 16) (mask : Nat) :
    (rel.trackGap ackId mask).maxInflight = rel.maxInflight := by
  unfold ReliableLink.trackGap
  split
  · split
    · split <;> rfl
    · rfl
  · rfl

theorem maxInflight_onAck [Clock Time] (rel : ReliableLink Time Bytes) (ackId : Option (BitVec 16))
    (mask : List UInt8) (now : Option Time) :
    (rel.onAck ackId mask now).maxInflight = rel.maxInflight := by
  cases ackId with
  | none => rfl
  | some ackId => exact (maxInflight_trackGap _ _ _).trans (maxInflight_free _ _)

/-- The link after a message of the host. -/
theorem rel_onReliable [Clock Time] (sim : TunnelSim Time) (seq : BitVec 16) (flagsA : UInt8)
    (payload : Bytes) (now : Option Time) :
    (sim.onReliable seq flagsA payload now).rel =
      if flagsA &&& 1 ≠ 0 then sim.rel.noteReceived seq
      else sim.rel.onAck (parseBulkAck payload).1 (parseBulkAck payload).2 now := by
  have hnote : ({ sim with ackOwed := true }.noteInSeq seq).1.rel = sim.rel := by
    unfold TunnelSim.noteInSeq
    split
    · rfl
    · split <;> rfl
  unfold TunnelSim.onReliable
  split
  · cases hfresh : ({ sim with ackOwed := true }.noteInSeq seq).2 with
    | true =>
      simp only [hfresh, if_true]
      exact congrArg (·.noteReceived seq) hnote
    | false =>
      simp only [hfresh, Bool.false_eq_true, if_false]
      exact congrArg (·.noteReceived seq) hnote
  · rfl

theorem Held.hear [Clock Time] {queued : List (UInt8 × Bytes)} {sim : TunnelSim Time} {base : Nat}
    (h : Held queued sim.rel base) (seq : BitVec 16) (flagsA : UInt8) (payload : Bytes)
    (now : Option Time) :
    ∃ base', base ≤ base' ∧ Held queued (sim.onReliable seq flagsA payload now).rel base' := by
  rw [rel_onReliable]
  split
  · exact ⟨base, Nat.le_refl _, h.same (SameWindow.noteReceived sim.rel seq)⟩
  · cases hack : (parseBulkAck payload).1 with
    | none => exact ⟨base, Nat.le_refl _, h⟩
    | some ackId =>
      have hcovers : ∀ n, base ≤ n → n < (queued.map Prod.snd).length →
          ReliableLink.covers ackId (fromBytes (parseBulkAck payload).2)
            (serial reliableSeqStart n) = true → True := fun _ _ _ _ => trivial
      obtain ⟨base', hle, hwindow⟩ := h.window.onAck now hcovers
      exact ⟨base', hle, h.keep hwindow (.onAck _ _ _ _) (maxInflight_onAck _ _ _ _) hle⟩

/-- What is sent again was queued under its number, and is still held. -/
theorem Held.due [Clock Time] {queued : List (UInt8 × Bytes)} {rel : ReliableLink Time Bytes}
    {base : Nat} (h : Held queued rel base) (now : Time) (limit : Option Int) :
    Held queued (rel.dueRetransmits now limit).1 base ∧
      ∀ frame ∈ (rel.dueRetransmits now limit).2, ∃ n, base ≤ n ∧
        frame.1 = serial reliableSeqStart n ∧ queued[n]? = some frame.2 := by
  obtain ⟨hmax, hunmarked⟩ := @ReliableLink.dueRetransmits_spec Time Bytes _
    (fun link => link.maxInflight = rel.maxInflight) rel now limit
    (fun _ _ _ _ hlimit _ => hlimit) rfl
  refine ⟨h.keep (h.window.dueRetransmits now limit) (.due _ _ _) hmax (Nat.le_refl _), ?_⟩
  intro frame hframe
  obtain ⟨entry, hget, -, hentry⟩ := hunmarked frame hframe
  obtain ⟨n, hbase, hlt, hseq, hinner⟩ := h.window.of_get? hget
  rw [List.length_map] at hlt
  have hflags := h.flags n entry hbase hlt (hseq ▸ hget)
  rw [List.getElem?_map, Option.map_eq_some_iff] at hinner hflags
  obtain ⟨pair, hpair, hinner⟩ := hinner
  obtain ⟨pair', hpair', hflags⟩ := hflags
  rw [hpair] at hpair'
  cases hpair'
  refine ⟨n, hbase, hseq, ?_⟩
  rw [hpair, hentry, ← hinner, ← hflags]

/-! ## Runs -/

/-- A frame that acknowledges the host. -/
def isK (frame : UInt8 × Bytes) : Bool := ((parseIn frame.2).bind kFrame).isSome

theorem getElem?_snoc {α : Type} {xs : List α} {n : Nat} {x y : α}
    (h : (xs ++ [y])[n]? = some x) : xs[n]? = some x ∨ n = xs.length ∧ x = y := by
  rcases Nat.lt_or_ge n xs.length with hlt | hge
  · rw [List.getElem?_append_left hlt] at h
    exact .inl h
  · rw [List.getElem?_append_right hge] at h
    obtain ⟨hlast, -⟩ := List.getElem?_eq_some_iff.mp h
    rw [List.length_singleton] at hlast
    have hzero : n - xs.length = 0 := by omega
    rw [hzero] at h
    cases h
    exact .inr ⟨by omega, rfl⟩

/-- What is under way in a state of a run. -/
structure Flying (w : Child Time) (base : Nat) : Prop where
  held : Held w.queued w.sim.rel base
  closed : w.sim.relOpened = false → w.queued = []
  asking : w.sim.gbaConnSent = false → w.sim.connectId ≠ none → w.queued.length ≤ 1
  few : w.sim.kSeqs.length ≤ kInflightMax
  ks : ∀ n frame, base ≤ n → w.queued[n]? = some frame → isK frame = true →
    serial reliableSeqStart n ∈ w.sim.kSeqs
  sent : ∀ batch ∈ w.sent, Sends w.queued 0 batch

namespace Flying

variable {w : Child Time} {base : Nat} {now : Time}

/-- One batch more. -/
theorem sent_snoc (h : Flying w base) {more : List (UInt8 × Bytes)} {batch : List BatchFrame}
    (hbatch : Sends (w.queued ++ more) base batch) :
    ∀ sent ∈ w.sent ++ [batch], Sends (w.queued ++ more) 0 sent := by
  intro sent hsent
  rcases List.mem_append.mp hsent with hold | hnew
  · exact (h.sent sent hold).more more
  · rw [List.mem_singleton.mp hnew]
    exact hbatch.anywhere

/-- A frame that is no `K` adds nothing to those that are. -/
theorem ks_snoc {queued : List (UInt8 × Bytes)} {kSeqs : List (BitVec 16)} {f : UInt8 × Bytes}
    (h : ∀ n frame, base ≤ n → queued[n]? = some frame → isK frame = true →
      serial reliableSeqStart n ∈ kSeqs) (hf : isK f = false) :
    ∀ n frame, base ≤ n → (queued ++ [f])[n]? = some frame → isK frame = true →
      serial reliableSeqStart n ∈ kSeqs := by
  intro n frame hn hframe hk
  rcases getElem?_snoc hframe with hold | ⟨-, rfl⟩
  · exact h n frame hn hold hk
  · rw [hf] at hk
    cases hk

/-- More frames, whose numbers are noted. -/
theorem ks_append {queued more : List (UInt8 × Bytes)} {kSeqs numbers : List (BitVec 16)}
    (h : ∀ n frame, base ≤ n → queued[n]? = some frame → isK frame = true →
      serial reliableSeqStart n ∈ kSeqs)
    (hmore : ∀ i < more.length, serial reliableSeqStart (queued.length + i) ∈ numbers) :
    ∀ n frame, base ≤ n → (queued ++ more)[n]? = some frame → isK frame = true →
      serial reliableSeqStart n ∈ kSeqs ++ numbers := by
  intro n frame hn hframe hk
  rcases Nat.lt_or_ge n queued.length with hlt | hge
  · rw [List.getElem?_append_left hlt] at hframe
    exact List.mem_append_left _ (h n frame hn hframe hk)
  · rw [List.getElem?_append_right hge] at hframe
    obtain ⟨hlast, -⟩ := List.getElem?_eq_some_iff.mp hframe
    have hnumber := hmore (n - queued.length) hlast
    rw [Nat.add_sub_cancel' hge] at hnumber
    exact List.mem_append_right _ hnumber

/-- A frame that is sent alone. -/
theorem send (h : Flying w base) {sim : ChildSim Time} {flags : UInt8} {frame : Bytes}
    (hroom : w.sim.rel.inflight < w.sim.rel.maxInflight)
    (hrel : sim.rel = (w.sim.rel.queue frame flags now).1) (hkSeqs : sim.kSeqs = w.sim.kSeqs)
    (hother : isK (flags, frame) = false) (hopened : sim.relOpened = true)
    (hasking : sim.gbaConnSent = false → w.queued = []) :
    Flying ⟨sim, w.queued ++ [(flags, frame)],
        w.sent ++ [[(some (w.sim.rel.queue frame flags now).2, flags, frame)]]⟩ base ∧
      Sends (w.queued ++ [(flags, frame)]) base
        [(some (w.sim.rel.queue frame flags now).2, flags, frame)] := by
  obtain ⟨hheld, hsends⟩ := @Held.snoc _ _ _ _ now h.held flags frame hroom
  refine ⟨⟨?_, ?_, ?_, ?_, ?_, h.sent_snoc hsends⟩, hsends⟩
  · show Held (w.queued ++ [(flags, frame)]) sim.rel base
    rw [hrel]
    exact hheld
  · intro hclosed
    rw [hopened] at hclosed
    cases hclosed
  · intro hconn _
    show (w.queued ++ [(flags, frame)]).length ≤ 1
    rw [hasking hconn]
    exact Nat.le_refl 1
  · show sim.kSeqs.length ≤ kInflightMax
    rw [hkSeqs]
    exact h.few
  · show ∀ n f, base ≤ n → (w.queued ++ [(flags, frame)])[n]? = some f → isK f = true →
      serial reliableSeqStart n ∈ sim.kSeqs
    rw [hkSeqs]
    exact ks_snoc h.ks hother

theorem isK_of_built {ftype flags : UInt8} {data frame : Bytes} (h : Built ftype data frame)
    (htype : ftype = typeT ∨ ftype = typeC) : isK (flags, frame) = false := by
  rw [isK, kFrame_of_built h htype]
  rfl

/-- The numbers of the `K` frames that the loop queues are noted. -/
theorem acks (h : Flying w base) {rel : ReliableLink Time Bytes} {k : ChildSim.KAcks Time}
    (hrel : Held w.queued rel base)
    (hk : k = ChildSim.kLoop now rel (w.sim.kSeqs.filter (· ∈ rel.unacked.keys)) 0
      w.sim.pendingK) :
    Held (w.queued ++ k.frames.map fun frame => (flagsaGba, frame.2)) k.rel base ∧
      k.kSeqs.length ≤ kInflightMax ∧
      (∀ n frame, base ≤ n →
        (w.queued ++ k.frames.map fun frame => (flagsaGba, frame.2))[n]? = some frame →
        isK frame = true → serial reliableSeqStart n ∈ k.kSeqs) ∧
      Sends (w.queued ++ k.frames.map fun frame => (flagsaGba, frame.2)) base
        (k.frames.map fun frame => (some frame.1, flagsaGba, frame.2)) := by
  obtain ⟨hheld, hnumbers⟩ := @Held.kLoop _ _ _ _ now hrel
    (w.sim.kSeqs.filter (· ∈ rel.unacked.keys)) 0 w.sim.pendingK
  obtain ⟨-, -, -, hkSeqs⟩ := @ChildSim.kLoop_spec _ now rel
    (w.sim.kSeqs.filter (· ∈ rel.unacked.keys)) 0 w.sim.pendingK
  obtain ⟨-, hfew⟩ := @ChildSim.kLoop_bounds _ now rel
    (w.sim.kSeqs.filter (· ∈ rel.unacked.keys)) 0 w.sim.pendingK (Nat.zero_le _)
    (Nat.le_trans (List.length_filter_le _ _) h.few)
  rw [← hk] at hheld hnumbers hkSeqs hfew
  -- What is forgotten of the numbers has left the window.
  have hkept : ∀ n frame, base ≤ n → w.queued[n]? = some frame → isK frame = true →
      serial reliableSeqStart n ∈ w.sim.kSeqs.filter (· ∈ rel.unacked.keys) := by
    intro n frame hn hframe hkind
    obtain ⟨hlt, -⟩ := List.getElem?_eq_some_iff.mp hframe
    rw [List.mem_filter]
    refine ⟨h.ks n frame hn hframe hkind, decide_eq_true ?_⟩
    exact hrel.window.mem_keys.mpr ⟨n, hn, by rwa [List.length_map], rfl⟩
  have hnoted : ∀ i < (k.frames.map fun frame => (flagsaGba, frame.2)).length,
      serial reliableSeqStart (w.queued.length + i) ∈ k.frames.map Prod.fst := by
    intro i hi
    rw [List.length_map] at hi
    rw [← hnumbers i _ (List.getElem?_eq_getElem hi)]
    exact List.mem_map_of_mem (List.getElem_mem hi)
  refine ⟨hheld, hfew, ?_, ?_⟩
  · rw [hkSeqs]
    exact ks_append hkept hnoted
  · intro seq flags inner hmem
    obtain ⟨frame, hframe, heq⟩ := List.mem_map.mp hmem
    rw [Prod.mk.injEq, Option.some.injEq, Prod.mk.injEq] at heq
    obtain ⟨rfl, rfl, rfl⟩ := heq
    obtain ⟨i, hget⟩ := List.mem_iff_getElem?.mp hframe
    refine ⟨_, Nat.le_add_right_of_le hrel.base_le, hnumbers i frame hget, ?_⟩
    rw [List.getElem?_append_right (Nat.le_add_right _ _), Nat.add_sub_cancel_left,
      List.getElem?_map, hget]
    rfl

/-- The slot that comes after them. -/
theorem slot {sim : ChildSim Time} {queued : List (UInt8 × Bytes)} {sloted : ChildSim.Driven Time}
    (hheld : Held queued sim.rel base)
    (hks : ∀ n frame, base ≤ n → queued[n]? = some frame → isK frame = true →
      serial reliableSeqStart n ∈ sim.kSeqs) (hsloted : sim.driveT now = .ok sloted) :
    Held (queued ++ sloted.queued) sloted.sim.rel base ∧
      (∀ n frame, base ≤ n → (queued ++ sloted.queued)[n]? = some frame → isK frame = true →
        serial reliableSeqStart n ∈ sloted.sim.kSeqs) ∧
      Sends (queued ++ sloted.queued) base sloted.batch := by
  obtain ⟨hsides, hslot⟩ := ChildSim.driveT_ok hsloted
  rw [hsides.kSeqs]
  rcases hslot with ⟨hnone, hempty, hrel, -⟩ | ⟨-, hroom, _, frame, hframe, hone, hbatch, hrel, -⟩
  · rw [hnone, List.append_nil, hrel, hempty]
    exact ⟨hheld, hks, .nil⟩
  · obtain ⟨hmore, hsends⟩ := @Held.snoc _ _ _ _ now hheld flagsaGba frame hroom
    rw [hone, hrel, hbatch]
    exact ⟨hmore, ks_snoc hks (isK_of_built (built_of_some hframe) (.inl rfl)), hsends⟩

/-- A batch: what it sends again and what it queues. -/
theorem batch [Clock Time] (h : Flying w base) {driven : ChildSim.Driven Time}
    (hopened : w.sim.relOpened = true) (hasked : w.sim.connectId = none ∨ w.sim.gbaConnSent = true)
    (hbatch : w.sim.driveBatch now = .ok driven) :
    Flying ⟨driven.sim, w.queued ++ driven.queued, w.sent ++ [driven.batch]⟩ base ∧
      Sends (w.queued ++ driven.queued) base driven.batch := by
  obtain ⟨due, k, sloted, hdue, hk, hsloted, hsame, -, hqueued, bulk, hbulk, hsent⟩ :=
    ChildSim.driveBatch_ok hbatch
  obtain ⟨hdueHeld, hagain⟩ := h.held.due now (some w.sim.rtxLimit)
  rw [← hdue] at hdueHeld hagain
  obtain ⟨hkHeld, hfew, hkKs, hkSent⟩ := h.acks hdueHeld hk
  obtain ⟨hheld, hks, hslotSent⟩ := slot hkHeld hkKs hsloted
  rw [List.append_assoc, ← hqueued] at hheld hks hslotSent
  obtain ⟨hsides, -⟩ := ChildSim.driveT_ok hsloted
  have hkSeqs : driven.sim.kSeqs = k.kSeqs := hsame.kSeqs.trans hsides.kSeqs
  have hopening : driven.sim.opening = w.sim.opening := hsame.opening.trans hsides.opening
  have hagainSent : Sends w.queued base
      ((due.2.take reliableBatchMax).map fun frame => (some frame.1, frame.2)) := by
    intro seq flags inner hframe
    obtain ⟨again, hmem, heq⟩ := List.mem_map.mp hframe
    rw [Prod.mk.injEq, Option.some.injEq] at heq
    obtain ⟨rfl, hpair⟩ := heq
    rw [← hpair]
    exact hagain again (List.mem_of_mem_take hmem)
  have hbulkSent : Sends (w.queued ++ driven.queued) base bulk := by
    rcases hbulk with rfl | rfl
    · exact .nil
    · intro seq flags inner hframe
      rw [List.mem_singleton, Prod.mk.injEq] at hframe
      cases hframe.1
  have hkMore := hkSent.more sloted.queued
  rw [List.append_assoc, ← hqueued] at hkMore
  have hsends : Sends (w.queued ++ driven.queued) base driven.batch := by
    rw [hsent]
    exact (((hagainSent.more _).append hkMore).append hslotSent).append hbulkSent
  refine ⟨⟨?_, ?_, ?_, ?_, ?_, h.sent_snoc hsends⟩, hsends⟩
  · show Held (w.queued ++ driven.queued) driven.sim.rel base
    rw [hsame.rel]
    exact hheld
  · intro hclosed
    have hstill : driven.sim.relOpened = w.sim.relOpened := congrArg Opening.relOpened hopening
    rw [hstill, hopened] at hclosed
    cases hclosed
  · intro hconn hid
    have hstill : driven.sim.gbaConnSent = w.sim.gbaConnSent :=
      congrArg Opening.gbaConnSent hopening
    have hsameId : driven.sim.connectId = w.sim.connectId := congrArg Opening.connectId hopening
    rcases hasked with hnone | hsentConn
    · exact absurd (hsameId.trans hnone) hid
    · rw [hstill, hsentConn] at hconn
      cases hconn
  · show driven.sim.kSeqs.length ≤ kInflightMax
    rw [hkSeqs]
    exact hfew
  · show ∀ n frame, base ≤ n → (w.queued ++ driven.queued)[n]? = some frame → isK frame = true →
      serial reliableSeqStart n ∈ driven.sim.kSeqs
    rw [hsame.kSeqs]
    exact hks

/-- A call of the driver. -/
theorem drive [Clock Time] (h : Flying w base) {driven : ChildSim.Driven Time}
    (hdriven : w.sim.driveReliable now = .ok driven) :
    Flying ⟨driven.sim, w.queued ++ driven.queued, w.sent ++ [driven.batch]⟩ base ∧
      Sends (w.queued ++ driven.queued) base driven.batch := by
  have hcount := h.held.window.inflight_eq
  have hlimit := h.held.limit
  rw [List.length_map] at hcount
  rcases ChildSim.driveReliable_cases hdriven with
    ⟨hclosed, rfl⟩ | ⟨hopened, hconn, connectId, frame, hid, hframe, rfl⟩ |
    ⟨hopened, hasked, hbatch⟩
  · have hnil := h.closed hclosed
    have hroom : w.sim.rel.inflight < w.sim.rel.maxInflight := by
      rw [hcount, hlimit, hnil]
      exact Nat.lt_of_le_of_lt (Nat.sub_le _ _) (by decide)
    exact h.send hroom rfl rfl (by decide) rfl (fun _ => hnil)
  · have hone := h.asking hconn (by rw [hid]; simp)
    have hroom : w.sim.rel.inflight < w.sim.rel.maxInflight := by
      rw [hcount, hlimit]
      unfold windowSize
      omega
    exact h.send hroom rfl rfl (isK_of_built (built_of_some hframe) (.inr rfl)) hopened
      (fun hfalse => by cases hfalse)
  · exact h.batch hopened hasked hbatch

theorem step [Clock Time] (h : Flying w base) {w' : Child Time} {label : ChildLabel Time}
    (hstep : w.step label = some w') : ∃ base', Flying w' base' := by
  rcases Child.step_cases hstep with ⟨hqueued, hsent, hsides, -, hwindow⟩ |
    ⟨seq, flagsA, payload, now, sim, hsim, rfl⟩ | ⟨now, driven, hdriven, rfl⟩
  · have hopened : w'.sim.relOpened = w.sim.relOpened :=
      congrArg Opening.relOpened hsides.opening
    have hconn : w'.sim.gbaConnSent = w.sim.gbaConnSent :=
      congrArg Opening.gbaConnSent hsides.opening
    have hid : w'.sim.connectId = w.sim.connectId := congrArg Opening.connectId hsides.opening
    refine ⟨base, ?_, ?_, ?_, ?_, ?_, ?_⟩ <;>
      simp only [hqueued, hsent, hopened, hconn, hid, hsides.kSeqs]
    · exact h.held.same hwindow
    · exact h.closed
    · exact h.asking
    · exact h.few
    · exact h.ks
    · exact h.sent
  · obtain ⟨hkSeqs, hopening, hrel, -⟩ := ChildSim.onReliable_cases hsim
    have hopened : sim.relOpened = w.sim.relOpened := congrArg Opening.relOpened hopening
    have hconn : sim.gbaConnSent = w.sim.gbaConnSent := congrArg Opening.gbaConnSent hopening
    have hid : sim.connectId = w.sim.connectId := congrArg Opening.connectId hopening
    obtain ⟨base', hle, hheld⟩ :=
      @Held.hear _ _ _ w.sim.receive _ h.held seq flagsA payload (some now)
    refine ⟨base', ?_, ?_, ?_, ?_, ?_, h.sent⟩ <;> simp only [hopened, hconn, hid, hkSeqs]
    · rw [hrel]
      exact hheld
    · exact h.closed
    · exact h.asking
    · exact h.few
    · intro n frame hn
      exact h.ks n frame (Nat.le_trans hle hn)
  · exact ⟨base, (h.drive hdriven).1⟩

/-- Of the frames under way at most three acknowledge the host. -/
theorem few_acks (h : Flying w base) :
    ((List.range' base (w.queued.length - base)).filter
      fun n => (w.queued[n]?).any isK).length ≤ kInflightMax := by
  have hle := h.held.base_le
  have hrange : ∀ n ∈ (List.range' base (w.queued.length - base)).filter
      (fun n => (w.queued[n]?).any isK), base ≤ n ∧ n < w.queued.length ∧
        serial reliableSeqStart n ∈ w.sim.kSeqs := by
    intro n hn
    rw [List.mem_filter, List.mem_range'_1] at hn
    obtain ⟨⟨hlow, hhigh⟩, hany⟩ := hn
    cases hget : w.queued[n]? with
    | none =>
      rw [hget] at hany
      cases hany
    | some frame =>
      rw [hget] at hany
      exact ⟨hlow, by omega, h.ks n frame hlow hget hany⟩
  have hnodup : (((List.range' base (w.queued.length - base)).filter
      fun n => (w.queued[n]?).any isK).map (serial reliableSeqStart)).Nodup := by
    apply (List.Nodup.filter _ List.nodup_range').map_on
    intro m hm n hn hsame
    obtain ⟨hmLow, hmHigh, -⟩ := hrange m hm
    obtain ⟨hnLow, hnHigh, -⟩ := hrange n hn
    apply h.held.window.number_inj hmLow _ hnLow _ hsame
    · rw [List.length_map]
      exact hmHigh.le
    · rw [List.length_map]
      exact hnHigh.le
  have hsubset : ((List.range' base (w.queued.length - base)).filter
      fun n => (w.queued[n]?).any isK).map (serial reliableSeqStart) ⊆ w.sim.kSeqs := by
    intro seq hseq
    obtain ⟨n, hn, rfl⟩ := List.mem_map.mp hseq
    exact (hrange n hn).2.2
  have hcount := (List.subperm_of_subset hnodup hsubset).length_le
  rw [List.length_map] at hcount
  exact Nat.le_trans hcount h.few

end Flying

theorem flying_of_reachable [Clock Time] {cfg : Config} {engine : Engine}
    {linkstate : Option LinkState} {connectId : Option Bytes} {w : Child Time}
    (h : (Child.system cfg engine linkstate connectId).Reachable System.Free w) :
    ∃ base, Flying w base := by
  refine h.invariant (P := fun w => ∃ base, Flying w base) ?_ ?_
  · rintro w rfl
    exact ⟨0, ⟨Window.new _ _ _, fun n _ _ hn => absurd hn (Nat.not_lt_zero n), rfl,
      Nat.zero_le _⟩, fun _ => rfl, fun _ _ => Nat.zero_le _, Nat.zero_le _,
      fun n frame _ hframe => by simp at hframe, fun batch hbatch => by cases hbatch⟩
  · rintro w label w' ⟨base, hflying⟩ - hstep
    exact hflying.step hstep

/-- In every run the frames under way are the last ones queued, at most six, and at most three of
them acknowledge the host; what the next batch carries under a number, for the first time or again,
is the frame of the window that was queued under it, with its flags, and so is what every batch
before carried. -/
theorem child_window [Clock Time] {cfg : Config} {engine : Engine}
    {linkstate : Option LinkState} {connectId : Option Bytes} {w : Child Time}
    (h : (Child.system cfg engine linkstate connectId).Reachable System.Free w) :
    (∃ base, w.sim.rel.unacked.keys =
          (List.range' base (w.queued.length - base)).map (serial reliableSeqStart) ∧
        base ≤ w.queued.length ∧ w.queued.length ≤ base + windowSize ∧
        ((List.range' base (w.queued.length - base)).filter
          fun n => (w.queued[n]?).any isK).length ≤ kInflightMax ∧
        ∀ now driven, w.sim.driveReliable now = .ok driven →
          (w.queued ++ driven.queued).length ≤ base + windowSize ∧
            Sends (w.queued ++ driven.queued) base driven.batch) ∧
      ∀ batch ∈ w.sent, Sends w.queued 0 batch := by
  obtain ⟨base, hflying⟩ := flying_of_reachable h
  have hkeys := hflying.held.window.keys
  rw [List.length_map] at hkeys
  refine ⟨⟨base, hkeys, hflying.held.base_le, hflying.held.room, hflying.few_acks, ?_⟩,
    hflying.sent⟩
  intro now driven hdriven
  obtain ⟨hnext, hsends⟩ := hflying.drive hdriven
  exact ⟨hnext.held.room, hsends⟩

/-- Four frames of the host wait for an acknowledgement, and only three are sent. -/
def sampleFlood : List (ChildLabel Int) :=
  [.drive 0, .drive 17] ++
    ((List.range 4).map fun i => .message (serial reliableSeqStart i) 0x07
      [gbaMarker, typeT, 8, 0, UInt8.ofNat i, 0, 0, 0, 1, 0, 0, 0] 20) ++ [.drive 33]

/-- Later the two opening frames are sent again, each with the flags it had. -/
theorem child_window_three_acks : ∃ cfg e₀,
    newEngine sampleConfig sampleParty 0 none = .ok (cfg, e₀) ∧
    ∃ w, System.play Child.step System.Free ⟨.new cfg e₀ none (some [3, 4]), [], []⟩ sampleFlood =
      some w ∧ w.queued.length = 5 ∧
    (∃ base driven, w.sim.rel.unacked.keys =
        (List.range' base (w.queued.length - base)).map (serial reliableSeqStart) ∧
      w.sim.driveReliable 400 = .ok driven ∧
      driven.batch.map (fun frame => (frame.1, frame.2.1)) =
        [(some (serial reliableSeqStart 0), flagsaInit),
          (some (serial reliableSeqStart 1), flagsaGba)] ∧
      Sends (w.queued ++ driven.queued) base driven.batch) ∧
    ∀ batch ∈ w.sent, Sends w.queued 0 batch := by
  obtain ⟨cfg, e₀, hnew, hsample⟩ : ∃ cfg e₀,
      newEngine sampleConfig sampleParty 0 none = .ok (cfg, e₀) ∧
      ((System.play Child.step System.Free ⟨.new cfg e₀ none (some [3, 4]), [], []⟩
        sampleFlood).map fun w => (w.queued.length, (w.sim.driveReliable 400).toOption.map
          fun driven => driven.batch.map fun frame => (frame.1, frame.2.1))) =
      some (5, some [(some (serial reliableSeqStart 0), flagsaInit),
        (some (serial reliableSeqStart 1), flagsaGba)]) :=
    ⟨_, _, rfl, by decide +kernel⟩
  obtain ⟨w, hw, hpair⟩ := Option.map_eq_some_iff.mp hsample
  obtain ⟨hfive, hagain⟩ := Prod.mk.inj hpair
  obtain ⟨driven, hdriven, hbatch⟩ := Option.map_eq_some_iff.mp hagain
  have hok : w.sim.driveReliable 400 = .ok driven := by
    cases hresult : w.sim.driveReliable 400 with
    | error fault =>
      rw [hresult] at hdriven
      cases hdriven
    | ok driven' =>
      rw [hresult] at hdriven
      exact congrArg Except.ok (Option.some.inj hdriven)
  obtain ⟨⟨base, hkeys, -, -, -, hnext⟩, hsent⟩ := child_window ⟨_, rfl, System.run_of_play hw⟩
  exact ⟨cfg, e₀, hnew, w, hw, hfive, ⟨base, driven, hkeys, hok, hbatch, (hnext 400 driven hok).2⟩,
    hsent⟩

end SwitchTrade.Sim

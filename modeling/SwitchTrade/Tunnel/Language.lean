import SwitchTrade.Tunnel.SequenceGate
import SwitchTrade.Transition.Ends

/-!
# The language of the sequence gate

A gate that is fed any frames and skips those it rejects accepts a concatenation of source
epochs (`Segmented`): each starts with `PEER_READY` at sequence 0, and no epoch comes back. What
is accepted so far is read off the gate (`Stands`): the last segment is the current epoch, the
ones before it are retired.

`run` is `accept` as the source runs it, with the gate changed in place when an epoch starts;
`accept` is what it comes to.
-/

namespace SwitchTrade.Tunnel

open Fallible

namespace SequenceGate

/-- `accept`, statement by statement, on the gate itself. -/
def run (e : Envelope) : EStateM TunnelV2Error SequenceGate PUnit := do
  let gate ← get
  InPlace.raiseIf (e.attemptId ≠ gate.attemptId)
    ⟨"C_ATTEMPT_MISMATCH", "frame belongs to another attempt"⟩
  InPlace.raiseIf (e.sourceSeat ≠ gate.sourceSeat)
    ⟨"C_SOURCE_SEAT_MISMATCH", "frame came from the wrong seat"⟩
  InPlace.raiseIf (e.sourceEpoch ∈ gate.retiredEpochs)
    ⟨"C_EPOCH_STALE", "source epoch is retired"⟩
  if gate.epoch ≠ some e.sourceEpoch then
    InPlace.raiseIf (e.sequence ≠ 0 ∨ e.kind ≠ .peerReady)
      ⟨"C_EPOCH_START_INVALID", "a source epoch must begin with PEER_READY sequence 0"⟩
    modify fun gate => gate.begin e.sourceEpoch
  let gate ← get
  InPlace.raiseIf (e.sequence < gate.nextSequence)
    ⟨"C_SEQUENCE_DUPLICATE", "frame sequence is duplicate or stale"⟩
  InPlace.raiseIf (gate.nextSequence < e.sequence)
    ⟨"C_SEQUENCE_GAP", "frame sequence is not contiguous"⟩
  InPlace.raiseIf (e.kind = .peerReady ∧ e.sequence ≠ 0)
    ⟨"C_PEER_READY_DUPLICATE", "PEER_READY may appear only at sequence 0"⟩
  modify fun gate => { gate with nextSequence := gate.nextSequence + 1 }

/-- The checks once the epoch is the current one. -/
theorem run_rest (gate : SequenceGate) (e : Envelope) {Q : PUnit → SequenceGate → Prop}
    {E : TunnelV2Error → SequenceGate → Prop}
    (hok : e.sequence = gate.nextSequence → (e.kind = .peerReady → e.sequence = 0) →
      Q ⟨⟩ { gate with nextSequence := gate.nextSequence + 1 })
    (herror : ¬ (e.sequence = gate.nextSequence ∧ (e.kind = .peerReady → e.sequence = 0)) →
      ∀ error, E error gate) :
    InPlace.Ends (do
      let gate ← get
      InPlace.raiseIf (e.sequence < gate.nextSequence)
        ⟨"C_SEQUENCE_DUPLICATE", "frame sequence is duplicate or stale"⟩
      InPlace.raiseIf (gate.nextSequence < e.sequence)
        ⟨"C_SEQUENCE_GAP", "frame sequence is not contiguous"⟩
      InPlace.raiseIf (e.kind = .peerReady ∧ e.sequence ≠ 0)
        ⟨"C_PEER_READY_DUPLICATE", "PEER_READY may appear only at sequence 0"⟩
      modify fun gate => { gate with nextSequence := gate.nextSequence + 1 }) Q E gate := by
  refine .bind (.get ?_)
  refine .bind (.raiseIf (fun hle => ?_) fun hlt => ?_)
  · refine .bind (.raiseIf (fun hge => ?_) fun hlt => ?_)
    · have hsequence : e.sequence = gate.nextSequence := by omega
      refine .bind (.raiseIf (fun hready => ?_) fun hready => ?_)
      · refine .modify (hok hsequence fun hk => ?_)
        by_contra hne
        exact hready ⟨hk, hne⟩
      · exact herror (fun h => hready.2 (h.2 hready.1)) _
    · exact herror (fun h => by omega) _
  · exact herror (fun h => by omega) _

/-- What a run returns has been accepted; one that raises leaves the gate as it was, although a
new epoch begins before the last checks: the first frame of an epoch passes them. -/
theorem run_ends (gate : SequenceGate) (e : Envelope) :
    InPlace.Ends (run e) (fun _ gate' => gate.accept e = .ok gate')
      (fun _ gate' => gate' = gate ∧ ∀ g, gate.accept e ≠ .ok g) gate := by
  refine .bind (.get ?_)
  refine .bind (.raiseIf (fun ha => ?_) fun ha => ⟨rfl, fun g h => ha (accept_eq_ok.mp h).1⟩)
  refine .bind (.raiseIf (fun hs => ?_) fun hs => ⟨rfl, fun g h => hs (accept_eq_ok.mp h).2.1⟩)
  refine .bind (.raiseIf (fun hr => ?_) fun hr => ⟨rfl, fun g h => (accept_eq_ok.mp h).2.2.1 hr⟩)
  have hattempt := Decidable.not_not.mp ha
  have hseat := Decidable.not_not.mp hs
  by_cases hcurrent : gate.epoch = some e.sourceEpoch
  · rw [if_neg (not_not.mpr hcurrent)]
    refine run_rest gate e (fun hsequence hready => ?_) fun hnot _ => ⟨rfl, fun g h => hnot ?_⟩
    · exact accept_eq_ok.mpr ⟨hattempt, hseat, hr, .inl ⟨hcurrent, hsequence, hready, rfl⟩⟩
    · rcases (accept_eq_ok.mp h).2.2.2 with ⟨-, hsequence, hready, -⟩ | ⟨hne, -⟩
      · exact ⟨hsequence, hready⟩
      · exact absurd hcurrent hne
  · rw [if_pos hcurrent]
    refine .bind (.raiseIf (fun hstart => ?_) fun hstart => ⟨rfl, fun g h => ?_⟩)
    · have hsequence : e.sequence = 0 := by
        by_contra hne
        exact hstart (.inl hne)
      have hready : e.kind = .peerReady := by
        by_contra hne
        exact hstart (.inr hne)
      refine .bind (.modify (run_rest (gate.begin e.sourceEpoch) e (fun _ _ => ?_)
        fun hnot _ => ?_))
      · exact accept_eq_ok.mpr ⟨hattempt, hseat, hr, .inr ⟨hcurrent, hsequence, hready, rfl⟩⟩
      · exact absurd ⟨hsequence, fun _ => hsequence⟩ hnot
    · rcases (accept_eq_ok.mp h).2.2.2 with ⟨h', -⟩ | ⟨-, hsequence, hready, -⟩
      · exact hcurrent h'
      · exact hstart.elim (fun hne => hne hsequence) fun hne => hne hready

/-- The frames that a gate accepts of those it is fed, and the gate after them; one that is
rejected is skipped. -/
def feed (gate : SequenceGate) : List Envelope → List Envelope × SequenceGate
  | [] => ([], gate)
  | e :: rest =>
    match (run e).run gate with
    | .ok _ gate' => (e :: (gate'.feed rest).1, (gate'.feed rest).2)
    | .error _ gate' => gate'.feed rest

end SequenceGate

/-! ## Segments -/

/-- A concatenation of source epochs, no two of them the same. -/
def Segmented (attemptId : String) (seat : SourceSeat) (frames : List Envelope) : Prop :=
  ∃ segments : List (Nat × List Envelope), frames = (segments.map Prod.snd).flatten ∧
    (∀ s ∈ segments, s.2 ≠ [] ∧ Epoch attemptId seat s.1 s.2) ∧ (segments.map Prod.fst).Nodup

/-- The gate stands at the end of the segments, which are listed latest first. -/
structure Stands (attemptId : String) (seat : SourceSeat) (gate : SequenceGate)
    (segments : List (Nat × List Envelope)) : Prop where
  boundAttempt : gate.attemptId = attemptId
  boundSeat : gate.sourceSeat = seat
  epochs : ∀ s ∈ segments, s.2 ≠ [] ∧ Epoch attemptId seat s.1 s.2
  distinct : (segments.map Prod.fst).Nodup
  current : gate.epoch = segments.head?.map Prod.fst
  next : ∀ s, segments.head? = some s → gate.nextSequence = s.2.length
  retired : ∀ n, n ∈ gate.retiredEpochs ↔ n ∈ segments.tail.map Prod.fst

namespace Stands

variable {attemptId : String} {seat : SourceSeat} {gate gate' : SequenceGate}
  {segments : List (Nat × List Envelope)} {e : Envelope}

/-- All frames of the segments, in order. -/
def frames (segments : List (Nat × List Envelope)) : List Envelope :=
  (segments.reverse.map Prod.snd).flatten

theorem frames_cons (s : Nat × List Envelope) (rest : List (Nat × List Envelope)) :
    frames (s :: rest) = frames rest ++ s.2 := by
  unfold frames
  simp

theorem fresh (attemptId : String) (seat : SourceSeat) :
    Stands attemptId seat (SequenceGate.fresh attemptId seat) [] where
  boundAttempt := rfl
  boundSeat := rfl
  epochs _ hs := absurd hs List.not_mem_nil
  distinct := List.nodup_nil
  current := rfl
  next _ hs := by cases hs
  retired _ := Iff.rfl

/-- A frame that continues the current epoch belongs to its segment. -/
theorem continues {epoch : Nat} {start : List Envelope} {rest : List (Nat × List Envelope)}
    (h : Stands attemptId seat gate ((epoch, start) :: rest)) (hattempt : e.attemptId = attemptId)
    (hseat : e.sourceSeat = seat) (hepoch : e.sourceEpoch = epoch)
    (hsequence : e.sequence = gate.nextSequence) (hready : e.kind = .peerReady → e.sequence = 0) :
    Stands attemptId seat { gate with nextSequence := gate.nextSequence + 1 }
      ((epoch, start ++ [e]) :: rest) := by
  obtain ⟨hnonempty, hsegment⟩ := h.epochs _ List.mem_cons_self
  have hnext : gate.nextSequence = start.length := h.next _ rfl
  have hlength : start.length ≠ 0 := by
    intro hzero
    exact hnonempty (List.length_eq_zero_iff.mp hzero)
  have hextended : Epoch attemptId seat epoch (start ++ [e]) := by
    refine hsegment.snoc hattempt hseat hepoch (hsequence.trans hnext) ⟨fun hk => ?_, fun hz => ?_⟩
    · have hzero := hready hk
      omega
    · exact absurd hz hlength
  refine ⟨h.boundAttempt, h.boundSeat, ?_, h.distinct, h.current, ?_, h.retired⟩
  · intro s hs
    rcases List.mem_cons.mp hs with rfl | hs
    · exact ⟨by simp, hextended⟩
    · exact h.epochs s (List.mem_cons_of_mem _ hs)
  · intro s hs
    cases hs
    show gate.nextSequence + 1 = (start ++ [e]).length
    rw [hnext, List.length_append, List.length_singleton]

/-- A frame that begins an epoch begins a segment. -/
theorem begins (h : Stands attemptId seat gate segments) (hattempt : e.attemptId = attemptId)
    (hseat : e.sourceSeat = seat) (hretired : e.sourceEpoch ∉ gate.retiredEpochs)
    (hcurrent : gate.epoch ≠ some e.sourceEpoch) (hsequence : e.sequence = 0)
    (hready : e.kind = .peerReady) :
    Stands attemptId seat { gate.begin e.sourceEpoch with nextSequence := 1 }
      ((e.sourceEpoch, [e]) :: segments) := by
  have hnew : e.sourceEpoch ∉ segments.map Prod.fst := by
    rw [h.retired] at hretired
    rw [h.current] at hcurrent
    cases segments with
    | nil => exact List.not_mem_nil
    | cons s rest =>
      intro hmem
      rcases List.mem_cons.mp hmem with hhead | htail
      · exact hcurrent (congrArg some hhead.symm)
      · exact hretired htail
  have hfirst : Epoch attemptId seat e.sourceEpoch ([] ++ [e]) :=
    Epoch.nil.snoc hattempt hseat rfl hsequence ⟨fun _ => rfl, fun _ => hready⟩
  refine ⟨h.boundAttempt, h.boundSeat, ?_, List.nodup_cons.mpr ⟨hnew, h.distinct⟩, rfl, ?_, ?_⟩
  · intro s hs
    rcases List.mem_cons.mp hs with rfl | hs
    · exact ⟨by simp, hfirst⟩
    · exact h.epochs s hs
  · intro s hs
    cases hs
    rfl
  · intro n
    show n ∈ gate.epoch.toList ++ gate.retiredEpochs ↔ n ∈ segments.map Prod.fst
    rw [List.mem_append, h.retired, h.current]
    cases segments with
    | nil => simp
    | cons s rest => simp

/-- An accepted frame is the next of the segments. -/
theorem accept (h : Stands attemptId seat gate segments) (ha : gate.accept e = .ok gate') :
    ∃ segments', Stands attemptId seat gate' segments' ∧
      frames segments' = frames segments ++ [e] := by
  obtain ⟨hattempt, hseat, hretired, hcase⟩ := SequenceGate.accept_eq_ok.mp ha
  rw [h.boundAttempt] at hattempt
  rw [h.boundSeat] at hseat
  rcases hcase with ⟨hcurrent, hsequence, hready, rfl⟩ | ⟨hcurrent, hsequence, hready, rfl⟩
  · have hhead := h.current
    rw [hcurrent] at hhead
    cases segments with
    | nil => cases hhead
    | cons s rest =>
      obtain ⟨epoch, start⟩ := s
      have hepoch : e.sourceEpoch = epoch := Option.some.inj hhead
      refine ⟨_, h.continues hattempt hseat hepoch hsequence hready, ?_⟩
      rw [frames_cons, frames_cons, List.append_assoc]
  · exact ⟨_, h.begins hattempt hseat hretired hcurrent hsequence hready, frames_cons _ _⟩

/-- Whatever the gate is fed, what it accepts goes on with the segments. -/
theorem feed (h : Stands attemptId seat gate segments) (fed : List Envelope) :
    ∃ segments', Stands attemptId seat (gate.feed fed).2 segments' ∧
      frames segments' = frames segments ++ (gate.feed fed).1 := by
  induction fed generalizing gate segments with
  | nil => exact ⟨segments, h, (List.append_nil _).symm⟩
  | cons e rest ih =>
    unfold SequenceGate.feed
    have hends := SequenceGate.run_ends gate e
    cases hr : (SequenceGate.run e).run gate with
    | ok u gate' =>
      obtain ⟨segments', hs, hframes⟩ := h.accept (hends.of_ok hr)
      obtain ⟨last, hlast, hall⟩ := ih hs
      refine ⟨last, hlast, ?_⟩
      show frames last = frames segments ++ e :: (gate'.feed rest).1
      rw [hall, hframes, List.append_assoc, List.singleton_append]
    | error error gate' =>
      obtain ⟨rfl, -⟩ := hends.of_error hr
      exact ih h

theorem segmented (h : Stands attemptId seat gate segments) :
    Segmented attemptId seat (frames segments) := by
  refine ⟨segments.reverse, rfl, fun s hs => h.epochs s (List.mem_reverse.mp hs), ?_⟩
  rw [List.map_reverse]
  exact (List.reverse_perm _).nodup_iff.mpr h.distinct

end Stands

/-! ## Acceptance in full -/

namespace SequenceGate

variable {attemptId : String} {seat : SourceSeat} {gate gate' : SequenceGate}

theorem feed_cons {e : Envelope} (h : gate.accept e = .ok gate') (rest : List Envelope) :
    gate.feed (e :: rest) = (e :: (gate'.feed rest).1, (gate'.feed rest).2) := by
  have hends := run_ends gate e
  rw [feed]
  cases hr : (run e).run gate with
  | ok u accepted =>
    have haccepted := hends.of_ok hr
    rw [h] at haccepted
    cases haccepted
    rfl
  | error error rejected => exact absurd h ((hends.of_error hr).2 gate')

theorem feed_of_acceptAll {frames : List Envelope} (h : gate.acceptAll frames = .ok gate')
    (rest : List Envelope) :
    gate.feed (frames ++ rest) = (frames ++ (gate'.feed rest).1, (gate'.feed rest).2) := by
  induction frames generalizing gate with
  | nil =>
    cases h
    rfl
  | cons e frames ih =>
    rw [acceptAll, List.foldlM_cons, bind_eq_ok] at h
    obtain ⟨middle, haccept, h⟩ := h
    rw [List.cons_append, feed_cons haccept, ih h]
    rfl

/-- A segment of an epoch that is neither current nor retired is accepted in full. -/
theorem acceptAll_segment {epoch : Nat} {frames : List Envelope}
    (hattempt : gate.attemptId = attemptId) (hseat : gate.sourceSeat = seat)
    (hcurrent : gate.epoch ≠ some epoch) (hretired : epoch ∉ gate.retiredEpochs)
    (h : Epoch attemptId seat epoch frames) (hnonempty : frames ≠ []) :
    gate.acceptAll frames =
      .ok { gate.begin epoch with nextSequence := frames.length } := by
  induction frames using List.reverseRecOn with
  | nil => exact absurd rfl hnonempty
  | append_singleton frames e ih =>
    have hlast : (frames ++ [e])[frames.length]? = some e := by simp
    have hmem : e ∈ frames ++ [e] := by simp
    have hsequence := h.sequence _ e hlast
    have hstart := h.start _ e hlast
    have hepoch := h.epoch e hmem
    have hframe := h.attempt e hmem
    have hframeSeat := h.seat e hmem
    rw [acceptAll, List.foldlM_append, bind_eq_ok]
    by_cases hnil : frames = []
    · subst hnil
      refine ⟨gate, rfl, ?_⟩
      rw [List.foldlM_cons, bind_eq_ok]
      refine ⟨_, accept_eq_ok.mpr ⟨hframe.trans hattempt.symm, hframeSeat.trans hseat.symm,
        ?_, .inr ⟨?_, hsequence, hstart.mpr rfl, rfl⟩⟩, ?_⟩
      · rwa [hepoch]
      · rwa [hepoch]
      · rw [hepoch]
        rfl
    · refine ⟨_, ih h.of_append hnil, ?_⟩
      rw [List.foldlM_cons, bind_eq_ok]
      refine ⟨_, accept_eq_ok.mpr ⟨hframe.trans hattempt.symm, hframeSeat.trans hseat.symm,
        ?_, .inl ⟨?_, hsequence, fun hk => ?_, rfl⟩⟩, ?_⟩
      · show e.sourceEpoch ∉ gate.epoch.toList ++ gate.retiredEpochs
        rw [hepoch, List.mem_append]
        rintro (hmem | hmem)
        · exact hcurrent (Option.mem_toList.mp hmem)
        · exact hretired hmem
      · rw [hepoch]
        rfl
      · exact hsequence.trans (hstart.mp hk)
      · rw [List.length_append, List.length_singleton]
        rfl

/-- Segments of epochs that the gate has not seen are accepted in full. -/
theorem feed_segments (segments : List (Nat × List Envelope))
    (hattempt : gate.attemptId = attemptId) (hseat : gate.sourceSeat = seat)
    (hepochs : ∀ s ∈ segments, s.2 ≠ [] ∧ Epoch attemptId seat s.1 s.2)
    (hdistinct : (segments.map Prod.fst).Nodup)
    (hcurrent : ∀ s ∈ segments, gate.epoch ≠ some s.1)
    (hretired : ∀ s ∈ segments, s.1 ∉ gate.retiredEpochs) :
    (gate.feed (segments.map Prod.snd).flatten).1 = (segments.map Prod.snd).flatten := by
  induction segments generalizing gate with
  | nil => rfl
  | cons s rest ih =>
    obtain ⟨epoch, frames⟩ := s
    obtain ⟨hnonempty, hsegment⟩ := hepochs _ List.mem_cons_self
    have hfirst := acceptAll_segment hattempt hseat (hcurrent _ List.mem_cons_self)
      (hretired _ List.mem_cons_self) hsegment hnonempty
    obtain ⟨hnotmem, hnodup⟩ := List.nodup_cons.mp hdistinct
    have hother : ∀ s ∈ rest, s.1 ≠ epoch := by
      intro s hs heq
      exact hnotmem (List.mem_map.mpr ⟨s, hs, heq⟩)
    rw [List.map_cons, List.flatten_cons, feed_of_acceptAll hfirst]
    show frames ++ _ = frames ++ _
    congr 1
    refine ih hattempt hseat (fun s hs => hepochs s (List.mem_cons_of_mem _ hs)) hnodup ?_ ?_
    · intro s hs heq
      exact hother s hs (Option.some.inj heq).symm
    · intro s hs hmem
      rcases List.mem_append.mp hmem with hmem | hmem
      · exact hcurrent s (List.mem_cons_of_mem _ hs) (Option.mem_toList.mp hmem)
      · exact hretired s (List.mem_cons_of_mem _ hs) hmem

end SequenceGate

/-- What a gate accepts is segmented; what is segmented it accepts in full; a frame that it
rejects leaves it as it was. -/
theorem gate_language (attemptId : String) (seat : SourceSeat) :
    (∀ frames, Segmented attemptId seat ((SequenceGate.fresh attemptId seat).feed frames).1) ∧
    (∀ frames, Segmented attemptId seat frames →
      ((SequenceGate.fresh attemptId seat).feed frames).1 = frames) ∧
    ∀ gate e error gate', (SequenceGate.run e).run gate = .error error gate' → gate' = gate := by
  refine ⟨?_, ?_, ?_⟩
  · intro frames
    obtain ⟨segments, hs, hframes⟩ := (Stands.fresh attemptId seat).feed frames
    have hall : Stands.frames segments =
        ((SequenceGate.fresh attemptId seat).feed frames).1 := hframes.trans (List.nil_append _)
    rw [← hall]
    exact hs.segmented
  · rintro frames ⟨segments, rfl, hepochs, hdistinct⟩
    refine SequenceGate.feed_segments segments rfl rfl hepochs hdistinct ?_ ?_
    · intro s _ hc
      cases hc
    · intro s _ hc
      exact List.not_mem_nil hc
  · intro gate e error gate' hr
    exact ((SequenceGate.run_ends gate e).of_error hr).1

end SwitchTrade.Tunnel

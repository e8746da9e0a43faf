import SwitchTrade.Tunnel.Envelope
import SwitchTrade.Transition.Fallible
import Mathlib.Data.List.Induction

/-!
# The sequence gate

`SequenceGate` accepts one contiguous stream of frames from one seat of one attempt. The
relay keeps a gate for each seat as long as the attempt lives; a client makes a fresh one
for each connection. `Epoch` is what one source epoch looks like on the wire; a fresh gate
accepts it in full (`accepts_epoch`).
-/

namespace SwitchTrade.Tunnel

open Fallible

structure SequenceGate where
  attemptId : String
  sourceSeat : SourceSeat
  epoch : Option Nat
  nextSequence : Nat
  retiredEpochs : List Nat
  deriving DecidableEq, Repr

namespace SequenceGate

def fresh (attemptId : String) (sourceSeat : SourceSeat) : SequenceGate :=
  { attemptId, sourceSeat, epoch := none, nextSequence := 0, retiredEpochs := [] }

/-- The start of a source epoch; the epoch before it retires. -/
def begin (gate : SequenceGate) (epoch : Nat) : SequenceGate :=
  { gate with
    retiredEpochs := gate.epoch.toList ++ gate.retiredEpochs
    epoch := some epoch
    nextSequence := 0 }

/-- `accept`. The gate changes before the last checks only when a new epoch starts, and
the first frame of an epoch passes them, so a frame that raises leaves the gate as it was. -/
def accept (gate : SequenceGate) (e : Envelope) : Except TunnelV2Error SequenceGate := do
  raiseIf (e.attemptId ≠ gate.attemptId)
    ⟨"C_ATTEMPT_MISMATCH", "frame belongs to another attempt"⟩
  raiseIf (e.sourceSeat ≠ gate.sourceSeat)
    ⟨"C_SOURCE_SEAT_MISMATCH", "frame came from the wrong seat"⟩
  raiseIf (e.sourceEpoch ∈ gate.retiredEpochs) ⟨"C_EPOCH_STALE", "source epoch is retired"⟩
  raiseIf (gate.epoch ≠ some e.sourceEpoch ∧ (e.sequence ≠ 0 ∨ e.kind ≠ .peerReady))
    ⟨"C_EPOCH_START_INVALID", "a source epoch must begin with PEER_READY sequence 0"⟩
  let gate := if gate.epoch = some e.sourceEpoch then gate else gate.begin e.sourceEpoch
  raiseIf (e.sequence < gate.nextSequence)
    ⟨"C_SEQUENCE_DUPLICATE", "frame sequence is duplicate or stale"⟩
  raiseIf (gate.nextSequence < e.sequence)
    ⟨"C_SEQUENCE_GAP", "frame sequence is not contiguous"⟩
  raiseIf (e.kind = .peerReady ∧ e.sequence ≠ 0)
    ⟨"C_PEER_READY_DUPLICATE", "PEER_READY may appear only at sequence 0"⟩
  return { gate with nextSequence := gate.nextSequence + 1 }

/-- The gate after a sequence of frames, each accepted. -/
def acceptAll (gate : SequenceGate) (frames : List Envelope) : Except TunnelV2Error SequenceGate :=
  frames.foldlM accept gate

/-- Everything an accepted frame does to the gate: it continues the epoch, or it starts one
that is not retired. -/
theorem accept_eq_ok {gate gate' : SequenceGate} {e : Envelope} :
    gate.accept e = .ok gate' ↔
      e.attemptId = gate.attemptId ∧ e.sourceSeat = gate.sourceSeat ∧
      e.sourceEpoch ∉ gate.retiredEpochs ∧
      ((gate.epoch = some e.sourceEpoch ∧ e.sequence = gate.nextSequence ∧
          (e.kind = .peerReady → e.sequence = 0) ∧
          gate' = { gate with nextSequence := gate.nextSequence + 1 }) ∨
        (gate.epoch ≠ some e.sourceEpoch ∧ e.sequence = 0 ∧ e.kind = .peerReady ∧
          gate' = { gate.begin e.sourceEpoch with nextSequence := 1 })) := by
  by_cases hcurrent : gate.epoch = some e.sourceEpoch
  · simp only [accept, bind_eq_ok, raiseIf_eq_ok, pure_eq_ok, hcurrent, ne_eq, not_true_eq_false,
      false_and, not_false_eq_true, if_true, exists_const, not_not, not_and, Nat.not_lt, true_and,
      or_false]
    constructor
    · rintro ⟨hattempt, hseat, hretired, hle, hge, hready, rfl⟩
      exact ⟨hattempt, hseat, hretired, Nat.le_antisymm hge hle, hready, rfl⟩
    · rintro ⟨hattempt, hseat, hretired, hseq, hready, rfl⟩
      exact ⟨hattempt, hseat, hretired, Nat.le_of_eq hseq.symm, Nat.le_of_eq hseq, hready, rfl⟩
  · simp only [accept, bind_eq_ok, raiseIf_eq_ok, pure_eq_ok, hcurrent, ne_eq, not_false_eq_true,
      true_and, not_or, not_not, if_false, begin, Nat.not_lt_zero, exists_const, not_and,
      false_and, false_or, Nat.pos_iff_ne_zero]
    constructor
    · rintro ⟨hattempt, hseat, hretired, ⟨hseq, hkind⟩, -, -, rfl⟩
      exact ⟨hattempt, hseat, hretired, hseq, hkind, rfl⟩
    · rintro ⟨hattempt, hseat, hretired, hseq, hkind, rfl⟩
      exact ⟨hattempt, hseat, hretired, ⟨hseq, hkind⟩, hseq, fun _ => hseq, rfl⟩

/-- After a frame its epoch is the current one. -/
theorem accept_epoch {gate gate' : SequenceGate} {e : Envelope} (h : gate.accept e = .ok gate') :
    gate'.epoch = some e.sourceEpoch := by
  obtain ⟨-, -, -, ⟨hepoch, -, -, rfl⟩ | ⟨-, -, -, rfl⟩⟩ := accept_eq_ok.mp h
  · exact hepoch
  · rfl

theorem accept_next {gate gate' : SequenceGate} {e : Envelope} (h : gate.accept e = .ok gate') :
    gate'.nextSequence = e.sequence + 1 := by
  obtain ⟨-, -, -, ⟨-, hsequence, -, rfl⟩ | ⟨-, hsequence, -, rfl⟩⟩ := accept_eq_ok.mp h
  · rw [hsequence]
  · rw [hsequence]

end SequenceGate

/-! ## One source epoch on the wire -/

/-- The frames of one epoch of a seat so far: `PEER_READY` with sequence 0, then contiguous
sequences of other kinds. -/
structure Epoch (attemptId : String) (seat : SourceSeat) (epoch : Nat) (frames : List Envelope) :
    Prop where
  attempt : ∀ e ∈ frames, e.attemptId = attemptId
  seat : ∀ e ∈ frames, e.sourceSeat = seat
  epoch : ∀ e ∈ frames, e.sourceEpoch = epoch
  sequence : ∀ (n : Nat) (e : Envelope), frames[n]? = some e → e.sequence = n
  start : ∀ (n : Nat) (e : Envelope), frames[n]? = some e → (e.kind = .peerReady ↔ n = 0)

namespace Epoch

variable {attemptId : String} {seat : SourceSeat} {epoch : Nat} {frames : List Envelope}

theorem nil : Epoch attemptId seat epoch [] := by
  constructor <;> simp

/-- An epoch goes on with its next frame. -/
theorem snoc (h : Epoch attemptId seat epoch frames) {e : Envelope}
    (hattempt : e.attemptId = attemptId)
    (hseat : e.sourceSeat = seat) (hepoch : e.sourceEpoch = epoch)
    (hsequence : e.sequence = frames.length) (hstart : e.kind = .peerReady ↔ frames.length = 0) :
    Epoch attemptId seat epoch (frames ++ [e]) := by
  have hlast : ∀ (n : Nat) (f : Envelope), (frames ++ [e])[n]? = some f →
      frames[n]? = some f ∨ (n = frames.length ∧ f = e) := by
    intro n f hf
    rcases Nat.lt_trichotomy n frames.length with hlt | rfl | hgt
    · rw [List.getElem?_append_left hlt] at hf
      exact .inl hf
    · simp only [List.getElem?_concat_length, Option.some.injEq] at hf
      exact .inr ⟨rfl, hf.symm⟩
    · rw [List.getElem?_eq_none (by simpa using Nat.succ_le_of_lt hgt)] at hf
      cases hf
  refine ⟨?_, ?_, ?_, ?_, ?_⟩
  · exact List.forall_mem_append.mpr ⟨h.attempt, List.forall_mem_singleton.mpr hattempt⟩
  · exact List.forall_mem_append.mpr ⟨h.seat, List.forall_mem_singleton.mpr hseat⟩
  · exact List.forall_mem_append.mpr ⟨h.epoch, List.forall_mem_singleton.mpr hepoch⟩
  · intro n f hf
    rcases hlast n f hf with hf | ⟨rfl, rfl⟩
    · exact h.sequence n f hf
    · exact hsequence
  · intro n f hf
    rcases hlast n f hf with hf | ⟨rfl, rfl⟩
    · exact h.start n f hf
    · exact hstart

theorem of_append {rest : List Envelope} (h : Epoch attemptId seat epoch (frames ++ rest)) :
    Epoch attemptId seat epoch frames := by
  have hleft : ∀ (n : Nat) (f : Envelope), frames[n]? = some f → (frames ++ rest)[n]? = some f := by
    intro n f hf
    rw [List.getElem?_append_left (List.getElem?_eq_some_iff.mp hf).1, hf]
  exact ⟨fun e he => h.attempt e (List.mem_append_left _ he),
    fun e he => h.seat e (List.mem_append_left _ he),
    fun e he => h.epoch e (List.mem_append_left _ he),
    fun n f hf => h.sequence n f (hleft n f hf), fun n f hf => h.start n f (hleft n f hf)⟩

theorem of_prefix {start : List Envelope} (h : Epoch attemptId seat epoch frames)
    (hstart : start <+: frames) : Epoch attemptId seat epoch start := by
  obtain ⟨rest, rfl⟩ := hstart
  exact h.of_append

/-- A fresh gate accepts an epoch in full, and stands at its end. -/
theorem accepts (h : Epoch attemptId seat epoch frames) :
    (SequenceGate.fresh attemptId seat).acceptAll frames = .ok
      { attemptId, sourceSeat := seat
        epoch := if frames = [] then none else some epoch
        nextSequence := frames.length, retiredEpochs := [] } := by
  induction frames using List.reverseRecOn with
  | nil => rfl
  | append_singleton frames e ih =>
    rw [SequenceGate.acceptAll, List.foldlM_append, bind_eq_ok]
    refine ⟨_, ih h.of_append, ?_⟩
    have hlast : (frames ++ [e])[frames.length]? = some e := by simp
    have hmem : e ∈ frames ++ [e] := by simp
    have hsequence := h.sequence _ e hlast
    have hstart := h.start _ e hlast
    rw [List.foldlM_cons, bind_eq_ok]
    refine ⟨_, SequenceGate.accept_eq_ok.mpr ⟨h.attempt e hmem, h.seat e hmem, by simp, ?_⟩, rfl⟩
    by_cases hnil : frames = []
    · subst hnil
      refine .inr ⟨by simp, hsequence, hstart.mpr rfl, ?_⟩
      simp [SequenceGate.begin, h.epoch e hmem]
    · refine .inl ⟨by simp [hnil, h.epoch e hmem], hsequence, fun hready => ?_, by simp [hnil]⟩
      rw [hsequence]
      exact hstart.mp hready

end Epoch

end SwitchTrade.Tunnel

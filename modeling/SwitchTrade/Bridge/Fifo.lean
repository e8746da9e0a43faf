import SwitchTrade.Bridge.C2Bridge
import SwitchTrade.Relay.Barrier
import Mathlib.Tactic.Common

/-!
# The order of the local frames of a C2 bridge

The bridge is a queue in the sense of `Transition.Fifo`: `send_rfu` enters frames, the
deque of local frames holds them, the calls of `client.send_rfu` take them out. Every
operation moves that queue as a queue moves, with one exception: once the bridge is
connected, `send_rfu` hands its frame over at once, also when older frames are still in the
deque. One pass of `_maybe_activate` takes 32 of them, so what decides is how many frames
wait and how often the pump inside `send_rfu` comes past it (`rounds`).
-/

namespace SwitchTrade.Bridge

open Tunnel Fallible Transition

namespace C2Bridge

/-- The local frames of a bridge as a queue. -/
def fifo (b : C2Bridge) : Fifo Frame := ⟨b.accepted, b.pendingLocal, b.handed⟩

/-- An operation on `b` moves its queue, whether it returns or raises, and neither cancels
nor seals the bridge. -/
structure Queues (b : C2Bridge) (outcome : Outcome) : Prop where
  moves : b.fifo.Moves (after outcome).fifo
  canceled : (after outcome).canceled = b.canceled
  sealed : (after outcome).sealed = b.sealed

variable {client : Client} {b b' : C2Bridge} {outcome : Outcome}

theorem Queues.of_eq (h : (after outcome).fifo = b.fifo)
    (hcanceled : (after outcome).canceled = b.canceled)
    (hsealed : (after outcome).sealed = b.sealed) : b.Queues outcome := by
  refine ⟨?_, hcanceled, hsealed⟩
  rw [h]
  exact Fifo.Moves.refl _

theorem Queues.bind {f : C2Bridge → Outcome} (h : b.Queues outcome)
    (hf : ∀ b', outcome = .ok b' → b'.Queues (f b')) : b.Queues (outcome >>= f) := by
  cases outcome with
  | error raised => exact h
  | ok b' =>
    have hlater := hf b' rfl
    exact ⟨h.moves.trans hlater.moves, hlater.canceled.trans h.canceled,
      hlater.sealed.trans h.sealed⟩

theorem Queues.foldlM {α : Type} {f : C2Bridge → α → Outcome}
    (hf : ∀ b x, Queues b (f b x)) (xs : List α) (b : C2Bridge) : b.Queues (xs.foldlM f b) := by
  induction xs generalizing b with
  | nil => exact .of_eq rfl rfl rfl
  | cons x xs ih =>
    rw [List.foldlM_cons]
    exact (hf b x).bind fun b' _ => ih b'

/-! ## Each operation moves the queue -/

theorem queues_fail (b : C2Bridge) (code gate message : String) :
    b.Queues (b.fail code gate message) :=
  .of_eq rfl rfl rfl

theorem queues_noteProof (b : C2Bridge) (proof : Nat) : b.Queues (.ok (b.noteProof proof)) := by
  unfold noteProof
  split <;> exact .of_eq rfl rfl rfl

theorem queues_sendSideReady (b : C2Bridge) (a : Answers) : b.Queues (b.sendSideReady a) := by
  unfold sendSideReady
  split
  · split
    · exact queues_fail ..
    · exact .of_eq rfl rfl rfl
  · exact .of_eq rfl rfl rfl

theorem queues_syncProof (b : C2Bridge) (a : Answers) : b.Queues (b.syncProof a) := by
  unfold syncProof
  split
  · exact queues_fail ..
  · refine (queues_noteProof b a.proof).bind (f := (·.sendSideReady a)) fun b' _ => ?_
    exact queues_sendSideReady b' a

theorem queues_acceptSideReady (client : Client) (b : C2Bridge) (e : Envelope) :
    b.Queues (b.acceptSideReady client e) := by
  unfold acceptSideReady
  split
  · exact queues_fail ..
  · exact .of_eq rfl rfl rfl
  · dsimp only
    repeat' split
    all_goals first | exact queues_fail .. | exact .of_eq rfl rfl rfl

theorem sendNow_fifo (client : Client) (b : C2Bridge) (frame : Frame) :
    (after (sendNow client b frame)).fifo = ⟨b.accepted, b.pendingLocal, b.handed ++ [frame]⟩ ∧
      (after (sendNow client b frame)).canceled = b.canceled ∧
      (after (sendNow client b frame)).sealed = b.sealed := by
  unfold sendNow
  dsimp only
  split <;> exact ⟨rfl, rfl, rfl⟩

theorem queues_drain (client : Client) (b : C2Bridge) (count : Nat) :
    b.Queues (b.drain client count) := by
  induction count generalizing b with
  | zero => exact .of_eq rfl rfl rfl
  | succ count ih =>
    unfold drain
    split
    · exact .of_eq rfl rfl rfl
    · rename_i frame rest hpending
      obtain ⟨hfifo, hcanceled, hsealed⟩ :=
        sendNow_fifo client { b with pendingLocal := rest } frame
      have hleave : b.fifo.Move ⟨b.accepted, rest, b.handed ++ [frame]⟩ := .leave hpending
      have hsent : b.Queues (sendNow client { b with pendingLocal := rest } frame) :=
        ⟨hfifo ▸ hleave.moves, hcanceled, hsealed⟩
      exact hsent.bind fun b' _ => ih b'

theorem queues_maybeActivate (client : Client) (b : C2Bridge) (proven : Bool) :
    b.Queues (b.maybeActivate client proven) := by
  have hactivate : b.Queues (.ok (b.activate proven)) := by
    unfold activate
    split <;> exact .of_eq rfl rfl rfl
  have hrelease : ∀ b : C2Bridge, b.Queues (b.release client) := by
    intro b
    unfold release
    split
    · exact queues_drain ..
    · exact .of_eq rfl rfl rfl
  refine (hactivate.bind (f := (·.release client)) fun b' _ => hrelease b').bind fun b' _ => ?_
  show b'.Queues (.ok b'.markActive)
  unfold markActive
  split <;> exact .of_eq rfl rfl rfl

theorem queues_pumpEnvelope (client : Client) (b : C2Bridge) (polled : Envelope × Bool) :
    b.Queues (pumpEnvelope client b polled) := by
  obtain ⟨e, proven⟩ := polled
  unfold pumpEnvelope
  dsimp only
  split
  · exact (queues_acceptSideReady ..).bind fun b' _ => queues_maybeActivate ..
  · repeat' split
    all_goals first | exact queues_fail .. | exact .of_eq rfl rfl rfl
  · exact queues_fail ..
  · exact .of_eq rfl rfl rfl

theorem queues_pump (client : Client) (b : C2Bridge) (a : Answers) :
    b.Queues (b.pump client a) := by
  unfold pump
  split
  · exact .of_eq rfl rfl rfl
  · split
    · exact .of_eq rfl rfl rfl
    · split
      · exact .of_eq rfl rfl rfl
      · refine (queues_syncProof b a).bind fun b₁ _ => ?_
        refine (Queues.foldlM (queues_pumpEnvelope client) a.polled b₁).bind fun b₂ _ => ?_
        exact queues_maybeActivate ..

theorem queues_checkRfu (b : C2Bridge) (frame : Frame) : b.Queues (b.checkRfu frame) := by
  unfold checkRfu
  repeat' split
  all_goals exact .of_eq rfl rfl rfl

/-- The choice of `send_rfu` moves the queue when no older frame waits behind a barrier that
is already open. -/
theorem queues_place (client : Client) (b : C2Bridge) (a : Answers) (frame : Frame)
    (hempty : b.connected = true → b.pendingLocal = []) : b.Queues (b.place client a frame) := by
  unfold place
  split
  · rename_i hconnected
    obtain ⟨hfifo, hcanceled, hsealed⟩ :=
      sendNow_fifo client { b with accepted := b.accepted ++ [frame] } frame
    have hpass : b.fifo.Move ⟨b.accepted ++ [frame], b.pendingLocal, b.handed ++ [frame]⟩ :=
      .pass frame (hempty hconnected)
    have hsent : b.Queues (sendNow client { b with accepted := b.accepted ++ [frame] } frame) :=
      ⟨hfifo ▸ hpass.moves, hcanceled, hsealed⟩
    exact hsent.bind fun b' _ => queues_maybeActivate ..
  · split
    · exact queues_fail ..
    · have henter : b.fifo.Move ⟨b.accepted ++ [frame], b.pendingLocal ++ [frame], b.handed⟩ :=
        .enter b.fifo frame
      exact ⟨henter.moves, rfl, rfl⟩

/-! ## How far a pump empties the deque -/

/-- The readings of `data_plane_proven` after each polled `SIDE_READY`. -/
def readings (polled : List (Envelope × Bool)) : List Bool :=
  (polled.filter (·.1.kind = .sideReady)).map (·.2)

/-- How often a pump that ends connected comes past the open barrier, `connected` at its
start: at each `SIDE_READY` from the one that opens it on, and at the end. -/
def passes (connected : Bool) : List Bool → Nat
  | [] => 1
  | proven :: later =>
    if connected || proven then passes true later + 1 else passes false later

def rounds (b : C2Bridge) (a : Answers) : Nat :=
  passes (b.connected && a.proof = b.proofGeneration) (readings a.polled)

/-- The own `SIDE_READY` was sent in the current proof. -/
def Armed (b : C2Bridge) : Prop :=
  b.localSentProof = b.proofGeneration ∧ b.proofGeneration ≠ 0

theorem drain_ok {count : Nat} (h : b.drain client count = .ok b') :
    b'.pendingLocal = b.pendingLocal.drop count ∧ b'.connected = b.connected ∧
      (b'.Armed ↔ b.Armed) := by
  induction count generalizing b with
  | zero =>
    cases h
    exact ⟨rfl, rfl, Iff.rfl⟩
  | succ count ih =>
    unfold drain at h
    split at h
    · rename_i hpending
      cases h
      exact ⟨by simp [hpending], rfl, Iff.rfl⟩
    · rename_i frame rest hpending
      obtain ⟨b₁, hsent, h⟩ := bind_eq_ok.mp h
      unfold sendNow at hsent
      dsimp only at hsent
      split at hsent
      · cases hsent
      · cases hsent
        obtain ⟨hdrop, hconnected, harmed⟩ := ih h
        exact ⟨by rw [hdrop, hpending, List.drop_succ_cons], hconnected, harmed⟩

/-- One `_maybe_activate` that returns. -/
theorem maybeActivate_ok {proven : Bool} (h : b.maybeActivate client proven = .ok b') :
    b'.connected = (b.activate proven).connected ∧ (b'.Armed ↔ b.Armed) ∧
      (b'.connected = true → b'.pendingLocal = b.pendingLocal.drop 32) ∧
      (b'.connected = false → b'.pendingLocal = b.pendingLocal) := by
  obtain ⟨b₁, hrelease, h⟩ := bind_eq_ok.mp h
  obtain rfl := pure_eq_ok.mp h
  have hactivate : (b.activate proven).pendingLocal = b.pendingLocal ∧
      ((b.activate proven).Armed ↔ b.Armed) := by
    unfold activate
    split <;> exact ⟨rfl, Iff.rfl⟩
  have hmark : b₁.markActive.connected = b₁.connected ∧
      b₁.markActive.pendingLocal = b₁.pendingLocal ∧ (b₁.markActive.Armed ↔ b₁.Armed) := by
    unfold markActive
    split <;> exact ⟨rfl, rfl, Iff.rfl⟩
  unfold release at hrelease
  split at hrelease
  · rename_i hconnected
    obtain ⟨hdrop, hsame, harmed⟩ := drain_ok hrelease
    refine ⟨hmark.1.trans hsame, hmark.2.2.trans (harmed.trans hactivate.2), fun _ => ?_, ?_⟩
    · rw [hmark.2.1, hdrop, hactivate.1]
      rcases Nat.le_total b.pendingLocal.length 32 with hshort | hlong
      · rw [Nat.min_eq_right hshort, List.drop_length, List.drop_eq_nil_of_le hshort]
      · rw [Nat.min_eq_left hlong]
    · intro hopen
      rw [hmark.1, hsame, hconnected] at hopen
      cases hopen
  · rename_i hclosed
    cases hrelease
    refine ⟨hmark.1, hmark.2.2.trans hactivate.2, ?_, fun _ => hmark.2.1.trans hactivate.1⟩
    intro hopen
    rw [hmark.1] at hopen
    exact absurd hopen hclosed

theorem acceptSideReady_ok {e : Envelope} (h : b.acceptSideReady client e = .ok b') :
    ∃ key, b' = { b with peerReadyKey := some key } := by
  unfold acceptSideReady at h
  split at h
  · cases h
  · cases h
  · dsimp only at h
    repeat' split at h
    all_goals first
      | (cases h; exact ⟨_, rfl⟩)
      | cases h

theorem activate_connected {proven : Bool} (hready : b.peerReadyKey.isSome = true) :
    (b.activate proven).connected = true ↔ b.connected = true ∨ b.Armed ∧ proven = true := by
  unfold activate Armed
  split
  · rename_i hopens
    obtain ⟨hsent, -, hproof, hproven, -⟩ := hopens
    exact iff_of_true rfl (.inr ⟨⟨hsent, hproof⟩, hproven⟩)
  · rename_i hstays
    constructor
    · exact .inl
    · rintro (hconnected | ⟨⟨hsent, hproof⟩, hproven⟩)
      · exact hconnected
      · by_contra hclosed
        exact hstays ⟨hsent, hready, hproof, hproven, by simpa using hclosed⟩

theorem armed_of_activate {proven : Bool} (h : (b.activate proven).connected = true) :
    b.connected = true ∨ b.Armed := by
  unfold activate at h
  split at h
  · rename_i hopens
    exact .inr ⟨hopens.1, hopens.2.2.1⟩
  · exact .inl h

theorem pumpEnvelope_ok_other {e : Envelope} {proven : Bool} (hkind : e.kind ≠ .sideReady)
    (h : pumpEnvelope client b (e, proven) = .ok b') :
    b'.connected = b.connected ∧ b'.pendingLocal = b.pendingLocal ∧ (b'.Armed ↔ b.Armed) := by
  unfold pumpEnvelope at h
  dsimp only at h
  split at h
  · contradiction
  · repeat' split at h
    all_goals cases h
    exact ⟨rfl, rfl, Iff.rfl⟩
  · cases h
  · cases h
    exact ⟨rfl, rfl, Iff.rfl⟩

theorem pumpEnvelope_ok_sideReady {e : Envelope} {proven : Bool} (hkind : e.kind = .sideReady)
    (h : pumpEnvelope client b (e, proven) = .ok b') :
    (b'.connected = true ↔ b.connected = true ∨ b.Armed ∧ proven = true) ∧
      (b'.Armed ↔ b.Armed) ∧
      (b'.connected = true → b'.pendingLocal = b.pendingLocal.drop 32) ∧
      (b'.connected = false → b'.pendingLocal = b.pendingLocal) := by
  unfold pumpEnvelope at h
  simp only [hkind] at h
  obtain ⟨b₁, haccept, h⟩ := bind_eq_ok.mp h
  obtain ⟨key, rfl⟩ := acceptSideReady_ok haccept
  obtain ⟨hconnected, harmed, hopen, hclosed⟩ := maybeActivate_ok h
  refine ⟨?_, harmed, hopen, hclosed⟩
  rw [hconnected]
  exact activate_connected rfl

/-- A bridge that is not connected and has not sent its `SIDE_READY` stays closed. -/
theorem armed_of_pumped {polled : List (Envelope × Bool)} {proven : Bool} {b₁ : C2Bridge}
    (hfold : polled.foldlM (pumpEnvelope client) b = .ok b₁)
    (hlast : b₁.maybeActivate client proven = .ok b') (hopen : b'.connected = true) :
    b.connected = true ∨ b.Armed := by
  have hstep : ∀ (b₁ : C2Bridge) (x : Envelope × Bool) (b₂ : C2Bridge),
      (b₁.connected = true ∨ b₁.Armed → b.connected = true ∨ b.Armed) →
      pumpEnvelope client b₁ x = .ok b₂ →
      (b₂.connected = true ∨ b₂.Armed → b.connected = true ∨ b.Armed) := by
    rintro b₁ ⟨e, reading⟩ b₂ hback hx hafter
    by_cases hkind : e.kind = .sideReady
    · obtain ⟨hconnected, harmed, -⟩ := pumpEnvelope_ok_sideReady hkind hx
      rw [hconnected, harmed] at hafter
      tauto
    · obtain ⟨hconnected, -, harmed⟩ := pumpEnvelope_ok_other hkind hx
      rw [hconnected, harmed] at hafter
      exact hback hafter
  have hback := foldlM_keeps hstep hfold id
  rw [(maybeActivate_ok hlast).1] at hopen
  exact hback (armed_of_activate hopen)

/-- A pump that ends connected took 32 frames each time it came past the open barrier. -/
theorem pumped_drop {polled : List (Envelope × Bool)} {proven : Bool} {b₁ : C2Bridge}
    (hfold : polled.foldlM (pumpEnvelope client) b = .ok b₁)
    (hlast : b₁.maybeActivate client proven = .ok b') (hopen : b'.connected = true) :
    b'.pendingLocal = b.pendingLocal.drop (32 * passes b.connected (readings polled)) := by
  induction polled generalizing b with
  | nil =>
    obtain rfl := pure_eq_ok.mp hfold
    exact (maybeActivate_ok hlast).2.2.1 hopen
  | cons x polled ih =>
    obtain ⟨e, reading⟩ := x
    have harmed := armed_of_pumped hfold hlast hopen
    rw [List.foldlM_cons] at hfold
    obtain ⟨b₂, hx, hfold⟩ := bind_eq_ok.mp hfold
    rw [ih hfold]
    by_cases hkind : e.kind = .sideReady
    · obtain ⟨hconnected, -, hdrop, hkeep⟩ := pumpEnvelope_ok_sideReady hkind hx
      have hreadings : readings ((e, reading) :: polled) = reading :: readings polled := by
        simp [readings, hkind]
      rw [hreadings]
      by_cases hpass : b.connected = true ∨ reading = true
      · have hb₂ : b₂.connected = true := by
          rw [hconnected]
          tauto
        rw [hdrop hb₂, List.drop_drop, hb₂]
        have hsum : passes b.connected (reading :: readings polled) =
            passes true (readings polled) + 1 := by
          simp only [passes, Bool.or_eq_true, if_pos hpass]
        rw [hsum]
        congr 1
        omega
      · have hb₂ : b₂.connected = false := by
          rw [← Bool.not_eq_true, hconnected]
          tauto
        have hsame : passes b.connected (reading :: readings polled) =
            passes false (readings polled) := by
          simp only [passes, Bool.or_eq_true, if_neg hpass]
        rw [hkeep hb₂, hb₂, hsame]
    · obtain ⟨hconnected, hkeep, -⟩ := pumpEnvelope_ok_other hkind hx
      have hreadings : readings ((e, reading) :: polled) = readings polled := by
        simp [readings, hkind]
      rw [hconnected, hkeep, hreadings]

theorem syncProof_ok {a : Answers} (h : b.syncProof a = .ok b') :
    b'.pendingLocal = b.pendingLocal ∧
      b'.connected = (b.connected && a.proof = b.proofGeneration) := by
  have hnote : (b.noteProof a.proof).pendingLocal = b.pendingLocal ∧
      (b.noteProof a.proof).connected = (b.connected && a.proof = b.proofGeneration) := by
    unfold noteProof
    split
    · rename_i hother
      exact ⟨rfl, by simp [hother, invalidate]⟩
    · rename_i hsame
      exact ⟨rfl, by simp [not_not.mp hsame]⟩
  unfold syncProof at h
  split at h
  · cases h
  · unfold sendSideReady at h
    repeat' split at h
    all_goals cases h
    all_goals exact hnote

theorem pump_drop {a : Answers} (hsealed : b.sealed = false) (hcanceled : b.canceled = false)
    (h : b.pump client a = .ok b') (hopen : b'.connected = true) :
    b'.pendingLocal = b.pendingLocal.drop (32 * b.rounds a) := by
  unfold pump at h
  rw [if_neg (by simp [hsealed])] at h
  split at h
  · cases h
  · rw [if_neg (by simp [hcanceled])] at h
    obtain ⟨b₀, hsync, h⟩ := bind_eq_ok.mp h
    obtain ⟨b₁, hfold, h⟩ := bind_eq_ok.mp h
    obtain ⟨hpending, hconnected⟩ := syncProof_ok hsync
    rw [pumped_drop hfold h hopen, hpending, hconnected]
    rfl

/-! ## A bridge that has ended -/

/-- Neither a sealed nor a failed bridge hands anything over. -/
def Ended (b : C2Bridge) : Prop := b.sealed = true ∨ b.failure ≠ none

/-- At most the failure and flags outside the queue changed. -/
structure Rests (b b' : C2Bridge) : Prop where
  fifo : b'.fifo = b.fifo
  canceled : b'.canceled = b.canceled
  sealed : b'.sealed = b.sealed
  failure : b.failure ≠ none → b'.failure ≠ none

theorem Rests.refl (b : C2Bridge) : b.Rests b := ⟨rfl, rfl, rfl, id⟩

theorem rests_fail (b : C2Bridge) (code gate message : String) :
    b.Rests (after (b.fail code gate message)) := by
  refine ⟨rfl, rfl, rfl, fun _ => ?_⟩
  simp [fail, after]

theorem pump_ended (a : Answers) (h : b.Ended) :
    b.sealed = true ∧ b.pump client a = .ok b ∨
      b.sealed = false ∧ ∃ raised, b.pump client a = .error (raised, b) := by
  unfold pump
  cases hsealed : b.sealed
  · obtain ⟨failure, hfailure⟩ := Option.ne_none_iff_exists'.mp
      (h.resolve_left (by simp [hsealed]))
    refine .inr ⟨rfl, .stage failure, ?_⟩
    simp [hfailure]
  · exact .inl ⟨rfl, by simp⟩

theorem rests_pump (client : Client) (a : Answers) (h : b.Ended) :
    b.Rests (after (b.pump client a)) := by
  rcases @pump_ended client b a h with ⟨-, hpump⟩ | ⟨-, raised, hpump⟩
  all_goals
    rw [hpump]
    exact .refl b

theorem rests_poll (client : Client) (a : Answers) (limit : Nat) (h : b.Ended) :
    b.Rests (after (b.poll client a limit)) := by
  unfold poll
  split
  · exact .refl b
  · rename_i hopen
    rcases @pump_ended client b a h with ⟨hsealed, -⟩ | ⟨-, raised, hpump⟩
    · exact absurd hsealed hopen
    · rw [hpump]
      exact .refl b

theorem rests_markLocalReady (client : Client) (a : Answers) (gate : String) (h : b.Ended) :
    b.Rests (after (b.markLocalReady client a gate)) := by
  unfold markLocalReady
  split
  · exact rests_fail ..
  · split
    · exact rests_fail ..
    · split
      · exact rests_fail ..
      · have hmarked : Ended { b with localGate := some gate } := h
        obtain ⟨hfifo, hcanceled, hsealed, hfailure⟩ := rests_pump client a hmarked
        exact ⟨hfifo, hcanceled, hsealed, hfailure⟩

theorem checkRfu_ok {frame : Frame} (h : b.checkRfu frame = .ok b') :
    b' = b ∧ b.sealed = false := by
  unfold checkRfu at h
  split at h
  · cases h
  · rename_i hopen
    repeat' split at h
    all_goals cases h
    exact ⟨rfl, by simpa using hopen⟩

theorem rests_checkRfu (b : C2Bridge) (frame : Frame) : b.Rests (after (b.checkRfu frame)) := by
  unfold checkRfu
  split
  · exact .refl b
  · repeat' split
    all_goals first | exact rests_fail .. | exact .refl b

theorem rests_sendRfu (client : Client) (a : Answers) (frame : Frame) (h : b.Ended) :
    b.Rests (after (b.sendRfu client a frame)) := by
  have hcheck := rests_checkRfu b frame
  unfold sendRfu
  cases hresult : b.checkRfu frame with
  | error raised =>
    rw [hresult] at hcheck
    exact hcheck
  | ok b₁ =>
    obtain ⟨rfl, hopen⟩ := checkRfu_ok hresult
    rcases @pump_ended client b₁ a h with ⟨hsealed, -⟩ | ⟨-, raised, hpump⟩
    · rw [hopen] at hsealed
      cases hsealed
    · show b₁.Rests (after (b₁.pump client a >>= (·.place client a frame)))
      rw [hpump]
      exact .refl b₁

/-! ## The order along every run -/

/-- Whether `send_rfu` hands its frame over at once. -/
def direct (client : Client) (b : C2Bridge) (a : Answers) (frame : Frame) : Bool :=
  match (do let b ← b.checkRfu frame; b.pump client a) with
  | .ok b => b.connected
  | .error _ => false

/-- A `send_rfu` that hands its frame over at once starts with no more frames in the deque
than its pump takes out. -/
def InOrder (client : Client) (b : C2Bridge) : Call → Prop
  | .sendRfu a frame =>
    b.direct client a frame = true → b.pendingLocal.length ≤ 32 * b.rounds a
  | _ => True

instance (client : Client) (b : C2Bridge) : (call : Call) → Decidable (b.InOrder client call)
  | .sendRfu a frame =>
    inferInstanceAs (Decidable
      (b.direct client a frame = true → b.pendingLocal.length ≤ 32 * b.rounds a))
  | .markLocalReady .. | .pump .. | .poll .. | .cancel | .finishDrain .. => .isTrue trivial

/-- An open bridge is a faithful queue; what a bridge that has ended handed over stays a
beginning of what it accepted. -/
structure Orderly (b : C2Bridge) : Prop where
  handed : b.handed <+: b.accepted
  faithful : b.sealed = false → b.canceled = false → b.fifo.Faithful
  canceled : b.canceled = true → b.failure ≠ none ∧ b.pendingLocal = []

theorem Orderly.fresh : Orderly .fresh :=
  ⟨List.nil_prefix, fun _ _ => rfl, nofun⟩

theorem Orderly.rests (h : b.Orderly) (hrests : b.Rests b') : b'.Orderly := by
  obtain ⟨hfifo, hcanceled, hsealed, hfailure⟩ := hrests
  obtain ⟨haccepted, hpending, hhanded⟩ := Fifo.mk.inj hfifo
  refine ⟨?_, ?_, ?_⟩
  · rw [haccepted, hhanded]
    exact h.handed
  · rw [hfifo, hsealed, hcanceled]
    exact h.faithful
  · rw [hcanceled, hpending]
    intro hcancel
    exact ⟨hfailure (h.canceled hcancel).1, (h.canceled hcancel).2⟩

theorem Orderly.queues (h : b.Orderly) (hqueues : b.Queues outcome) (hsealed : b.sealed = false)
    (hcanceled : b.canceled = false) : (after outcome).Orderly := by
  have hfaithful : (after outcome).fifo.Faithful :=
    hqueues.moves.faithful (h.faithful hsealed hcanceled)
  refine ⟨hfaithful.left_prefix, fun _ _ => hfaithful, ?_⟩
  rw [hqueues.canceled, hcanceled]
  exact nofun

theorem queues_poll (client : Client) (b : C2Bridge) (a : Answers) (limit : Nat) :
    b.Queues (b.poll client a limit) := by
  unfold poll
  split
  · exact .of_eq rfl rfl rfl
  · exact (queues_pump client b a).bind fun b' _ => .of_eq rfl rfl rfl

theorem queues_markLocalReady (client : Client) (b : C2Bridge) (a : Answers) (gate : String) :
    b.Queues (b.markLocalReady client a gate) := by
  unfold markLocalReady
  split
  · exact queues_fail ..
  · split
    · exact queues_fail ..
    · split
      · exact queues_fail ..
      · obtain ⟨hmoves, hcanceled, hsealed⟩ :=
          queues_pump client { b with localGate := some gate } a
        exact ⟨hmoves, hcanceled, hsealed⟩

theorem queues_sendRfu {a : Answers} {frame : Frame} (hguard : b.InOrder client (.sendRfu a frame))
    (hsealed : b.sealed = false) (hcanceled : b.canceled = false) :
    b.Queues (b.sendRfu client a frame) := by
  refine (queues_checkRfu b frame).bind fun b₁ hcheck => ?_
  refine Queues.bind ?_ fun b₂ hpump => ?_
  · exact queues_pump client b₁ a
  · apply queues_place
    intro hopen
    have hdirect : b.direct client a frame = true := by
      unfold direct
      rw [hcheck]
      show (match b₁.pump client a with | .ok b => b.connected | .error _ => false) = true
      rw [hpump]
      exact hopen
    have hlength := hguard hdirect
    obtain ⟨rfl, -⟩ := checkRfu_ok hcheck
    rw [pump_drop hsealed hcanceled hpump hopen]
    exact List.drop_eq_nil_of_le hlength

theorem Orderly.cancel (h : b.Orderly) : b.cancel.Orderly := by
  unfold C2Bridge.cancel
  split
  · exact h
  · exact ⟨h.handed, fun _ => nofun, fun _ => ⟨by simp, rfl⟩⟩

/-- `finish_drain` hands over what waits in order, up to where it stops. -/
theorem flush_spec (client : Client) (frames : List Frame) (b : C2Bridge)
    (hpending : b.pendingLocal = frames) :
    b.fifo.Moves (b.flush client frames).fifo ∧
      (b.flush client frames).canceled = b.canceled := by
  induction frames generalizing b with
  | nil => exact ⟨Fifo.Moves.refl _, rfl⟩
  | cons frame rest ih =>
    have hleave : b.fifo.Move ⟨b.accepted, rest, b.handed ++ [frame]⟩ := .leave hpending
    unfold flush
    dsimp only
    split
    · exact ⟨hleave.moves, rfl⟩
    · obtain ⟨hmoves, hcanceled⟩ :=
        ih { b with pendingLocal := rest, handed := b.handed ++ [frame] } rfl
      exact ⟨hleave.moves.trans hmoves, hcanceled⟩

theorem Orderly.finishDrain (h : b.Orderly) (completed : Bool) :
    (b.finishDrain client completed).Orderly := by
  unfold C2Bridge.finishDrain
  split
  · exact h
  · rename_i hopen
    have hsealed : b.sealed = false := by simpa using hopen
    dsimp only
    split
    · cases hcanceled : b.canceled
      · obtain ⟨hmoves, hkeeps⟩ := flush_spec client b.pendingLocal b rfl
        have hfaithful := hmoves.faithful (h.faithful hsealed hcanceled)
        refine ⟨hfaithful.left_prefix, nofun, ?_⟩
        rw [hkeeps, hcanceled]
        exact nofun
      · obtain ⟨hfailure, hnone⟩ := h.canceled hcanceled
        rw [hnone]
        exact ⟨h.handed, nofun, fun _ => ⟨hfailure, rfl⟩⟩
    · exact ⟨h.handed, nofun, fun hcanceled => ⟨(h.canceled hcanceled).1, rfl⟩⟩

theorem Orderly.step {call : Call} (h : b.Orderly) (hguard : b.InOrder client call) :
    (b.step client call).Orderly := by
  by_cases hopen : b.sealed = false ∧ b.canceled = false
  · obtain ⟨hsealed, hcanceled⟩ := hopen
    cases call with
    | markLocalReady a gate => exact h.queues (queues_markLocalReady ..) hsealed hcanceled
    | pump a => exact h.queues (queues_pump ..) hsealed hcanceled
    | poll a limit => exact h.queues (queues_poll ..) hsealed hcanceled
    | sendRfu a frame => exact h.queues (queues_sendRfu hguard hsealed hcanceled) hsealed hcanceled
    | cancel => exact h.cancel
    | finishDrain completed => exact h.finishDrain completed
  · have hended : b.Ended := by
      by_cases hsealed : b.sealed = true
      · exact .inl hsealed
      · refine .inr (h.canceled ?_).1
        simpa [hsealed] using hopen
    cases call with
    | markLocalReady a gate => exact h.rests (rests_markLocalReady client a gate hended)
    | pump a => exact h.rests (rests_pump client a hended)
    | poll a limit => exact h.rests (rests_poll client a limit hended)
    | sendRfu a frame => exact h.rests (rests_sendRfu client a frame hended)
    | cancel => exact h.cancel
    | finishDrain completed => exact h.finishDrain completed

end C2Bridge

/-- In every run that keeps to `InOrder`, what was handed to `client.send_rfu` is at every
moment a beginning of what `send_rfu` accepted. -/
theorem handed_prefix_accepted {client : Client} {b : C2Bridge}
    (h : (system client).Reachable (C2Bridge.InOrder client) b) : b.handed <+: b.accepted := by
  have horderly : b.Orderly := by
    refine System.Reachable.invariant (P := C2Bridge.Orderly) ?_ ?_ h
    · rintro b rfl
      exact .fresh
    · intro b call b' hb hguard hnext
      obtain rfl := Option.some.inj hnext
      exact hb.step hguard
  exact horderly.handed

theorem reachable_of_play {client : Client} {G : C2Bridge → Call → Prop}
    [∀ b call, Decidable (G b call)] {calls : List Call} {b : C2Bridge}
    (h : System.play (C2Bridge.next client) G .fresh calls = some b) :
    (system client).Reachable G b :=
  ⟨.fresh, rfl, System.run_of_play h⟩

/-! Frames are sent while the peer's `SIDE_READY` is on its way. -/

/-- The client of seat B, whose every call succeeds. -/
def hostClient : Client where
  binding :=
    { runId := Relay.clientRunId .memberB
      attemptId := "attempt"
      sourceSeat := .memberB
      switchRole := .bApHost
      activationGeneration := 1
      advertisementSha256 := Relay.piaSha256 }
  decodeSideReady := Relay.clientLibrary.decodeSideReady
  sends _ := none

/-- A frame of seat A's client. -/
def fromPeer (sequence : Nat) (kind : Kind) (payload : Bytes) : Envelope :=
  { attemptId := "attempt", sourceSeat := .memberA, sourceEpoch := 7, sequence, kind, payload }

def peerSideReady : Envelope := fromPeer 4 .sideReady (Relay.clientReadyBytes .memberA)

/-- `early` frames before the `SIDE_READY` arrives, and one with which it arrives. -/
def sendsAround (early : Nat) : List Call :=
  .markLocalReady { proof := 1, proven := true } "B_READY" ::
    List.replicate early (.sendRfu { proof := 1, proven := true } ([0], 1)) ++
    [.sendRfu { proof := 1, polled := [(peerSideReady, true)], proven := true, provenAfter := true }
      ([1], 1)]

theorem handed_prefix_accepted_around :
    ∃ b, System.play (C2Bridge.next hostClient) (C2Bridge.InOrder hostClient) .fresh
        (sendsAround 64) = some b ∧
      b.failure = none ∧ b.handed.length = 65 ∧ b.handed <+: b.accepted := by
  obtain ⟨b, hb, hsent⟩ := (Option.any_eq_true _ _).mp
    (show (System.play (C2Bridge.next hostClient) (C2Bridge.InOrder hostClient) .fresh
      (sendsAround 64)).any fun b => b.failure.isNone && b.handed.length = 65 by decide +kernel)
  simp only [Bool.and_eq_true, Option.isNone_iff_eq_none, decide_eq_true_eq] at hsent
  exact ⟨b, hb, hsent.1, hsent.2, handed_prefix_accepted (reachable_of_play hb)⟩

/-- One frame more, and the last one overtakes it. -/
theorem direct_frame_overtakes :
    ¬ ∀ (client : Client) (b : C2Bridge), (system client).Reachable System.Free b →
      b.failure = none → b.canceled = false → b.handed <+: b.accepted := by
  intro h
  have hrun : (System.play (C2Bridge.next hostClient) System.Free .fresh (sendsAround 65)).any
      fun b => b.failure.isNone && !b.canceled && !b.handed.isPrefixOf b.accepted := by
    decide +kernel
  obtain ⟨b, hb, hovertaken⟩ := (Option.any_eq_true _ _).mp hrun
  simp only [Bool.and_eq_true, Option.isNone_iff_eq_none, Bool.not_eq_true'] at hovertaken
  obtain ⟨⟨hfailure, hcanceled⟩, hfollows⟩ := hovertaken
  have hordered := h hostClient b (reachable_of_play hb) hfailure hcanceled
  rw [List.isPrefixOf_iff_prefix.mpr hordered] at hfollows
  cases hfollows

end SwitchTrade.Bridge

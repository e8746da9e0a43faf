import SwitchTrade.Bridge.Fifo
import Mathlib.Algebra.Order.Group.Multiset
import Mathlib.Tactic.Abel

/-!
# What becomes of the frames of a C2 bridge

The report of `finish_drain` is the only account a bridge gives of the frames it did not
deliver. `Ledger` is what an observer of the bridge writes down: the local frames that
`send_rfu` accepted, the remote RFU frames that `client.poll()` yielded, those that `poll`
returned and an invalidation dropped, and the report. The two sides balance as long as no
frame is lost on the way: by a pop before a call that raises, by a pump that stops inside a
batch, by a cancel that clears the queues.
-/

namespace SwitchTrade.Bridge

open Tunnel Fallible Transition

/-- What `finish_drain` returns. -/
structure DrainResult where
  admissionStopped : Bool
  pendingLocalFrames : Nat
  flushedLocalFrames : Nat
  discardedLocalFrames : Nat
  discardedRemoteFrames : Nat
  errorCode : Option String
  deriving DecidableEq, Repr

/-- What an observer of a bridge writes down. -/
structure Ledger where
  accepted : List Frame
  taken : List Envelope
  returned : List Envelope
  dropped : List Envelope
  drained : Option DrainResult
  deriving DecidableEq, Repr

namespace C2Bridge

/-! ## Entries -/

/-- How many frames of the queue the `while` of `finish_drain` hands over without an error. -/
def flushed (client : Client) : Nat → List Frame → Nat
  | _, [] => 0
  | calls, _ :: rest =>
    match client.sends calls with
    | some _ => 0
    | none => flushed client (calls + 1) rest + 1

/-- The report of the first `finish_drain`. -/
def drainResult (client : Client) (b : C2Bridge) (completed : Bool) : DrainResult :=
  let flushing := completed && b.connected
  let flushedLocal := if flushing then flushed client b.handed.length b.pendingLocal else 0
  let unsentPopped := if flushing && flushedLocal < b.pendingLocal.length then 1 else 0
  let left := (if flushing then b.flush client b.pendingLocal else b).pendingLocal.length
  { admissionStopped := true
    pendingLocalFrames := b.pendingLocal.length
    flushedLocalFrames := flushedLocal
    discardedLocalFrames := left + unsentPopped
    discardedRemoteFrames := b.pendingRemote.length
    errorCode :=
      if unsentPopped ≠ 0 then some "D_BRIDGE_FLUSH_FAILED"
      else if completed ∧ ¬ b.connected ∧ b.pendingLocal ≠ [] then some "D_BRIDGE_UNFLUSHED"
      else none }

/-- The pump gets as far as reading the proof of the client. -/
def pumps (b : C2Bridge) : Bool := !b.sealed && b.failure.isNone && !b.canceled

/-- The RFU frames of a batch. -/
def rfuFrames (polled : List (Envelope × Bool)) : List Envelope :=
  (polled.map (·.1)).filter (·.kind = .rfu)

/-- The RFU frames the pump takes from the client. -/
def takes (b : C2Bridge) (a : Answers) : List Envelope :=
  if b.pumps then
    match b.syncProof a with
    | .ok _ => rfuFrames a.polled
    | .error _ => []
  else []

/-- The remote frames the pump drops because the proof is another one. -/
def drops (b : C2Bridge) (a : Answers) : List Envelope :=
  if b.pumps ∧ a.lastErrorCode = "" ∧ a.proof ≠ b.proofGeneration then b.pendingRemote else []

/-- The frames `poll` returns. -/
def polls (client : Client) (b : C2Bridge) (a : Answers) (limit : Nat) : List Envelope :=
  if b.sealed then []
  else
    match b.pump client a with
    | .ok b => b.pendingRemote.take limit
    | .error _ => []

/-- The end of `send_rfu` takes the frame: the client does, or the queue. -/
def admits (client : Client) (b : C2Bridge) : Bool :=
  if b.connected then (client.sends b.handed.length).isNone
  else b.pendingLocal.length < maxPreBarrierFrames

end C2Bridge

namespace Ledger

def empty : Ledger :=
  { accepted := [], taken := [], returned := [], dropped := [], drained := none }

/-- What a pump adds. -/
def pump (l : Ledger) (b : C2Bridge) (a : Answers) : Ledger :=
  { l with taken := l.taken ++ b.takes a, dropped := l.dropped ++ b.drops a }

/-- What a call adds; `b` is the bridge before it. -/
def note (client : Client) (l : Ledger) (b : C2Bridge) : Call → Ledger
  | .markLocalReady a gate =>
    if gate ≠ client.binding.switchRole.gate ∨ b.canceled ∨ b.localGate.any (· ≠ gate) then l
    else l.pump { b with localGate := some gate } a
  | .pump a => l.pump b a
  | .poll a limit =>
    { l.pump b a with returned := l.returned ++ b.polls client a limit }
  | .sendRfu a frame =>
    match b.checkRfu frame with
    | .error _ => l
    | .ok b =>
      match b.pump client a with
      | .error _ => l.pump b a
      | .ok b' =>
        if b'.admits client then { l.pump b a with accepted := l.accepted ++ [frame] }
        else l.pump b a
  | .cancel => l
  | .finishDrain completed =>
    if b.sealed then l else { l with drained := some (b.drainResult client completed) }

end Ledger

/-- A bridge and the ledger of its observer. -/
structure Account where
  bridge : C2Bridge
  ledger : Ledger
  deriving DecidableEq, Repr

def Account.step (client : Client) (s : Account) (call : Call) : Account :=
  ⟨s.bridge.step client call, s.ledger.note client s.bridge call⟩

def Account.next (client : Client) (s : Account) (call : Call) : Option Account :=
  some (s.step client call)

/-- One bridge under observation, and the calls of its endpoint in any order. -/
def accounts (client : Client) : System Account Call :=
  .ofStep (· = ⟨.fresh, .empty⟩) (Account.next client)

/-! ## The two sides -/

/-- The frames of the calls of `client.send_rfu` that did not raise. -/
def delivered (client : Client) (handed : List Frame) : List Frame :=
  (handed.zipIdx.filter fun call => (client.sends call.2).isNone).map (·.1)

theorem delivered_append (client : Client) (handed : List Frame) (frame : Frame) :
    delivered client (handed ++ [frame]) = delivered client handed ++
      if (client.sends handed.length).isNone then [frame] else [] := by
  rw [delivered, List.zipIdx_append, List.filter_append, List.map_append]
  simp only [Nat.zero_add, List.zipIdx_singleton, List.filter_cons, List.filter_nil]
  split <;> rfl

/-- Every frame is in one place. `discarded` and `refused` are the frames that the report
only counts. -/
def Balanced (client : Client) (s : Account) : Prop :=
  ∃ (discarded : Multiset Frame) (refused : Multiset Envelope),
    discarded.card = (s.ledger.drained.map (·.discardedLocalFrames)).getD 0 ∧
    refused.card = (s.ledger.drained.map (·.discardedRemoteFrames)).getD 0 ∧
    (s.ledger.accepted : Multiset Frame) =
      delivered client s.bridge.handed + s.bridge.pendingLocal + discarded ∧
    (s.ledger.taken : Multiset Envelope) =
      s.ledger.returned + s.bridge.pendingRemote + s.ledger.dropped + refused

/-! ## Where frames are lost -/

namespace C2Bridge

/-- The client takes every frame that `_maybe_activate` pops. -/
def Drains (client : Client) (b : C2Bridge) (proven : Bool) : Prop :=
  (b.activate proven).connected = true →
    ∀ i < min 32 b.pendingLocal.length, client.sends (b.handed.length + i) = none

/-- The loop of the pump: every pass of `_maybe_activate` drains, and where it raises, neither
the envelope it raises at nor one behind it is an RFU frame. -/
def PumpsAll (client : Client) (b : C2Bridge) (proven : Bool) : List (Envelope × Bool) → Prop
  | [] => Drains client b proven
  | polled :: rest =>
    (polled.1.kind = .sideReady →
      ∀ b', b.acceptSideReady client polled.1 = .ok b' → Drains client b' polled.2) ∧
    match b.pumpEnvelope client polled with
    | .ok b' => b'.PumpsAll client proven rest
    | .error _ => ∀ other ∈ polled :: rest, other.1.kind ≠ .rfu

/-- The pump loses no frame. -/
def PumpConserves (client : Client) (b : C2Bridge) (a : Answers) : Prop :=
  b.pumps = true → ∀ b', b.syncProof a = .ok b' → b'.PumpsAll client a.proven a.polled

/-- The call loses no frame: its pump does not, no frame popped by `_maybe_activate` meets a
client that raises, and a cancel finds both queues empty. -/
def Conserves (client : Client) (b : C2Bridge) : Call → Prop
  | .markLocalReady a gate => { b with localGate := some gate }.PumpConserves client a
  | .pump a => b.PumpConserves client a
  | .poll a _ => b.PumpConserves client a
  | .sendRfu a frame => b.PumpConserves client a ∧
      ∀ b₁ b₂, b.pump client a = .ok b₁ → b₁.connected = true →
        sendNow client { b₁ with accepted := b₁.accepted ++ [frame] } frame = .ok b₂ →
        b₂.Drains client a.provenAfter
  | .cancel => b.canceled = false → b.sealed = false → b.pendingLocal = [] ∧ b.pendingRemote = []
  | .finishDrain _ => True

instance (client : Client) (b : C2Bridge) (proven : Bool) : Decidable (Drains client b proven) :=
  inferInstanceAs (Decidable (_ → ∀ i < _, _))

def decidablePumpsAll (client : Client) (proven : Bool) :
    (b : C2Bridge) → (polled : List (Envelope × Bool)) → Decidable (PumpsAll client b proven polled)
  | b, [] => inferInstanceAs (Decidable (Drains client b proven))
  | b, polled :: rest =>
    let first : Decidable (polled.1.kind = .sideReady →
      ∀ b', b.acceptSideReady client polled.1 = .ok b' → Drains client b' polled.2) := inferInstance
    match hpumped : b.pumpEnvelope client polled with
    | .ok b' =>
      let _ := decidablePumpsAll client proven b' rest
      decidable_of_iff (_ ∧ b'.PumpsAll client proven rest) (by rw [PumpsAll, hpumped])
    | .error _ =>
      decidable_of_iff (_ ∧ ∀ other ∈ polled :: rest, other.1.kind ≠ .rfu)
        (by rw [PumpsAll, hpumped])

instance (client : Client) (b : C2Bridge) (a : Answers) : Decidable (PumpConserves client b a) :=
  let _ := decidablePumpsAll client a.proven
  inferInstanceAs (Decidable (_ → ∀ b', b.syncProof a = .ok b' → _))

instance (client : Client) (b : C2Bridge) : (call : Call) → Decidable (Conserves client b call)
  | .markLocalReady .. | .pump _ | .poll .. =>
    inferInstanceAs (Decidable (PumpConserves client _ _))
  | .sendRfu a frame =>
    let _ (b₁ : C2Bridge) : Decidable (∀ b₂, b₁.connected = true →
        sendNow client { b₁ with accepted := b₁.accepted ++ [frame] } frame = .ok b₂ →
        b₂.Drains client a.provenAfter) :=
      decidable_of_iff (b₁.connected = true → ∀ b₂,
        sendNow client { b₁ with accepted := b₁.accepted ++ [frame] } frame = .ok b₂ →
        b₂.Drains client a.provenAfter) forall_comm
    decidable_of_iff (PumpConserves client b a ∧ ∀ b₁, b.pump client a = .ok b₁ → ∀ b₂,
      b₁.connected = true →
        sendNow client { b₁ with accepted := b₁.accepted ++ [frame] } frame = .ok b₂ →
        b₂.Drains client a.provenAfter)
      (and_congr_right fun _ => forall_congr' fun _ => forall_comm)
  | .cancel => inferInstanceAs (Decidable (_ → _ → _ ∧ _))
  | .finishDrain _ => .isTrue trivial

/-! ## What each operation does with the frames -/

variable {client : Client} {b b' : C2Bridge} {a : Answers} {proven : Bool}

/-- The local frames that a bridge answers for. -/
def holding (client : Client) (b : C2Bridge) : Multiset Frame :=
  delivered client b.handed + b.pendingLocal

/-- The operation moves no frame. -/
structure Same (b b' : C2Bridge) : Prop where
  handed : b'.handed = b.handed
  pendingLocal : b'.pendingLocal = b.pendingLocal
  pendingRemote : b'.pendingRemote = b.pendingRemote

theorem Same.refl (b : C2Bridge) : b.Same b := ⟨rfl, rfl, rfl⟩

theorem Same.holding (h : b.Same b') : b'.holding client = b.holding client := by
  rw [C2Bridge.holding, C2Bridge.holding, h.handed, h.pendingLocal]

theorem same_sendSideReady (b : C2Bridge) (a : Answers) : b.Same (after (b.sendSideReady a)) := by
  unfold sendSideReady
  split
  · split <;> exact ⟨rfl, rfl, rfl⟩
  · exact .refl b

theorem same_acceptSideReady (client : Client) (b : C2Bridge) (e : Envelope) :
    b.Same (after (b.acceptSideReady client e)) := by
  unfold acceptSideReady
  split
  · exact ⟨rfl, rfl, rfl⟩
  · exact .refl b
  · dsimp only
    repeat' split
    all_goals exact ⟨rfl, rfl, rfl⟩

theorem same_checkRfu (b : C2Bridge) (frame : Frame) : b.Same (after (b.checkRfu frame)) := by
  unfold checkRfu
  repeat' split
  all_goals exact ⟨rfl, rfl, rfl⟩

/-- A frame that the client takes counts as delivered, one that it refuses is gone. -/
theorem sendNow_holding (client : Client) (b : C2Bridge) (frame : Frame) :
    (after (sendNow client b frame)).holding client =
        b.holding client +
          ((if (client.sends b.handed.length).isNone then [frame] else [] : List Frame) :
            Multiset Frame) ∧
      (after (sendNow client b frame)).pendingRemote = b.pendingRemote := by
  have hdelivered := delivered_append client b.handed frame
  unfold sendNow
  cases hsends : client.sends b.handed.length with
  | none =>
    rw [hsends] at hdelivered
    refine ⟨?_, rfl⟩
    show ((delivered client (b.handed ++ [frame]) : Multiset Frame) + b.pendingLocal) = _
    rw [hdelivered, ← Multiset.coe_add, holding]
    abel
  | some error =>
    rw [hsends] at hdelivered
    refine ⟨?_, rfl⟩
    show ((delivered client (b.handed ++ [frame]) : Multiset Frame) + b.pendingLocal) = _
    rw [hdelivered, ← Multiset.coe_add, holding]
    abel

theorem drain_holding {count : Nat} (hcount : count ≤ b.pendingLocal.length)
    (hsends : ∀ i < count, client.sends (b.handed.length + i) = none) :
    ∃ b', b.drain client count = .ok b' ∧ b'.holding client = b.holding client ∧
      b'.pendingRemote = b.pendingRemote := by
  induction count generalizing b with
  | zero => exact ⟨b, rfl, rfl, rfl⟩
  | succ count ih =>
    unfold drain
    cases hpending : b.pendingLocal with
    | nil =>
      rw [hpending] at hcount
      exact absurd hcount (Nat.not_succ_le_zero count)
    | cons frame rest =>
      have hfirst : client.sends b.handed.length = none := hsends 0 (Nat.succ_pos count)
      let popped : C2Bridge := { b with pendingLocal := rest }
      let sent : C2Bridge :=
        { popped with handed := b.handed ++ [frame], generationTx := b.generationTx + 1 }
      have hsent : sendNow client popped frame = .ok sent := by
        simp only [sendNow, popped, hfirst, sent]
      obtain ⟨hheld, -⟩ := sendNow_holding client popped frame
      rw [hsent, show popped.handed = b.handed from rfl, hfirst] at hheld
      have hrest : count ≤ sent.pendingLocal.length := by
        rw [hpending, List.length_cons] at hcount
        exact Nat.le_of_succ_le_succ hcount
      obtain ⟨b', hdrain, hholding, hremote⟩ := ih (b := sent) hrest fun i hi => by
        have hlater := hsends (i + 1) (Nat.succ_lt_succ hi)
        rwa [show sent.handed.length + i = b.handed.length + (i + 1) by simp [sent]; omega]
      refine ⟨b', ?_, ?_, hremote⟩
      · simp only [hsent, bind, Except.bind, popped] at hdrain ⊢
        exact hdrain
      · rw [hholding, show sent.holding client = _ from hheld, holding, holding, hpending]
        show (delivered client b.handed : Multiset Frame) + rest + [frame] = _
        rw [add_assoc, Multiset.coe_add, Multiset.coe_eq_coe.mpr List.perm_append_comm]
        rfl

theorem maybeActivate_holding (h : b.Drains client proven) :
    ∃ b', b.maybeActivate client proven = .ok b' ∧ b'.holding client = b.holding client ∧
      b'.pendingRemote = b.pendingRemote := by
  have hactivate : b.Same (b.activate proven) := by
    unfold activate
    split <;> exact ⟨rfl, rfl, rfl⟩
  have hmark : ∀ b : C2Bridge, b.Same b.markActive := by
    intro b
    unfold markActive
    split <;> exact ⟨rfl, rfl, rfl⟩
  have hrelease : ∃ b₁, (b.activate proven).release client = .ok b₁ ∧
      b₁.holding client = b.holding client ∧ b₁.pendingRemote = b.pendingRemote := by
    unfold release
    by_cases hconnected : (b.activate proven).connected = true
    · rw [if_pos hconnected]
      have hlength := congrArg List.length hactivate.pendingLocal
      obtain ⟨b₁, hdrain, hholding, hremote⟩ :=
        @drain_holding client (b.activate proven) (min 32 (b.activate proven).pendingLocal.length)
          (Nat.min_le_right _ _)
          fun i hi => by
            rw [hactivate.handed]
            exact h hconnected i (hlength ▸ hi)
      exact ⟨b₁, hdrain, hholding.trans hactivate.holding, hremote.trans hactivate.pendingRemote⟩
    · rw [if_neg hconnected]
      exact ⟨_, rfl, hactivate.holding, hactivate.pendingRemote⟩
  obtain ⟨b₁, hok, hholding, hremote⟩ := hrelease
  refine ⟨b₁.markActive, ?_, (hmark b₁).holding.trans hholding,
    (hmark b₁).pendingRemote.trans hremote⟩
  simp only [maybeActivate, hok, bind, Except.bind, pure, Except.pure]

theorem rfuFrames_cons (polled : Envelope × Bool) (rest : List (Envelope × Bool)) :
    rfuFrames (polled :: rest) =
      (if polled.1.kind = .rfu then [polled.1] else []) ++ rfuFrames rest := by
  simp only [rfuFrames, List.map_cons, List.filter_cons, decide_eq_true_eq]
  split <;> rfl

theorem rfuFrames_none {polled : List (Envelope × Bool)} (h : ∀ p ∈ polled, p.1.kind ≠ .rfu) :
    rfuFrames polled = [] := by
  refine List.filter_eq_nil_iff.mpr fun e he => ?_
  obtain ⟨p, hp, rfl⟩ := List.mem_map.mp he
  simpa using h p hp

/-- One envelope that the loop gets past: an RFU frame is queued, and nothing else moves. -/
theorem pumpEnvelope_holding {polled : Envelope × Bool}
    (hready : polled.1.kind = .sideReady →
      ∀ b', b.acceptSideReady client polled.1 = .ok b' → b'.Drains client polled.2)
    (h : b.pumpEnvelope client polled = .ok b') :
    b'.holding client = b.holding client ∧
      b'.pendingRemote = b.pendingRemote ++ if polled.1.kind = .rfu then [polled.1] else [] := by
  obtain ⟨e, proven⟩ := polled
  unfold pumpEnvelope at h
  cases hkind : e.kind with
  | sideReady =>
    simp only [hkind] at h
    obtain ⟨b₁, haccept, h⟩ := bind_eq_ok.mp h
    have hsame := same_acceptSideReady client b e
    rw [haccept] at hsame
    obtain ⟨b₂, hactivate, hholding, hremote⟩ := maybeActivate_holding (hready hkind b₁ haccept)
    obtain rfl := Except.ok.inj (hactivate.symm.trans h)
    exact ⟨hholding.trans hsame.holding, by simp [hremote.trans hsame.pendingRemote]⟩
  | rfu =>
    simp only [hkind] at h
    split at h
    · cases h
    · split at h
      · cases h
      · split at h
        · cases h
        · cases h
          exact ⟨rfl, by simp⟩
  | peerClose =>
    simp only [hkind] at h
    cases h
  | _ =>
    simp only [hkind] at h
    cases h
    exact ⟨rfl, by simp⟩

/-- One envelope that the loop raises at leaves the frames where they are. -/
theorem pumpEnvelope_raised {polled : Envelope × Bool} {raised : Raised}
    (hready : polled.1.kind = .sideReady →
      ∀ b', b.acceptSideReady client polled.1 = .ok b' → b'.Drains client polled.2)
    (h : b.pumpEnvelope client polled = .error (raised, b')) : b.Same b' := by
  obtain ⟨e, proven⟩ := polled
  unfold pumpEnvelope at h
  cases hkind : e.kind with
  | sideReady =>
    simp only [hkind] at h
    have hsame := same_acceptSideReady client b e
    rcases bind_eq_error.mp h with haccept | ⟨b₁, haccept, h⟩
    · rwa [haccept] at hsame
    · obtain ⟨b₂, hactivate, -⟩ := maybeActivate_holding (hready hkind b₁ haccept)
      cases hactivate.symm.trans h
  | rfu =>
    simp only [hkind] at h
    split at h
    · cases h
      exact ⟨rfl, rfl, rfl⟩
    · split at h
      · cases h
        exact ⟨rfl, rfl, rfl⟩
      · split at h
        · cases h
          exact ⟨rfl, rfl, rfl⟩
        · cases h
  | peerClose =>
    simp only [hkind] at h
    cases h
    exact ⟨rfl, rfl, rfl⟩
  | _ =>
    simp only [hkind] at h
    cases h

theorem pumpsAll_holding {polled : List (Envelope × Bool)} (h : b.PumpsAll client proven polled) :
    (after (polled.foldlM (pumpEnvelope client) b >>= (·.maybeActivate client proven))).holding
        client = b.holding client ∧
      (after (polled.foldlM (pumpEnvelope client) b >>=
          (·.maybeActivate client proven))).pendingRemote =
            b.pendingRemote ++ rfuFrames polled := by
  induction polled generalizing b with
  | nil =>
    obtain ⟨b₁, hactivate, hholding, hremote⟩ := maybeActivate_holding h
    have hall : ([].foldlM (pumpEnvelope client) b >>= (·.maybeActivate client proven)) =
        .ok b₁ := hactivate
    rw [hall]
    exact ⟨hholding, hremote.trans (List.append_nil _).symm⟩
  | cons polled rest ih =>
    obtain ⟨hready, hrest⟩ := h
    rw [List.foldlM_cons]
    cases hfirst : b.pumpEnvelope client polled with
    | ok b₁ =>
      rw [hfirst] at hrest
      obtain ⟨hholding, hremote⟩ := pumpEnvelope_holding hready hfirst
      obtain ⟨hlater, hlaterRemote⟩ := ih hrest
      refine ⟨hlater.trans hholding, hlaterRemote.trans ?_⟩
      rw [hremote, rfuFrames_cons, List.append_assoc]
    | error raised =>
      rw [hfirst] at hrest
      have hsame := pumpEnvelope_raised hready hfirst
      refine ⟨hsame.holding, hsame.pendingRemote.trans ?_⟩
      rw [rfuFrames_none hrest, List.append_nil]

/-- A pump keeps the local frames; what it takes from the client it queues, and what it drops
it had queued. -/
theorem pump_holding (h : b.PumpConserves client a) :
    (after (b.pump client a)).holding client = b.holding client ∧
      ((after (b.pump client a)).pendingRemote : Multiset Envelope) + b.drops a =
        b.pendingRemote + b.takes a := by
  by_cases hpumps : b.pumps = true
  · have hrunning := hpumps
    simp only [pumps, Bool.and_eq_true, Bool.not_eq_true', Option.isNone_iff_eq_none] at hrunning
    obtain ⟨⟨hsealed, hfailure⟩, hcanceled⟩ := hrunning
    have hpump : b.pump client a = b.syncProof a >>= fun b =>
        a.polled.foldlM (pumpEnvelope client) b >>= (·.maybeActivate client a.proven) := by
      simp only [pump, hsealed, Bool.false_eq_true, if_false, hfailure, hcanceled]
    have hnote : (b.noteProof a.proof).holding client = b.holding client ∧
        (b.noteProof a.proof).pendingRemote =
          if a.proof ≠ b.proofGeneration then [] else b.pendingRemote := by
      unfold noteProof
      split
      · exact ⟨rfl, rfl⟩
      · exact ⟨rfl, rfl⟩
    have hready := same_sendSideReady (b.noteProof a.proof) a
    -- The proof is read and noted, unless the client reports an error.
    have hsync : (after (b.syncProof a)).holding client = b.holding client ∧
        ((after (b.syncProof a)).pendingRemote : Multiset Envelope) + b.drops a =
          b.pendingRemote := by
      unfold syncProof drops
      by_cases herror : a.lastErrorCode = ""
      · rw [if_neg (not_not.mpr herror)]
        refine ⟨hready.holding.trans hnote.1, ?_⟩
        rw [hready.pendingRemote, hnote.2]
        by_cases hproof : a.proof = b.proofGeneration
        · simp [hproof]
        · simp [hpumps, herror, hproof]
      · rw [if_pos herror]
        exact ⟨rfl, by simp [herror, fail, after]⟩
    rw [hpump, takes, if_pos hpumps]
    cases hsynced : b.syncProof a with
    | error raised =>
      rw [hsynced] at hsync
      refine ⟨hsync.1, ?_⟩
      rw [Multiset.coe_nil, add_zero]
      exact hsync.2
    | ok b₁ =>
      rw [hsynced] at hsync
      obtain ⟨hholding, hremote⟩ := pumpsAll_holding (h hpumps b₁ hsynced)
      refine ⟨hholding.trans hsync.1, ?_⟩
      rw [show after (Except.ok b₁ >>= fun b => a.polled.foldlM (pumpEnvelope client) b >>=
        (·.maybeActivate client a.proven)) = after (a.polled.foldlM (pumpEnvelope client) b₁ >>=
        (·.maybeActivate client a.proven)) from rfl, hremote, ← hsync.2, ← Multiset.coe_add]
      show ((b₁.pendingRemote : Multiset Envelope) + rfuFrames a.polled) + b.drops a =
        b₁.pendingRemote + b.drops a + rfuFrames a.polled
      abel
  · have hstill : after (b.pump client a) = b := by
      unfold pump
      cases hsealed : b.sealed with
      | true => rfl
      | false =>
        cases hfailure : b.failure with
        | some failure => rfl
        | none =>
          cases hcanceled : b.canceled with
          | true => rfl
          | false => simp [pumps, hsealed, hfailure, hcanceled] at hpumps
    rw [hstill]
    simp [takes, drops, hpumps]

/-- The frame that `send_rfu` admits is what the bridge answers for on top. -/
theorem place_holding {frame : Frame} (hdrains : b.connected = true → ∀ b₁,
      sendNow client { b with accepted := b.accepted ++ [frame] } frame = .ok b₁ →
        b₁.Drains client a.provenAfter) :
    (after (b.place client a frame)).holding client =
        b.holding client +
          ((if b.admits client then [frame] else [] : List Frame) : Multiset Frame) ∧
      (after (b.place client a frame)).pendingRemote = b.pendingRemote := by
  unfold place admits
  by_cases hconnected : b.connected = true
  · rw [if_pos hconnected, if_pos hconnected]
    have hsent := sendNow_holding client { b with accepted := b.accepted ++ [frame] } frame
    cases hresult : sendNow client { b with accepted := b.accepted ++ [frame] } frame with
    | error raised =>
      rw [hresult] at hsent
      exact hsent
    | ok b₁ =>
      rw [hresult] at hsent
      obtain ⟨b₂, hactivate, hholding, hremote⟩ :=
        maybeActivate_holding (hdrains hconnected b₁ hresult)
      have hplaced : (Except.ok b₁ >>= (·.maybeActivate client a.provenAfter) : Outcome) = .ok b₂ :=
        hactivate
      rw [hplaced]
      exact ⟨hholding.trans hsent.1, hremote.trans hsent.2⟩
  · rw [if_neg hconnected, if_neg hconnected]
    by_cases hfull : maxPreBarrierFrames ≤ b.pendingLocal.length
    · rw [if_pos hfull, decide_eq_false (Nat.not_lt.mpr hfull)]
      exact ⟨(add_zero _).symm, rfl⟩
    · rw [if_neg hfull, decide_eq_true (Nat.not_le.mp hfull)]
      refine ⟨?_, rfl⟩
      show (delivered client b.handed : Multiset Frame) +
        (b.pendingLocal ++ [frame] : List Frame) = _
      rw [← Multiset.coe_add, holding]
      exact (add_assoc _ _ _).symm

/-- `finish_drain` delivers what it flushes and counts the rest. -/
theorem flush_holding (client : Client) (frames : List Frame) (b : C2Bridge)
    (hpending : b.pendingLocal = frames) :
    ∃ popped : List Frame, popped.length =
        (if flushed client b.handed.length frames < frames.length then 1 else 0) ∧
      b.holding client = (b.flush client frames).holding client + popped := by
  induction frames generalizing b with
  | nil => exact ⟨[], rfl, (add_zero _).symm⟩
  | cons frame rest ih =>
    have hdelivered := delivered_append client b.handed frame
    unfold flush flushed
    cases hsends : client.sends b.handed.length with
    | some error =>
      rw [hsends] at hdelivered
      refine ⟨[frame], by simp, ?_⟩
      rw [holding, holding, hpending]
      show (delivered client b.handed : Multiset Frame) + (frame :: rest : List Frame) =
        (delivered client (b.handed ++ [frame]) : Multiset Frame) + rest + [frame]
      rw [hdelivered, add_assoc, Multiset.coe_add rest, Multiset.coe_eq_coe.mpr
        (@List.perm_append_comm _ rest [frame]), ← Multiset.coe_add]
      simp
    | none =>
      rw [hsends] at hdelivered
      obtain ⟨popped, hlength, hheld⟩ :=
        ih { b with pendingLocal := rest, handed := b.handed ++ [frame] } rfl
      refine ⟨popped, ?_, ?_⟩
      · simpa using hlength
      · dsimp only
        rw [← hheld, holding, holding, hpending]
        show (delivered client b.handed : Multiset Frame) + (frame :: rest : List Frame) =
          (delivered client (b.handed ++ [frame]) : Multiset Frame) + rest
        rw [hdelivered, ← Multiset.coe_add, add_assoc]
        rfl

theorem finishDrain_holding (client : Client) (hopen : b.sealed = false) (completed : Bool) :
    ∃ discarded : List Frame,
      discarded.length = (b.drainResult client completed).discardedLocalFrames ∧
      b.holding client = (b.finishDrain client completed).holding client + discarded := by
  unfold finishDrain drainResult
  simp only [hopen, Bool.false_eq_true, if_false]
  cases hflushing : completed && b.connected with
  | false =>
    refine ⟨b.pendingLocal, by simp, ?_⟩
    show (delivered client b.handed : Multiset Frame) + b.pendingLocal =
      (delivered client b.handed : Multiset Frame) + ([] : List Frame) + b.pendingLocal
    simp
  | true =>
    obtain ⟨popped, hlength, hheld⟩ := flush_holding client b.pendingLocal b rfl
    refine ⟨(b.flush client b.pendingLocal).pendingLocal ++ popped, ?_, ?_⟩
    · rw [List.length_append, hlength]
      simp
    · rw [hheld, holding, ← Multiset.coe_add]
      show _ = (delivered client (b.flush client b.pendingLocal).handed : Multiset Frame) +
        ([] : List Frame) + ((b.flush client b.pendingLocal).pendingLocal + popped)
      rw [Multiset.coe_nil, add_zero, add_assoc]

theorem place_sealed {frame : Frame} : (after (b.place client a frame)).sealed = b.sealed := by
  unfold place
  split
  · have hsent := sendNow_fifo client { b with accepted := b.accepted ++ [frame] } frame
    cases hresult : sendNow client { b with accepted := b.accepted ++ [frame] } frame with
    | error raised =>
      rw [hresult] at hsent
      exact hsent.2.2
    | ok b₁ =>
      rw [hresult] at hsent
      exact (queues_maybeActivate client b₁ a.provenAfter).sealed.trans hsent.2.2
  · split <;> rfl

/-! ## The three ways of `send_rfu` -/

theorem sendRfu_rejected {frame : Frame} {raised : Raised × C2Bridge}
    (h : b.checkRfu frame = .error raised) : b.sendRfu client a frame = .error raised := by
  simp only [sendRfu, h, bind, Except.bind]

theorem sendRfu_raised {frame : Frame} {raised : Raised × C2Bridge}
    (hcheck : b.checkRfu frame = .ok b) (h : b.pump client a = .error raised) :
    b.sendRfu client a frame = .error raised := by
  simp only [sendRfu, hcheck, h, bind, Except.bind]

theorem sendRfu_placed {frame : Frame} (hcheck : b.checkRfu frame = .ok b)
    (h : b.pump client a = .ok b') : b.sendRfu client a frame = b'.place client a frame := by
  simp only [sendRfu, hcheck, h, bind, Except.bind]

/-- Only `finish_drain` seals a bridge. -/
theorem step_sealed {call : Call} (h : ∀ completed, call ≠ .finishDrain completed) :
    (b.step client call).sealed = b.sealed := by
  cases call with
  | markLocalReady a gate => exact (queues_markLocalReady client b a gate).sealed
  | pump a => exact (queues_pump client b a).sealed
  | poll a limit => exact (queues_poll client b a limit).sealed
  | sendRfu a frame =>
    show (after (b.sendRfu client a frame)).sealed = b.sealed
    cases hcheck : b.checkRfu frame with
    | error raised =>
      have hsealed := (queues_checkRfu b frame).sealed
      rw [hcheck] at hsealed
      rw [sendRfu_rejected hcheck]
      exact hsealed
    | ok b₁ =>
      obtain ⟨rfl, -⟩ := checkRfu_ok hcheck
      have hsealed := (queues_pump client b₁ a).sealed
      cases hpump : b₁.pump client a with
      | error raised =>
        rw [hpump] at hsealed
        rw [sendRfu_raised hcheck hpump]
        exact hsealed
      | ok b₂ =>
        rw [hpump] at hsealed
        rw [sendRfu_placed hcheck hpump]
        exact place_sealed.trans hsealed
  | cancel =>
    show b.cancel.sealed = b.sealed
    unfold cancel
    split <;> rfl
  | finishDrain completed => exact absurd rfl (h completed)

end C2Bridge

/-! ## Every call that loses no frame keeps the balance -/

namespace Balanced

variable {client : Client} {b b' : C2Bridge} {l : Ledger} {a : Answers}

/-- Frames that stay where they are balance as before. -/
theorem same (h : Balanced client ⟨b, l⟩) (hsame : b.Same b') : Balanced client ⟨b', l⟩ := by
  obtain ⟨discarded, refused, hlost, hdropped, hlocal, hremote⟩ := h
  refine ⟨discarded, refused, hlost, hdropped, ?_, ?_⟩
  · show _ = b'.holding client + discarded
    rw [hsame.holding]
    exact hlocal
  · show _ = (l.returned : Multiset Envelope) + b'.pendingRemote + l.dropped + refused
    rw [hsame.pendingRemote]
    exact hremote

theorem pump (h : Balanced client ⟨b, l⟩) (hconserves : b.PumpConserves client a) :
    Balanced client ⟨C2Bridge.after (b.pump client a), l.pump b a⟩ := by
  obtain ⟨discarded, refused, hlost, hdropped, hlocal, hremote⟩ := h
  obtain ⟨hholding, hpending⟩ := C2Bridge.pump_holding hconserves
  refine ⟨discarded, refused, hlost, hdropped, ?_, ?_⟩
  · show _ = (C2Bridge.after (b.pump client a)).holding client + discarded
    rw [hholding]
    exact hlocal
  · show ((l.taken ++ b.takes a : List Envelope) : Multiset Envelope) =
      l.returned + (C2Bridge.after (b.pump client a)).pendingRemote +
        (l.dropped ++ b.drops a : List Envelope) + refused
    have hremote : (l.taken : Multiset Envelope) =
        l.returned + b.pendingRemote + l.dropped + refused := hremote
    rw [← Multiset.coe_add, ← Multiset.coe_add, hremote]
    calc (l.returned : Multiset Envelope) + b.pendingRemote + l.dropped + refused + b.takes a
        = l.returned + (b.pendingRemote + b.takes a) + l.dropped + refused := by abel
      _ = l.returned + ((C2Bridge.after (b.pump client a)).pendingRemote + b.drops a) +
            l.dropped + refused := by rw [hpending]
      _ = l.returned + (C2Bridge.after (b.pump client a)).pendingRemote +
            (l.dropped + b.drops a) + refused := by abel

theorem sendRfu {frame : Frame} (h : Balanced client ⟨b, l⟩)
    (hconserves : b.Conserves client (.sendRfu a frame)) :
    Balanced client ⟨b.step client (.sendRfu a frame), l.note client b (.sendRfu a frame)⟩ := by
  obtain ⟨hpumps, hdrains⟩ := hconserves
  have hcheck := C2Bridge.same_checkRfu b frame
  rw [show b.step client (.sendRfu a frame) = C2Bridge.after (b.sendRfu client a frame) from rfl]
  cases hchecked : b.checkRfu frame with
  | error raised =>
    rw [hchecked] at hcheck
    rw [C2Bridge.sendRfu_rejected hchecked]
    simp only [Ledger.note, hchecked]
    exact h.same hcheck
  | ok b₁ =>
    obtain ⟨rfl, -⟩ := C2Bridge.checkRfu_ok hchecked
    have hpumped := h.pump hpumps
    cases hresult : b₁.pump client a with
    | error raised =>
      rw [hresult] at hpumped
      rw [C2Bridge.sendRfu_raised hchecked hresult]
      simp only [Ledger.note, hchecked, hresult]
      exact hpumped
    | ok b₂ =>
      rw [hresult] at hpumped
      obtain ⟨hholding, hpending⟩ := @C2Bridge.place_holding client _ a frame
        fun hconnected b₃ => hdrains b₂ b₃ hresult hconnected
      obtain ⟨discarded, refused, hlost, hdropped, hlocal, hremote⟩ := hpumped
      rw [C2Bridge.sendRfu_placed hchecked hresult]
      simp only [Ledger.note, hchecked, hresult]
      have hlocal : (l.accepted : Multiset Frame) = b₂.holding client + discarded := hlocal
      cases hadmits : b₂.admits client with
      | true =>
        refine ⟨discarded, refused, hlost, hdropped, ?_, ?_⟩
        · show ((l.accepted ++ [frame] : List Frame) : Multiset Frame) =
            (C2Bridge.after (b₂.place client a frame)).holding client + discarded
          rw [hholding, hadmits, if_pos rfl, ← Multiset.coe_add, hlocal]
          abel
        · show _ = (l.returned : Multiset Envelope) +
            (C2Bridge.after (b₂.place client a frame)).pendingRemote + _ + refused
          rw [hpending]
          exact hremote
      | false =>
        refine ⟨discarded, refused, hlost, hdropped, ?_, ?_⟩
        · show (l.accepted : Multiset Frame) =
            (C2Bridge.after (b₂.place client a frame)).holding client + discarded
          rw [hholding, hadmits, if_neg Bool.false_ne_true, Multiset.coe_nil, add_zero]
          exact hlocal
        · show _ = (l.returned : Multiset Envelope) +
            (C2Bridge.after (b₂.place client a frame)).pendingRemote + _ + refused
          rw [hpending]
          exact hremote

theorem poll {limit : Nat} (h : Balanced client ⟨b, l⟩) (hconserves : b.PumpConserves client a) :
    Balanced client ⟨b.step client (.poll a limit), l.note client b (.poll a limit)⟩ := by
  have hpumped := h.pump hconserves
  show Balanced client ⟨C2Bridge.after (b.poll client a limit),
    { l.pump b a with returned := l.returned ++ b.polls client a limit }⟩
  cases hsealed : b.sealed with
  | true =>
    have hstill : C2Bridge.after (b.pump client a) = b := by
      simp [C2Bridge.pump, hsealed, C2Bridge.after]
    rw [hstill] at hpumped
    simp only [C2Bridge.poll, C2Bridge.polls, hsealed, if_true, List.append_nil]
    exact hpumped
  | false =>
    cases hresult : b.pump client a with
    | error raised =>
      rw [hresult] at hpumped
      have hraised : b.poll client a limit = .error raised := by
        simp only [C2Bridge.poll, hsealed, Bool.false_eq_true, if_false, hresult, bind, Except.bind]
      rw [hraised]
      simp only [C2Bridge.polls, hsealed, Bool.false_eq_true, if_false, hresult, List.append_nil]
      exact hpumped
    | ok b₁ =>
      rw [hresult] at hpumped
      have hreturned : b.poll client a limit =
          .ok { b₁ with pendingRemote := b₁.pendingRemote.drop limit } := by
        simp only [C2Bridge.poll, hsealed, Bool.false_eq_true, if_false, hresult, bind, Except.bind,
          pure, Except.pure]
      rw [hreturned]
      simp only [C2Bridge.polls, hsealed, Bool.false_eq_true, if_false, hresult]
      obtain ⟨discarded, refused, hlost, hdropped, hlocal, hremote⟩ := hpumped
      refine ⟨discarded, refused, hlost, hdropped, hlocal, ?_⟩
      have hremote : ((l.pump b a).taken : Multiset Envelope) =
          l.returned + b₁.pendingRemote + (l.pump b a).dropped + refused := hremote
      show ((l.pump b a).taken : Multiset Envelope) =
        (l.returned ++ b₁.pendingRemote.take limit : List Envelope) +
          (b₁.pendingRemote.drop limit : List Envelope) + (l.pump b a).dropped + refused
      have hsplit : (b₁.pendingRemote.take limit : Multiset Envelope) +
          (b₁.pendingRemote.drop limit : List Envelope) = b₁.pendingRemote := by
        rw [Multiset.coe_add, List.take_append_drop]
      rw [hremote, ← hsplit, ← Multiset.coe_add]
      abel

theorem markLocalReady {gate : String} (h : Balanced client ⟨b, l⟩)
    (hconserves : { b with localGate := some gate }.PumpConserves client a) :
    Balanced client
      ⟨b.step client (.markLocalReady a gate), l.note client b (.markLocalReady a gate)⟩ := by
  show Balanced client ⟨C2Bridge.after (b.markLocalReady client a gate),
    if gate ≠ client.binding.switchRole.gate ∨ b.canceled ∨ b.localGate.any (· ≠ gate) then l
    else l.pump { b with localGate := some gate } a⟩
  unfold C2Bridge.markLocalReady
  by_cases hgate : gate ≠ client.binding.switchRole.gate
  · rw [if_pos hgate, if_pos (.inl hgate)]
    exact h.same ⟨rfl, rfl, rfl⟩
  · rw [if_neg hgate]
    by_cases hcanceled : b.canceled = true
    · rw [if_pos hcanceled, if_pos (.inr (.inl hcanceled))]
      exact h.same ⟨rfl, rfl, rfl⟩
    · rw [if_neg hcanceled]
      by_cases hchanged : b.localGate.any (· ≠ gate) = true
      · rw [if_pos hchanged, if_pos (.inr (.inr hchanged))]
        exact h.same ⟨rfl, rfl, rfl⟩
      · rw [if_neg hchanged, if_neg fun hany => hany.elim hgate (·.elim hcanceled hchanged)]
        have hmarked : Balanced client ⟨{ b with localGate := some gate }, l⟩ :=
          h.same ⟨rfl, rfl, rfl⟩
        exact hmarked.pump hconserves

theorem cancel (h : Balanced client ⟨b, l⟩)
    (hconserves : b.Conserves client .cancel) : Balanced client ⟨b.cancel, l⟩ := by
  refine h.same ?_
  unfold C2Bridge.cancel
  split
  · exact .refl b
  · rename_i hactive
    simp only [not_or, Bool.not_eq_true] at hactive
    obtain ⟨hlocal, hremote⟩ := hconserves hactive.1 hactive.2
    exact ⟨rfl, hlocal.symm, hremote.symm⟩

/-- The report counts what the queues held and the client did not take. -/
theorem finishDrain (h : Balanced client ⟨b, l⟩) (hopen : b.sealed = false)
    (hfirst : l.drained = none) (completed : Bool) :
    Balanced client
      ⟨b.finishDrain client completed,
        { l with drained := some (b.drainResult client completed) }⟩ := by
  obtain ⟨discarded, refused, hlost, hdropped, hlocal, hremote⟩ := h
  obtain ⟨left, hlength, hheld⟩ := C2Bridge.finishDrain_holding client hopen completed
  simp only [hfirst, Option.map_none, Option.getD_none, Multiset.card_eq_zero] at hlost hdropped
  subst hlost hdropped
  have hcleared : (b.finishDrain client completed).pendingRemote = [] := by
    unfold C2Bridge.finishDrain
    rw [if_neg (by simp [hopen])]
  refine ⟨left, b.pendingRemote, hlength, rfl, ?_, ?_⟩
  · show (l.accepted : Multiset Frame) = (b.finishDrain client completed).holding client + left
    rw [← hheld, ← add_zero (b.holding client)]
    exact hlocal
  · have hremote : (l.taken : Multiset Envelope) = l.returned + b.pendingRemote + l.dropped + 0 :=
      hremote
    show (l.taken : Multiset Envelope) = (l.returned : Multiset Envelope) +
      (b.finishDrain client completed).pendingRemote + l.dropped + b.pendingRemote
    rw [hremote, hcleared, Multiset.coe_nil]
    abel

/-- The counts balance. -/
theorem count {s : Account} (h : Balanced client s) :
    s.ledger.accepted.length = (delivered client s.bridge.handed).length +
        s.bridge.pendingLocal.length + (s.ledger.drained.map (·.discardedLocalFrames)).getD 0 ∧
      s.ledger.taken.length = s.ledger.returned.length + s.bridge.pendingRemote.length +
        s.ledger.dropped.length + (s.ledger.drained.map (·.discardedRemoteFrames)).getD 0 := by
  obtain ⟨discarded, refused, hlost, hdropped, hlocal, hremote⟩ := h
  have hlocal := congrArg Multiset.card hlocal
  have hremote := congrArg Multiset.card hremote
  simp only [Multiset.card_add, Multiset.coe_card] at hlocal hremote
  rw [hlost] at hlocal
  rw [hdropped] at hremote
  exact ⟨hlocal, hremote⟩

end Balanced

/-- The call, on the bridge of the account, loses no frame. -/
def Account.Conserves (client : Client) (s : Account) (call : Call) : Prop :=
  s.bridge.Conserves client call

instance (client : Client) (s : Account) (call : Call) : Decidable (s.Conserves client call) :=
  inferInstanceAs (Decidable (s.bridge.Conserves client call))

theorem Balanced.step {client : Client} {s : Account} {call : Call} (h : Balanced client s)
    (hdrained : s.bridge.sealed = s.ledger.drained.isSome) (hconserves : s.Conserves client call) :
    Balanced client (s.step client call) := by
  cases call with
  | markLocalReady a gate => exact h.markLocalReady hconserves
  | pump a => exact h.pump hconserves
  | poll a limit => exact h.poll hconserves
  | sendRfu a frame => exact h.sendRfu hconserves
  | cancel => exact h.cancel hconserves
  | finishDrain completed =>
    show Balanced client ⟨s.bridge.finishDrain client completed,
      if s.bridge.sealed then s.ledger else _⟩
    cases hsealed : s.bridge.sealed with
    | true =>
      have hstill : s.bridge.finishDrain client completed = s.bridge := by
        simp only [C2Bridge.finishDrain, hsealed, if_true]
      rw [hstill]
      exact h
    | false =>
      have hfirst : s.ledger.drained = none := by
        rw [hsealed] at hdrained
        simpa using hdrained.symm
      exact h.finishDrain hsealed hfirst completed

/-- A bridge is sealed exactly when its report is written. -/
theorem Account.step_drained {client : Client} {s : Account} (call : Call)
    (h : s.bridge.sealed = s.ledger.drained.isSome) :
    (s.step client call).bridge.sealed = (s.step client call).ledger.drained.isSome := by
  have hpump : ∀ (l : Ledger) (b : C2Bridge) (a : Answers), (l.pump b a).drained = l.drained :=
    fun _ _ _ => rfl
  have hother : (∀ completed, call ≠ .finishDrain completed) →
      (s.ledger.note client s.bridge call).drained = s.ledger.drained →
      (s.step client call).bridge.sealed = (s.step client call).ledger.drained.isSome := by
    intro hcall hsame
    show (s.bridge.step client call).sealed = (s.ledger.note client s.bridge call).drained.isSome
    rw [C2Bridge.step_sealed hcall, hsame]
    exact h
  cases call with
  | markLocalReady a gate =>
    refine hother nofun ?_
    unfold Ledger.note
    dsimp only
    split <;> rfl
  | pump a => exact hother nofun rfl
  | poll a limit => exact hother nofun rfl
  | sendRfu a frame =>
    refine hother nofun ?_
    unfold Ledger.note
    dsimp only
    split
    · rfl
    · split
      · rfl
      · split <;> rfl
  | cancel => exact hother nofun rfl
  | finishDrain completed =>
    show (s.bridge.finishDrain client completed).sealed =
      (if s.bridge.sealed then s.ledger else _).drained.isSome
    cases hsealed : s.bridge.sealed with
    | true =>
      have hstill : s.bridge.finishDrain client completed = s.bridge := by
        simp only [C2Bridge.finishDrain, hsealed, if_true]
      rw [hstill, if_pos rfl, ← h]
    | false =>
      simp only [C2Bridge.finishDrain, hsealed, Bool.false_eq_true, if_false, Option.isSome_some]

/-- In every run whose calls lose no frame, every local frame that `send_rfu` accepted was
handed over without an error, waits, or is counted by the report; and every remote frame
taken from the client was returned, waits, was dropped by an invalidation, or is counted. -/
theorem frames_conserved {client : Client} {s : Account}
    (h : (accounts client).Reachable (Account.Conserves client) s) : Balanced client s := by
  have hinv : Balanced client s ∧ s.bridge.sealed = s.ledger.drained.isSome := by
    refine System.Reachable.invariant
      (P := fun s => Balanced client s ∧ s.bridge.sealed = s.ledger.drained.isSome) ?_ ?_ h
    · rintro s rfl
      exact ⟨⟨0, 0, rfl, rfl, rfl, rfl⟩, rfl⟩
    · rintro s call t ⟨hbalanced, hdrained⟩ hconserves hnext
      obtain rfl := Option.some.inj hnext
      exact ⟨hbalanced.step hdrained hconserves, s.step_drained call hdrained⟩
  exact hinv.1

def remoteFrame (sequence : Nat) : Envelope := { fromPeer sequence .rfu [1] with flags := 1 }

/-- A frame sent before the barrier waits and is handed over when the `SIDE_READY` arrives; of two
remote frames `poll` returns one, and another proof drops the other; a frame sent then waits for
a barrier that the canceled run does not reach. -/
def brokenOff : List Call :=
  [.sendRfu {} ([0], 1), .markLocalReady { proof := 1, proven := true } "B_READY",
    .pump { proof := 1, proven := true, polled :=
      [(peerSideReady, true), (remoteFrame 5, true), (remoteFrame 6, true)] },
    .poll { proof := 1, proven := true } 1, .pump { proof := 2 }, .sendRfu { proof := 2 } ([2], 1),
    .finishDrain false]

theorem frames_conserved_canceled :
    ∃ s, (accounts hostClient).Reachable (Account.Conserves hostClient) s ∧ Balanced hostClient s ∧
      s.ledger.accepted = [([0], 1), ([2], 1)] ∧ delivered hostClient s.bridge.handed = [([0], 1)] ∧
      s.ledger.drained.map (·.discardedLocalFrames) = some 1 ∧
      s.ledger.taken = [remoteFrame 5, remoteFrame 6] ∧ s.ledger.returned = [remoteFrame 5] ∧
      s.ledger.dropped = [remoteFrame 6] := by
  obtain ⟨s, hs, hplaces⟩ := (Option.any_eq_true _ _).mp
    (show (System.play (Account.next hostClient) (Account.Conserves hostClient) ⟨.fresh, .empty⟩
      brokenOff).any fun s => s.ledger.accepted = [([0], 1), ([2], 1)] ∧
        delivered hostClient s.bridge.handed = [([0], 1)] ∧
        s.ledger.drained.map (·.discardedLocalFrames) = some 1 ∧
        s.ledger.taken = [remoteFrame 5, remoteFrame 6] ∧ s.ledger.returned = [remoteFrame 5] ∧
        s.ledger.dropped = [remoteFrame 6] by decide +kernel)
  have hreach : (accounts hostClient).Reachable (Account.Conserves hostClient) s :=
    ⟨_, rfl, System.run_of_play hs⟩
  exact ⟨s, hreach, frames_conserved hreach, of_decide_eq_true hplaces⟩

/-- The client of seat B, whose queue is full. -/
def fullClient : Client := { hostClient with sends := fun _ => some "queue is full" }

/-- A frame waits; the `SIDE_READY` arrives, and the client refuses the frame that was popped
for it: nothing accounts for it any more. -/
theorem popped_frame_lost :
    ¬ ∀ (client : Client) (s : Account), (accounts client).Reachable System.Free s →
      Balanced client s := by
  intro h
  have hrun : (System.play (Account.next fullClient) System.Free ⟨.fresh, .empty⟩
      [.markLocalReady { proof := 1, proven := true } "B_READY",
        .sendRfu { proof := 1, proven := true } ([0], 1),
        .pump { proof := 1, polled := [(peerSideReady, true)], proven := true }]).any
      fun s => s.ledger.accepted.length = 1 && (delivered fullClient s.bridge.handed).isEmpty &&
        s.bridge.pendingLocal.isEmpty && s.ledger.drained.isNone := by
    decide +kernel
  obtain ⟨s, hs, hlost⟩ := (Option.any_eq_true _ _).mp hrun
  simp only [Bool.and_eq_true, decide_eq_true_eq, List.isEmpty_iff, Option.isNone_iff_eq_none]
    at hlost
  obtain ⟨⟨⟨haccepted, hdelivered⟩, hpending⟩, hdrained⟩ := hlost
  have hcount := (h fullClient s ⟨_, rfl, System.run_of_play hs⟩).count.1
  rw [haccepted, hdelivered, hpending, hdrained] at hcount
  cases hcount

end SwitchTrade.Bridge

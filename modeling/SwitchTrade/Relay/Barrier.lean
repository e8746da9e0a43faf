import SwitchTrade.Relay.Section

/-!
# The `RFU` barrier of the relay

A forwarded `RFU` frame should find an accepted `SIDE_READY` of both seats, each in the
current source epoch of its seat, with no connection of either seat lost since. The code
keeps for each seat the epoch of its last `SIDE_READY` and compares it with the epoch of
its gate. Three things break the correspondence: a seat that never spoke has no epoch on
either side of the comparison; a failed replay gives a seat back without clearing; and a
session that left the registry is not cleared either. Without them the barrier is sound.
-/

namespace SwitchTrade.Relay

open Tunnel Fallible Transition

/-! ## The barrier as a property of what was observed -/

def Event.session : Event → SessionId
  | .accepted i .. | .forwarded i .. | .lost i .. => i

/-- The event is a frame of the seat that passed its section. -/
def Event.isAccepted (source : SourceSeat) : Event → Bool
  | .accepted _ seat _ => seat = source
  | _ => false

/-- The event is the hand-over of a frame of the kind. -/
def Event.isForwarded (kind : Kind) : Event → Bool
  | .forwarded _ _ e => e.kind = kind
  | _ => false

theorem Event.of_isForwarded {kind : Kind} {x : Event} (h : x.isForwarded kind) :
    ∃ i seat e, x = .forwarded i seat e ∧ e.kind = kind := by
  cases x with
  | forwarded i seat e => exact ⟨i, seat, e, rfl, by simpa [isForwarded] using h⟩
  | accepted | lost => simp [isForwarded] at h

/-- The newest events hold a `SIDE_READY` of the seat in `epoch`, accepted since the last
loss of a connection of the session, and the seat opened no other epoch after it. -/
def ReadyAt (trace : List Event) (i : SessionId) (source : SourceSeat) (epoch : Nat) : Prop :=
  ∃ after ready before, trace = after ++ .accepted i source ready :: before ∧
    ready.kind = .sideReady ∧ ready.sourceEpoch = epoch ∧ (∀ seat, Event.lost i seat ∉ after) ∧
    ∀ e, Event.accepted i source e ∈ after → e.sourceEpoch = epoch

/-- Every forwarded `RFU` found both seats ready. -/
def RfuBarrier (trace : List Event) : Prop :=
  ∀ after i seat e before, trace = after ++ .forwarded i seat e :: before → e.kind = .rfu →
    ∀ source, ∃ epoch, ReadyAt before i source epoch

theorem ReadyAt.cons {trace : List Event} {i : SessionId} {source : SourceSeat} {epoch : Nat}
    (h : ReadyAt trace i source epoch) {x : Event} (kept : ∀ seat, x ≠ .lost i seat)
    (same : ∀ e, x = .accepted i source e → e.sourceEpoch = epoch) :
    ReadyAt (x :: trace) i source epoch := by
  obtain ⟨after, ready, before, rfl, hkind, hepoch, hlost, hlater⟩ := h
  refine ⟨x :: after, ready, before, rfl, hkind, hepoch, fun seat hmem => ?_, fun e hmem => ?_⟩
  · rcases List.mem_cons.mp hmem with heq | hmem
    · exact kept seat heq.symm
    · exact hlost seat hmem
  · rcases List.mem_cons.mp hmem with heq | hmem
    · exact same e heq.symm
    · exact hlater e hmem

theorem ReadyAt.accepted {trace : List Event} {i : SessionId} {source : SourceSeat} {epoch : Nat}
    (h : ReadyAt trace i source epoch) : ∃ e, Event.accepted i source e ∈ trace := by
  obtain ⟨after, ready, before, rfl, -⟩ := h
  exact ⟨ready, by simp⟩

/-- Events of other sessions do not matter. -/
theorem ReadyAt.other {trace : List Event} {i : SessionId} {source : SourceSeat} {epoch : Nat}
    (h : ReadyAt trace i source epoch) {events : List Event}
    (hevents : ∀ x ∈ events, x.session ≠ i) :
    ReadyAt (events ++ trace) i source epoch := by
  induction events with
  | nil => exact h
  | cons x events ih =>
    have hx := hevents x (List.mem_cons_self ..)
    refine (ih fun y hy => hevents y (List.mem_cons_of_mem _ hy)).cons (fun seat hlost => ?_)
      fun e haccepted => ?_
    · exact hx (by rw [hlost]; rfl)
    · exact absurd (by rw [haccepted]; rfl) hx

theorem RfuBarrier.cons {trace : List Event} (h : RfuBarrier trace) {x : Event}
    (hx : ∀ i seat e, x = .forwarded i seat e → e.kind = .rfu →
      ∀ source, ∃ epoch, ReadyAt trace i source epoch) : RfuBarrier (x :: trace) := by
  intro after i seat e before heq hkind
  cases after with
  | nil =>
    obtain ⟨rfl, rfl⟩ := List.cons.inj heq
    exact hx i seat e rfl hkind
  | cons y after =>
    obtain ⟨-, rfl⟩ := List.cons.inj heq
    exact h after i seat e before rfl hkind

theorem RfuBarrier.lost {trace : List Event} (h : RfuBarrier trace) (i : SessionId)
    (seat : SourceSeat) : RfuBarrier (.lost i seat :: trace) := h.cons nofun

theorem RfuBarrier.accepted {trace : List Event} (h : RfuBarrier trace) (i : SessionId)
    (seat : SourceSeat) (e : Envelope) : RfuBarrier (.accepted i seat e :: trace) := h.cons nofun

/-! ## What one frame does to the two epochs -/

/-- A recorded `SIDE_READY` epoch is the epoch of the gate. -/
def EpochsMatch (s : V2Session) : Prop :=
  ∀ source epoch, s.sideReadyEpochs.get source = some epoch →
    (s.gates.get source).epoch = some epoch

namespace V2Session

variable {lib : Library} {attemptId : String} {s s' : V2Session} {seat : SourceSeat}
  {admitted : Admitted} {e : Envelope}

/-- A handled frame: what stands of the two epochs, and that an `RFU` found them equal. -/
theorem handle_spec (hmatch : EpochsMatch s)
    (h : s.handle lib attemptId seat admitted e = .ok s') :
    s'.peers = s.peers ∧ EpochsMatch s' ∧ (s'.gates.get seat).epoch = some e.sourceEpoch ∧
      s'.gates.get seat.peer = s.gates.get seat.peer ∧
      (∀ source epoch, s'.sideReadyEpochs.get source = some epoch →
        (s.sideReadyEpochs.get source = some epoch ∧ (source = seat → e.sourceEpoch = epoch)) ∨
        (source = seat ∧ e.kind = .sideReady ∧ e.sourceEpoch = epoch)) ∧
      (e.kind = .rfu → s'.bridgeReady) := by
  obtain ⟨s₁, s₂, h₁, h₂, h₃⟩ := handle_ok h
  obtain ⟨hepoch₁, hready₁, hown₁⟩ := acceptFrame_epochs h₁
  obtain ⟨-, hgates₂, -, hready₂, hrfu₂⟩ := checkFrame_spec h₂
  obtain ⟨-, hgates₃, hready₃, -⟩ := retainFrame_spec h₃
  have hgates : s'.gates = s₁.gates := hgates₃.trans hgates₂
  have hbeside := handle_beside h
  -- A standing `SIDE_READY` of this seat is of the frame's epoch.
  have hsource : ∀ source epoch, s'.sideReadyEpochs.get source = some epoch →
      (s.sideReadyEpochs.get source = some epoch ∧ (source = seat → e.sourceEpoch = epoch)) ∨
      (source = seat ∧ e.kind = .sideReady ∧ e.sourceEpoch = epoch) := by
    intro source epoch hstands
    rw [hready₃] at hstands
    have hkept : s₁.sideReadyEpochs.get source = some epoch →
        s.sideReadyEpochs.get source = some epoch ∧ (source = seat → e.sourceEpoch = epoch) := by
      intro hstands
      have hbefore : s.sideReadyEpochs.get source = some epoch := by
        rcases hready₁ source with hnone | hsame
        · simp [hnone] at hstands
        · rw [← hsame, hstands]
      refine ⟨hbefore, ?_⟩
      rintro rfl
      rcases hown₁ with hnone | hprior
      · simp [hnone] at hstands
      · exact Option.some.inj (hprior.symm.trans (hmatch _ _ hbefore))
    rcases hready₂ with hsame | ⟨hkind, hset⟩
    · exact .inl (hkept (hsame ▸ hstands))
    · rcases SourceSeat.eq_or_peer seat source with rfl | rfl
      · refine .inr ⟨rfl, hkind, ?_⟩
        simpa [hset] using hstands
      · refine .inl (hkept ?_)
        simpa [hset] using hstands
  refine ⟨hbeside.peers, fun source epoch hstands => ?_, ?_, hbeside.gate, hsource,
    fun hkind => ?_⟩
  · rcases SourceSeat.eq_or_peer seat source with rfl | rfl
    · rw [hgates, hepoch₁]
      rcases hsource _ _ hstands with ⟨-, hown⟩ | ⟨-, -, hown⟩
      · rw [hown rfl]
      · rw [hown]
    · rw [hbeside.gate]
      rcases hsource _ _ hstands with ⟨hbefore, -⟩ | ⟨hseat, -⟩
      · exact hmatch _ _ hbefore
      · exact absurd hseat (SourceSeat.peer_ne _)
  · rw [hgates, hepoch₁]
  · have hsame : s₂.sideReadyEpochs = s₁.sideReadyEpochs := by
      rcases hready₂ with hsame | ⟨hside, -⟩
      · exact hsame
      · simp [hkind] at hside
    have hbridge := hrfu₂ hkind
    simp only [bridgeReady, hready₃, hsame, hgates] at hbridge ⊢
    exact hbridge

/-- A frame that raises records no `SIDE_READY`. -/
theorem handle_error_spec (hmatch : EpochsMatch s) {error : FrameError}
    (h : s.handle lib attemptId seat admitted e = .error (error, s')) :
    s'.peers = s.peers ∧ EpochsMatch s' ∧
      ∀ source epoch, s'.sideReadyEpochs.get source = some epoch →
        s.sideReadyEpochs.get source = some epoch := by
  have hbeside := handle_error_beside h
  rcases handle_error h with rfl | ⟨s₁, h₁, hlast⟩
  · exact ⟨rfl, hmatch, fun _ _ hstands => hstands⟩
  · obtain ⟨hepoch₁, hready₁, hown₁⟩ := acceptFrame_epochs h₁
    have hkept : ∀ source epoch, s₁.sideReadyEpochs.get source = some epoch →
        s.sideReadyEpochs.get source = some epoch ∧ (s₁.gates.get source).epoch = some epoch := by
      intro source epoch hstands
      have hbefore : s.sideReadyEpochs.get source = some epoch := by
        rcases hready₁ source with hnone | hsame
        · simp [hnone] at hstands
        · rw [← hsame, hstands]
      refine ⟨hbefore, ?_⟩
      rcases SourceSeat.eq_or_peer seat source with rfl | rfl
      · rcases hown₁ with hnone | hprior
        · simp [hnone] at hstands
        · rw [hepoch₁, ← hprior, hmatch _ _ hbefore]
      · rw [(acceptFrame_beside h₁).gate]
        exact hmatch _ _ hbefore
    rcases hlast with rfl | ⟨hkeeps, h₂⟩
    · exact ⟨hbeside.peers, fun source epoch hstands => (hkept source epoch hstands).2,
        fun source epoch hstands => (hkept source epoch hstands).1⟩
    · obtain ⟨-, hgates₂, -, hready₂, -⟩ := checkFrame_spec h₂
      have hsame : s'.sideReadyEpochs = s₁.sideReadyEpochs := by
        rcases hready₂ with hsame | ⟨hkind, -⟩
        · exact hsame
        · simp [hkind, keeps] at hkeeps
      refine ⟨hbeside.peers, fun source epoch hstands => ?_, fun source epoch hstands => ?_⟩
      · rw [hgates₂]
        exact (hkept source epoch (hsame ▸ hstands)).2
      · exact (hkept source epoch (hsame ▸ hstands)).1

end V2Session

/-! ## The invariant of the relay -/

/-- The recorded `SIDE_READY`s of a session are what the barrier takes them for. -/
def Standing (trace : List Event) (i : SessionId) (s : V2Session) : Prop :=
  ∀ source epoch, s.sideReadyEpochs.get source = some epoch → ReadyAt trace i source epoch

/-- A session whose `SIDE_READY`s no longer stand has left the registry, and a seat of it is
empty. -/
def SessionSound (w : World) (i : SessionId) (s : V2Session) : Prop :=
  EpochsMatch s ∧
    (Standing w.trace i s ∨ (w.registered ≠ some i ∧ ∃ seat, s.peers.get seat = none))

structure BarrierInv (w : World) : Prop where
  barrier : RfuBarrier w.trace
  sessions : ∀ i s, w.sessions[i]? = some s → SessionSound w i s

theorem EpochsMatch.of_none {s : V2Session} (h : s.sideReadyEpochs = .both none) : EpochsMatch s :=
  fun source epoch hstands => by simp [h] at hstands

theorem Standing.of_none {trace : List Event} {i : SessionId} {s : V2Session}
    (h : s.sideReadyEpochs = .both none) : Standing trace i s :=
  fun source epoch hstands => by simp [h] at hstands

section Steps

variable {w w' : World}

/-- A step that touches no session and is not observed. -/
theorem BarrierInv.frame (h : BarrierInv w) (hsessions : w'.sessions = w.sessions)
    (hregistry : RegistryStep w w') (htrace : w'.trace = w.trace) : BarrierInv w' := by
  refine ⟨htrace ▸ h.barrier, fun i s hs => ?_⟩
  obtain ⟨hmatch, hstanding⟩ := h.sessions i s (hsessions ▸ hs)
  refine ⟨hmatch, ?_⟩
  rcases hstanding with hstanding | ⟨hgone, hempty⟩
  · exact .inl (htrace ▸ hstanding)
  · exact .inr ⟨hregistry.ne hgone, hempty⟩

/-- A step that changes one session, and whose events are about it. -/
theorem BarrierInv.set (h : BarrierInv w) {j : SessionId} {s' : V2Session} (events : List Event)
    (hsessions : w'.sessions = w.sessions.set j s') (hregistry : RegistryStep w w')
    (htrace : w'.trace = events ++ w.trace) (hevents : ∀ x ∈ events, x.session = j)
    (hbarrier : RfuBarrier w'.trace) (hsound : SessionSound w' j s') : BarrierInv w' := by
  refine ⟨hbarrier, fun i s hs => ?_⟩
  rw [hsessions, List.getElem?_set] at hs
  split at hs
  · rename_i hij
    subst hij
    split at hs <;> cases hs
    exact hsound
  · rename_i hij
    obtain ⟨hmatch, hstanding⟩ := h.sessions i s hs
    refine ⟨hmatch, ?_⟩
    rcases hstanding with hstanding | ⟨hgone, hempty⟩
    · refine .inl fun source epoch hstands => ?_
      rw [htrace]
      exact (hstanding source epoch hstands).other fun x hx hxi => hij ((hevents x hx) ▸ hxi)
    · exact .inr ⟨hregistry.ne hgone, hempty⟩

end Steps

namespace V2Session

/-- The gate of the seat takes the frame, the seat's `SIDE_READY` is one of the frame's epoch, and
what is recorded for the other seat is what its gate has, an epoch or none. -/
def Passes (s : V2Session) (seat : SourceSeat) (e : Envelope) : Prop :=
  ((s.gates.get seat).accept e).isOk = true ∧
    s.sideReadyEpochs.get seat = some e.sourceEpoch ∧
    s.sideReadyEpochs.get seat.peer = (s.gates.get seat.peer).epoch

instance (s : V2Session) (seat : SourceSeat) (e : Envelope) : Decidable (s.Passes seat e) :=
  inferInstanceAs (Decidable (_ ∧ _ ∧ _))

/-- An `RFU` that is not refused passes. -/
theorem passes_of_handle {lib : Library} {attemptId : String} {s s' : V2Session} {seat : SourceSeat}
    {admitted : Admitted} {e : Envelope} (hkind : e.kind = .rfu)
    (h : s.handle lib attemptId seat admitted e = .ok s') : s.Passes seat e := by
  obtain ⟨s₁, s₂, h₁, h₂, -⟩ := handle_ok h
  obtain ⟨-, -, -, -, hrfu⟩ := checkFrame_spec h₂
  have hready : ∀ source, s₁.sideReadyEpochs.get source = (s₁.gates.get source).epoch := by
    obtain ⟨hA, hB⟩ := hrfu hkind
    intro source
    cases source
    · exact hA
    · exact hB
  have hepoch := (acceptFrame_epochs h₁).1
  have hown := (hready seat).trans hepoch
  have hbeside := hready seat.peer
  obtain ⟨gate, haccept, ⟨-, rfl⟩ | ⟨-, rfl⟩⟩ := acceptFrame_cases h₁
  · exact ⟨by rw [haccept]; rfl, hown, by simpa using hbeside⟩
  · -- a new epoch has dropped the `SIDE_READY` of its seat
    simp at hown

end V2Session

/-- The steps the barrier relies on: an `RFU` that passes finds an epoch at the gate of the
other seat, and comes through the registered session or from the holder of its seat; a seat
is given back or lost around a replay, or taken in a session that left the registry, only
while no `SIDE_READY` is recorded there. -/
def KeepsReadiness (w : World) : Label → Prop
  | .handle c _ _ => ∀ conn ∈ w.conns[c]?, ∀ s ∈ w.sessions[conn.session]?,
      ∀ e ∈ conn.handler.frame?, e.kind = .rfu → (s.peers.get conn.seat.peer).isSome →
        s.Passes conn.seat e →
          (s.gates.get conn.seat.peer).epoch ≠ none ∧
            (w.registered = some conn.session ∨ s.peers.get conn.seat = some c)
  | .connect c replay => ∀ conn ∈ w.conns[c]?, ∀ s ∈ w.sessions[conn.session]?,
      s.peers.get conn.seat = none → w.registered ≠ some conn.session ∨ replay.diesEarly →
        s.sideReadyEpochs = .both none
  | .vacate c => ∀ conn ∈ w.conns[c]?, ∀ s ∈ w.sessions[conn.session]?,
      s.peers.get conn.seat = some c → s.sideReadyEpochs = .both none
  | _ => True

instance (w : World) : (l : Label) → Decidable (KeepsReadiness w l)
  | .handle c .. | .connect c _ | .vacate c => inferInstanceAs (Decidable (∀ conn ∈ w.conns[c]?, _))
  | .arrive _ | .receive .. | .observeReset _ | .drop _ | .leave .. | .unregister _
  | .disconnect _ => inferInstanceAs (Decidable True)

theorem SessionSound.free {w : World} {i : SessionId} {s : V2Session} (h : EpochsMatch s)
    (seat : SourceSeat) (gone : w.registered ≠ some i) : SessionSound w i (s.free seat) :=
  ⟨h, .inr ⟨gone, seat, by simp⟩⟩

theorem SessionSound.of_none {w : World} {i : SessionId} {s : V2Session}
    (h : s.sideReadyEpochs = .both none) : SessionSound w i s :=
  ⟨.of_none h, .inl (.of_none h)⟩

/-- Evicting a seat of a session that left the registry. -/
theorem BarrierInv.evict {w : World} (h : BarrierInv w) {i : SessionId}
    (gone : w.registered ≠ some i) (seat : SourceSeat) : BarrierInv (w.evict i seat) := by
  unfold World.evict
  split
  · exact h
  · rename_i s hs
    split
    · exact h
    · exact h.set [.lost i seat] rfl (.inl rfl) rfl (by simp [Event.session])
        (h.barrier.lost i seat) (SessionSound.free (h.sessions i s hs).1 seat gone)

/-- Evicting both seats of a session that waits to be disconnected. -/
theorem BarrierInv.disconnect {w : World} (h : BarrierInv w) {i : SessionId}
    (gone : w.registered ≠ some i) :
    BarrierInv (({ w with disconnecting := w.disconnecting.erase i }.evict i .memberA).evict i
      .memberB) := by
  have herased : BarrierInv { w with disconnecting := w.disconnecting.erase i } :=
    h.frame rfl (.inl rfl) rfl
  refine (herased.evict gone .memberA).evict ?_ .memberB
  rw [evict_registered]
  exact gone

/-- What a handled frame leaves of a session that keeps its seats. -/
theorem SessionSound.handled {lib : Library} {attemptId : String} {w w' : World} {i : SessionId}
    {s s' : V2Session} {seat : SourceSeat} {admitted : Admitted} {e : Envelope}
    (h : SessionSound w i s) (passes : s.handle lib attemptId seat admitted e = .ok s')
    (hregistry : RegistryStep w w') (events : List Event)
    (htrace : w'.trace = events ++ .accepted i seat e :: w.trace)
    (hevents : ∀ x ∈ events, ∃ e, x = .forwarded i seat e) : SessionSound w' i s' := by
  obtain ⟨hmatch, hstanding⟩ := h
  obtain ⟨hpeers, hmatch', -, -, hsource, -⟩ := V2Session.handle_spec hmatch passes
  refine ⟨hmatch', ?_⟩
  rcases hstanding with hstanding | ⟨hgone, seat', hempty⟩
  · refine .inl fun source epoch hstands => ?_
    have haccepted : ReadyAt (.accepted i seat e :: w.trace) i source epoch := by
      rcases hsource source epoch hstands with ⟨hbefore, hown⟩ | ⟨rfl, hkind, hepoch⟩
      · refine (hstanding source epoch hbefore).cons (fun _ => nofun) fun f hf => ?_
        obtain ⟨-, rfl, rfl⟩ := Event.accepted.inj hf
        exact hown rfl
      · exact ⟨[], e, w.trace, rfl, hkind, hepoch, by simp, by simp⟩
    rw [htrace]
    clear htrace
    induction events with
    | nil => exact haccepted
    | cons x events ih =>
      obtain ⟨f, rfl⟩ := hevents x (List.mem_cons_self ..)
      exact (ih fun y hy => hevents y (List.mem_cons_of_mem _ hy)).cons (fun _ => nofun)
        fun _ => nofun
  · exact .inr ⟨hregistry.ne hgone, seat', hpeers ▸ hempty⟩

/-- A handled `RFU` of a sound session found both seats ready, given that the other seat has
an epoch and that the session stands. -/
theorem SessionSound.rfu_ready {lib : Library} {attemptId : String} {w : World} {i : SessionId}
    {s s' : V2Session} {seat : SourceSeat} {admitted : Admitted} {e : Envelope} {c p : ConnId}
    (h : SessionSound w i s) (passes : s.handle lib attemptId seat admitted e = .ok s')
    (hkind : e.kind = .rfu) (present : s.peers.get seat.peer = some p)
    (spoke : (s.gates.get seat.peer).epoch ≠ none)
    (place : w.registered = some i ∨ s.peers.get seat = some c) (source : SourceSeat) :
    ∃ epoch, ReadyAt (.accepted i seat e :: w.trace) i source epoch := by
  obtain ⟨hpeers, -, hepoch, hother, -, hbridge⟩ := V2Session.handle_spec h.1 passes
  have haccepted : SessionSound (w.note (.accepted i seat e)) i s' :=
    h.handled passes (.inl rfl) [] rfl nofun
  have hstanding : Standing (.accepted i seat e :: w.trace) i s' := by
    rcases haccepted.2 with hstanding | ⟨hgone, seat', hempty⟩
    · exact hstanding
    · rw [hpeers] at hempty
      rcases place with hhere | hholder
      · exact absurd hhere hgone
      · rcases SourceSeat.eq_or_peer seat seat' with rfl | rfl
        · simp [hempty] at hholder
        · simp [hempty] at present
  have hgates : (s'.gates.get source).epoch ≠ none := by
    rcases SourceSeat.eq_or_peer seat source with rfl | rfl
    · simp [hepoch]
    · rw [hother]
      exact spoke
  obtain ⟨epoch, hcurrent⟩ := Option.ne_none_iff_exists'.mp hgates
  obtain ⟨hA, hB⟩ := hbridge hkind
  refine ⟨epoch, hstanding source epoch ?_⟩
  cases source
  · exact hA.trans hcurrent
  · exact hB.trans hcurrent

theorem BarrierInv.step {lib : Library} {attemptId : String} {w w' : World} {l : Label}
    (h : BarrierInv w) (hdetached : Detached w) (hg : KeepsReadiness w l)
    (hstep : w.step lib attemptId l = some w') : BarrierInv w' := by
  cases step_section hstep with
  | arriveNew seat hnone =>
    refine ⟨h.barrier, fun i s hs => ?_⟩
    simp only at hs
    rw [List.getElem?_append] at hs
    split at hs
    · rename_i hlt
      obtain ⟨hmatch, hstanding⟩ := h.sessions i s hs
      refine ⟨hmatch, ?_⟩
      rcases hstanding with hstanding | ⟨-, hempty⟩
      · exact .inl hstanding
      · exact .inr ⟨fun here => Nat.ne_of_gt hlt (Option.some.inj here), hempty⟩
    · obtain rfl : V2Session.new attemptId = s := by
        rw [List.getElem?_singleton] at hs
        split at hs <;> simp_all
      exact .of_none rfl
  | arriveFound | taken | vacatedLate | received | rejected | resetSeen | dropped | leftLate =>
    exact h.frame rfl (.inl rfl) rfl
  | leftFatalLate | unregistered => exact h.frame rfl (.inr rfl) rfl
  | joined hc hs arriving free | replayFailed count broken hc hs arriving free =>
    rename_i conn s
    refine h.set [] rfl (.inl rfl) rfl nofun h.barrier ?_
    by_cases hhere : w.registered = some conn.session
    · obtain ⟨hmatch, hstanding | ⟨hgone, -⟩⟩ := h.sessions _ _ hs
      · exact ⟨hmatch, .inl hstanding⟩
      · exact absurd hhere hgone
    · exact .of_none (hg conn hc s hs free (.inl hhere))
  | replayDied count hc hs arriving free =>
    rename_i c conn s
    exact h.set [.lost conn.session conn.seat] rfl (.inl rfl) rfl (by simp [Event.session])
      (h.barrier.lost _ _) (.of_none (hg conn hc s hs free (.inr rfl)))
  | vacated hc hs failed holder =>
    rename_i c conn s
    exact h.set [.lost conn.session conn.seat] rfl (.inl rfl) rfl (by simp [Event.session])
      (h.barrier.lost _ _) (.of_none (hg conn hc s hs holder))
  | raised admitted sent hc hs holding raises =>
    obtain ⟨hmatch, hstanding⟩ := h.sessions _ _ hs
    obtain ⟨hpeers, hmatch', hkeeps⟩ := V2Session.handle_error_spec hmatch raises
    refine h.set [] rfl (.inl rfl) rfl nofun h.barrier ⟨hmatch', ?_⟩
    rcases hstanding with hstanding | ⟨hgone, seat, hempty⟩
    · exact .inl fun source epoch hstands => hstanding source epoch (hkeeps source epoch hstands)
    · exact .inr ⟨hgone, seat, hpeers ▸ hempty⟩
  | kept admitted sent hc hs holding passes alone =>
    rename_i c conn s s' e
    exact h.set [.accepted conn.session conn.seat e] rfl (.inl rfl) rfl
      (by simp [Event.session]) (h.barrier.accepted _ _ _)
      ((h.sessions _ _ hs).handled passes (.inl rfl) [] rfl nofun)
  | forwarded admitted sent hc hs holding passes present hp =>
    rename_i c p conn peer s s' e
    have hsound := h.sessions _ _ hs
    refine h.set [.forwarded conn.session conn.seat e, .accepted conn.session conn.seat e]
      rfl (.inl rfl) rfl (by simp [Event.session]) ?_
      (hsound.handled passes (.inl rfl) [.forwarded conn.session conn.seat e] rfl
        (by simp))
    refine (h.barrier.accepted _ _ _).cons fun i seat f hf hkind => ?_
    obtain ⟨rfl, rfl, rfl⟩ := Event.forwarded.inj hf
    rw [(V2Session.handle_beside passes).peers] at present
    obtain ⟨hspoke, hplace⟩ :=
      hg conn hc s hs e (by simp [holding, Handler.frame?]) hkind (by simp [present])
        (V2Session.passes_of_handle hkind passes)
    exact hsound.rfu_ready passes hkind present hspoke hplace
  | leftFatal sent hc hs leaving holder =>
    rename_i c conn s code
    exact h.set [.lost conn.session conn.seat] rfl (.inr rfl) rfl
      (by simp [Event.session]) (h.barrier.lost _ _)
      (SessionSound.free (h.sessions _ _ hs).1 conn.seat (by simp))
  | leftUnregistered sent hc hs leaving holder gone =>
    rename_i c conn s
    exact h.set [.lost conn.session conn.seat] rfl (.inl rfl) rfl (by simp [Event.session])
      (h.barrier.lost _ _) (SessionSound.free (h.sessions _ _ hs).1 conn.seat gone)
  | leftAlone sent hc hs =>
    rename_i c conn s leaving holder here alone
    exact h.set [.lost conn.session conn.seat] rfl (.inl rfl) rfl (by simp [Event.session])
      (h.barrier.lost _ _) (.of_none rfl)
  | leftRaised hc hs =>
    rename_i c p conn peer s epoch leaving holder here present hp spoke
    exact h.set [.lost conn.session conn.seat] rfl (.inl rfl) rfl (by simp [Event.session])
      (h.barrier.lost _ _) (.of_none rfl)
  | leftSilent sent hc hs =>
    rename_i c p conn peer s leaving holder here present hp silent
    exact h.set [.lost conn.session conn.seat.peer, .lost conn.session conn.seat] rfl
      (.inl rfl) rfl (by simp [Event.session]) ((h.barrier.lost _ _).lost _ _) (.of_none rfl)
  | leftClosing sent hc hs =>
    rename_i c p conn peer s epoch leaving holder here present hp spoke
    exact h.set [.lost conn.session conn.seat.peer, .lost conn.session conn.seat] rfl
      (.inl rfl) rfl (by simp [Event.session]) ((h.barrier.lost _ _).lost _ _) (.of_none rfl)
  | disconnected pending hs =>
    rename_i i s
    have hevicted := h.disconnect (hdetached i pending).1
    obtain ⟨hmatch, hstanding⟩ := hevicted.sessions i s hs
    exact hevicted.set [] rfl (.inl rfl) rfl nofun hevicted.barrier ⟨hmatch, hstanding⟩
  | disconnectedNone pending hs => exact h.disconnect (hdetached _ pending).1

theorem BarrierInv.empty : BarrierInv .empty := by
  refine ⟨fun after i seat e before heq => ?_, fun i s hs => ?_⟩
  · exact absurd heq (by simp [World.empty])
  · simp [World.empty] at hs

/-! ## The barrier along every run -/

/-- In every run that keeps to `KeepsReadiness`, an `RFU` frame is forwarded only while both
seats have an accepted `SIDE_READY` in their current source epochs and no connection of
either was lost since. -/
theorem forwarded_rfu_ready {lib : Library} {attemptId : String} {w : World}
    (h : (system lib attemptId).Reachable KeepsReadiness w) : RfuBarrier w.trace := by
  have hinv : BarrierInv w ∧ Detached w := by
    refine System.Reachable.invariant (P := fun w => BarrierInv w ∧ Detached w) (fun w hw => ?_)
      (fun w l w' h hg hn => ⟨h.1.step h.2 hg hn, h.2.step hn⟩) h
    obtain rfl : w = .empty := hw
    exact ⟨.empty, fun i hi => by simp [World.empty] at hi⟩
  exact hinv.1.barrier

theorem reachable_of_play {lib : Library} {attemptId : String} {G : World → Label → Prop}
    [∀ w l, Decidable (G w l)] {labels : List Label} {w : World}
    (h : System.play (World.step lib attemptId) G .empty labels = some w) :
    (system lib attemptId).Reachable G w :=
  ⟨.empty, rfl, System.run_of_play h⟩

/-! Two clients exchange what the barrier asks for. -/

/-- `hashlib.sha256(b"pia").hexdigest()`. -/
def piaSha256 : String := "cce6630a4894a148982e2822d7b7197dd5c8df7f29b9181e43b03716c85fd8e9"

/-- `launch_identity_hash` of each client's launch. -/
def launchSha256 : SourceSeat → String
  | .memberA => "c9405aa713e9dabe816f26898eef15981bf92f0f0fd836159f60a69c3c34a36e"
  | .memberB => "9508f2ffdf294d288de10fc320cf7fcf98f31ba62ccda3b55f281f1dbd056139"

def clientRunId : SourceSeat → String
  | .memberA => "12345678-1234-4123-8123-123456789012"
  | .memberB => "12345678-1234-4123-8123-123456789013"

def clientRole : SourceSeat → String
  | .memberA => "a_room_joiner"
  | .memberB => "b_ap_host"

def clientGate : SourceSeat → String
  | .memberA => "A_READY"
  | .memberB => "B_READY"

def clientReady (seat : SourceSeat) : SideReady where
  contractVersion := "side-ready.v1"
  attemptId := "attempt"
  activationGeneration := 1
  sourceSeat := seat.label
  switchRole := clientRole seat
  localGate := clientGate seat
  runId := clientRunId seat
  stageGeneration := 1
  launchIdentitySha256 := launchSha256 seat
  advertisementSha256 := piaSha256
  proofGeneration := 1

/-- `SideReady.encode` of that record. -/
def clientReadyBytes (seat : SourceSeat) : Bytes :=
  ascii "\x7b\"activation_generation\":1," ++
    ascii "\"advertisement_sha256\":\"" ++ ascii piaSha256 ++
    ascii "\",\"attempt_id\":\"attempt\"," ++
    ascii "\"contract_version\":\"side-ready.v1\"," ++
    ascii "\"launch_identity_sha256\":\"" ++ ascii (launchSha256 seat) ++
    ascii "\",\"local_gate\":\"" ++ ascii (clientGate seat) ++
    ascii "\",\"proof_generation\":1,\"run_id\":\"" ++ ascii (clientRunId seat) ++
    ascii "\",\"source_seat\":\"" ++ ascii seat.label ++
    ascii "\",\"stage_generation\":1,\"switch_role\":\"" ++ ascii (clientRole seat) ++
    ascii "\"\x7d"

/-- What the two library functions do on the payloads below. -/
def clientLibrary : Library where
  sha256 payload :=
    if payload = ascii "pia" then piaSha256
    else "e3b0c44298fc1c149afbf4c8996fb92427ae41e4649b934ca495991b7852b855"
  decodeSideReady payload :=
    if payload = clientReadyBytes .memberA then .ok (clientReady .memberA)
    else if payload = clientReadyBytes .memberB then .ok (clientReady .memberB)
    else .error (.contract ⟨"C_SIDE_READY_INVALID", "SIDE_READY payload is invalid"⟩)

def clientAdmitted (seat : SourceSeat) : Admitted where
  switchRole := some (clientRole seat)
  runId := clientRunId seat
  stageGeneration := 1
  launchIdentitySha256 := launchSha256 seat
  activationGeneration := some 1

/-- The connection of a seat receives a frame of its source epoch and handles it. -/
def clientSends (c : ConnId) (seat : SourceSeat) (sequence : Nat) (kind : Kind) (payload : Bytes) :
    List Label :=
  [.receive c (.ok
      { attemptId := "attempt", sourceSeat := seat, sourceEpoch := 7 + c, sequence, kind
        payload }),
    .handle c (clientAdmitted seat) .delivered]

def bothConnect : List Label :=
  [.arrive .memberA, .connect 0 .complete, .arrive .memberB, .connect 1 .complete]

/-- Seat A up to its `SIDE_READY`. -/
def firstReady : List Label :=
  clientSends 0 .memberA 0 .peerReady [] ++
    clientSends 0 .memberA 1 .advertisement (ascii "pia") ++
    clientSends 0 .memberA 2 .sideReady (clientReadyBytes .memberA)

/-- Seat B up to its `SIDE_READY`, and its first `RFU`. -/
def secondReady : List Label :=
  clientSends 1 .memberB 0 .peerReady [] ++
    clientSends 1 .memberB 1 .sideReady (clientReadyBytes .memberB) ++
    clientSends 1 .memberB 2 .rfu [1]

theorem forwarded_rfu_ready_exchange :
    ∃ w, System.play (World.step clientLibrary "attempt") KeepsReadiness .empty
        (bothConnect ++ firstReady ++ secondReady) = some w ∧
      w.trace.head?.any (·.isForwarded .rfu) ∧ RfuBarrier w.trace := by
  obtain ⟨w, hw, hrfu⟩ := (Option.any_eq_true _ _).mp
    (show (System.play (World.step clientLibrary "attempt") KeepsReadiness .empty
      (bothConnect ++ firstReady ++ secondReady)).any (fun w =>
        w.trace.head?.any (·.isForwarded .rfu)) by decide +kernel)
  exact ⟨w, hw, hrfu, forwarded_rfu_ready (reachable_of_play hw)⟩

/-- A seat that stays silent has no epoch and no `SIDE_READY`, and the two compare equal. -/
theorem rfu_reaches_silent_seat :
    ¬ ∀ (lib : Library) (attemptId : String) (w : World),
      (system lib attemptId).Reachable System.Free w → RfuBarrier w.trace := by
  intro h
  have hrun : (System.play (World.step clientLibrary "attempt") System.Free .empty
      (bothConnect ++ firstReady ++ clientSends 0 .memberA 3 .rfu [1])).any (fun w =>
        w.trace.head?.any (·.isForwarded .rfu) &&
          w.trace.all fun x => ¬ x.isAccepted .memberB) := by decide +kernel
  obtain ⟨w, hw, hp⟩ := (Option.any_eq_true _ _).mp hrun
  simp only [Bool.and_eq_true, List.all_eq_true] at hp
  obtain ⟨hforwarded, hsilent⟩ := hp
  obtain ⟨x, hhead, hx⟩ := (Option.any_eq_true _ _).mp hforwarded
  obtain ⟨before, htrace⟩ := List.head?_eq_some_iff.mp hhead
  obtain ⟨i, seat, e, rfl, hkind⟩ := Event.of_isForwarded hx
  obtain ⟨epoch, hready⟩ := h _ _ w (reachable_of_play hw) [] _ _ _ before htrace hkind .memberB
  obtain ⟨ready, hmem⟩ := hready.accepted
  have hnone :=
    hsilent (.accepted i .memberB ready) (by rw [htrace]; exact List.mem_cons_of_mem _ hmem)
  simp [Event.isAccepted] at hnone

end SwitchTrade.Relay

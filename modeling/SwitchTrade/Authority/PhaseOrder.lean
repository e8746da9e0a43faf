import SwitchTrade.Authority.AttemptRun

/-!
# The order of attempt phases

`mutate` refuses a phase that lies before the one the attempt is in, and the other writers
only finish attempts that are not finished. Two writers do not look at the phase:
`lock_role` puts every attempt back to `connecting_switches`, and the acknowledgement that
completes the pair writes the recorded outcome over a terminal phase that differs from it.
Without these two the rank of the phase never decreases and a terminal phase is final.
-/

namespace SwitchTrade.Authority

open Fallible Transition

/-- Two readings of one attempt: the rank did not decrease, and a terminal phase stayed. -/
def PhaseOrdered (a b : Attempt) : Prop :=
  attemptPhaseOrder a.phase ≤ attemptPhaseOrder b.phase ∧
    (a.phase.terminal = true → b.phase = a.phase)

instance (a b : Attempt) : Decidable (PhaseOrdered a b) := inferInstanceAs (Decidable (_ ∧ _))

theorem PhaseOrdered.refl (a : Attempt) : PhaseOrdered a a := ⟨le_rfl, fun _ => rfl⟩

theorem PhaseOrdered.trans {a b c : Attempt} (hab : PhaseOrdered a b) (hbc : PhaseOrdered b c) :
    PhaseOrdered a c := by
  refine ⟨hab.1.trans hbc.1, fun finished => ?_⟩
  have hb : b.phase = a.phase := hab.2 finished
  exact (hbc.2 (hb ▸ finished)).trans hb

theorem PhaseOrdered.of_eq {a b : Attempt} (h : b.phase = a.phase) : PhaseOrdered a b :=
  ⟨by rw [h], fun _ => h⟩

/-- From a phase that is not terminal every move forward is ordered. -/
theorem PhaseOrdered.of_active {a b : Attempt} (active : a.phase.terminal = false)
    (forward : attemptPhaseOrder a.phase ≤ attemptPhaseOrder b.phase) : PhaseOrdered a b :=
  ⟨forward, fun finished => by simp [active] at finished⟩

theorem PhaseOrdered.of_finished {a b : Attempt} (active : a.phase.terminal = false)
    (last : attemptPhaseOrder b.phase = 7) : PhaseOrdered a b :=
  .of_active active (last ▸ AttemptPhase.order_le _)

theorem AttemptPhase.order_le_closing {p : AttemptPhase} (active : p.terminal = false) :
    attemptPhaseOrder p ≤ attemptPhaseOrder .closing := by
  cases p <;> first | decide | cases active

/-- The two calls that may take a phase back are not made where they would: `lock_role`
is accepted only up to `connecting_switches`, and an acknowledgement completes the pair
only while the attempt closes, or ended as recorded. -/
def KeepsPhases (s : Store) : Op → Prop
  | .mutate now roomId bearer commandId .lockRole payload version =>
    ∀ room memberId a,
      s.db.Addresses now roomId bearer commandId (.member · .lockRole) room memberId →
      room.LocksRole memberId payload version a → attemptPhaseOrder a.phase ≤ 1
  | .acknowledgeDQuiescent now roomId bearer commandId attemptId payload version =>
    ∀ room memberId a d m report,
      s.db.Addresses now roomId bearer commandId (.dQuiescent · attemptId) room memberId →
      room.Acknowledges now memberId attemptId payload version a d m report →
      (d.sides.get m.seat.other).isSome → a.phase = .closing ∨ a.phase = d.outcome.phase
  | _ => True

/-- What one write does to the phase. -/
theorem RoomWrite.phases {s : Store} {op : Op} {room r : Room} (hg : KeepsPhases s op)
    (h : RoomWrite s op room r) :
    Kept s.supply (·.roleLocked = true) PhaseOrdered room.attempt r.attempt := by
  obtain ⟨w, hmove, hby⟩ := h.move
  intro locked b hb
  generalize hx : room.attempt = x at hmove locked
  generalize hy : r.attempt = y at hmove hb
  cases hmove with
  | same => exact ⟨locked b hb, fun _ => ⟨b, hb, rfl, .refl b⟩⟩
  | drop => cases hb
  | begin act x b' finished id phase begunLocked =>
    cases hb
    exact ⟨begunLocked, fun hlt => absurd id hlt.ne⟩
  | assign act a b' unlocked =>
    have := locked a rfl
    simp [unlocked] at this
  | lock a version =>
    cases hb
    obtain ⟨now, roomId, bearer, commandId, payload, v, memberId, event, data, revoked, rfl,
      haddressed, hwritten⟩ := hby
    obtain ⟨a', haccepted⟩ := Room.lockRole_write hwritten
    obtain rfl : a' = a := Option.some.inj (haccepted.held.symm.trans hx)
    have hearly := hg room memberId a' haddressed haccepted
    refine ⟨rfl, fun _ => ⟨a', rfl, rfl, hearly, fun finished => ?_⟩⟩
    have := (AttemptPhase.terminal_iff _).mp finished
    omega
  | refine a =>
    cases hb
    exact ⟨locked a rfl, fun _ => ⟨a, rfl, rfl, .of_eq rfl⟩⟩
  | move a phase error active forward =>
    cases hb
    exact ⟨locked a rfl, fun _ => ⟨a, rfl, rfl, .of_active active forward⟩⟩
  | cancel a active =>
    cases hb
    exact ⟨locked a rfl, fun _ => ⟨a, rfl, rfl, .of_finished active rfl⟩⟩
  | close a d active =>
    cases hb
    exact ⟨locked a rfl,
      fun _ => ⟨a, rfl, rfl, .of_active active (AttemptPhase.order_le_closing active)⟩⟩
  | report a =>
    cases hb
    exact ⟨locked a rfl, fun _ => ⟨a, rfl, rfl, .of_eq rfl⟩⟩
  | conclude a d seat report status code intent finishing first both =>
    cases hb
    obtain ⟨now, roomId, bearer, commandId, attemptId, payload, v, memberId, event, data, revoked,
      rfl, haddressed, hwritten⟩ := hby
    obtain ⟨a', d', m, report', checked, -⟩ := Room.acknowledgeDQuiescent_write hwritten
    obtain rfl : a' = a := Option.some.inj (checked.held.symm.trans hx)
    obtain rfl : d' = d := Option.some.inj (checked.intent.symm.trans intent)
    obtain ⟨sideA, sideB, hA, hB, -⟩ := both
    have hother := DSides.other_of_both first checked.first hA hB
    refine ⟨locked a' rfl, fun _ => ⟨a', rfl, rfl, ?_⟩⟩
    rcases hg room memberId a' d' m report' haddressed checked hother with hclosing | hended
    · exact .of_finished (by rw [hclosing]; rfl) (DOutcome.order_phase _)
    · exact .of_eq hended.symm
  | force _ a d barrier code writer closing intent =>
    cases hb
    exact ⟨locked a rfl,
      fun _ => ⟨a, rfl, rfl, .of_finished (by rw [closing]; rfl) (DOutcome.order_phase _)⟩⟩
  | fail _ a code writer active =>
    cases hb
    exact ⟨locked a rfl, fun _ => ⟨a, rfl, rfl, .of_finished active rfl⟩⟩

/-- Along every run that keeps to `KeepsPhases`, the phase of one attempt only moves
forward and a terminal phase is final. -/
theorem run_phases_ordered {s t : Store} (hs : system.Reachable KeepsPhases s)
    (hrun : system.Run KeepsPhases s t) {roomId : RoomId} {a b : Attempt}
    (ha : s.attemptOf roomId = some a) (hb : t.attemptOf roomId = some b)
    (hid : b.attemptId = a.attemptId) : PhaseOrdered a b := by
  have htrace : AttemptTrace PhaseOrdered s t :=
    run_attempts PhaseOrdered.refl (fun _ _ _ => PhaseOrdered.trans)
      (fun s op room r hg h => h.phases hg) hs hrun
  exact htrace.read (reachable_ids hs) ha hb hid

theorem run_phases_ordered_failed :
    ∃ a b, (Store.initial.run startedCalls).attemptOf 0 = some a ∧
      ((Store.initial.run startedCalls).step
        (.failTransportAttempt 1 0 15 "relay.peer_lost")).attemptOf 0 = some b ∧
      b.phase = .failed ∧ PhaseOrdered a b := by
  obtain ⟨a, b, ha, hb, hid, hphase⟩ :=
    readings (s := Store.initial.run startedCalls) 0
      (t := (Store.initial.run startedCalls).step (.failTransportAttempt 1 0 15 "relay.peer_lost"))
      (p := fun a b => b.attemptId = a.attemptId ∧ b.phase = .failed) (by decide)
  have hstarted : system.Reachable KeepsPhases (Store.initial.run startedCalls) :=
    reachable_calls _ fun s => ⟨trivial, trivial, trivial, trivial⟩
  have hfailed : system.Run KeepsPhases (Store.initial.run startedCalls)
      ((Store.initial.run startedCalls).step (.failTransportAttempt 1 0 15 "relay.peer_lost")) :=
    .step (i := .failTransportAttempt 1 0 15 "relay.peer_lost") trivial rfl
  exact ⟨a, b, ha, hb, hphase, run_phases_ordered hstarted hfailed ha hb hid⟩

/-- `lock_role` takes a failed attempt back to `connecting_switches`. -/
theorem lock_role_reopens_failed :
    ¬ ∀ (s : Store) (op : Op) (roomId : RoomId) (a b : Attempt),
      system.Reachable System.Free s → s.attemptOf roomId = some a →
      (s.step op).attemptOf roomId = some b → b.attemptId = a.attemptId → PhaseOrdered a b := by
  intro h
  obtain ⟨a, b, ha, hb, hid, hback⟩ :=
    readings (s := Store.initial.run (startedCalls ++
        [.failTransportAttempt 1 0 15 "relay.peer_lost"])) 0
      (t := (Store.initial.run (startedCalls ++
        [.failTransportAttempt 1 0 15 "relay.peer_lost"])).step
          (.mutate 2 0 3 "l" .lockRole { attemptId := some 15 } (some 5)))
      (p := fun a b => b.attemptId = a.attemptId ∧ ¬ PhaseOrdered a b) (by decide)
  exact hback (h _ _ 0 a b (reachable_free _) ha hb hid)

end SwitchTrade.Authority

import SwitchTrade.Coordinator.Process

/-!
# What a command does to the record

A handler that returns either leaves the record as it is or makes one `Edit` of it, which
`_persist` then writes. An edit carries the guards the handler checked, so every later
invariant is derived from this list and no handler is opened again.
-/

namespace SwitchTrade.Coordinator

open InPlace

/-! ## Binding keys -/

/-- The bound keys after `_bind_once`: an unbound key takes its first update. -/
def Identity.fill (i : Identity) (updates : List (Key × Scalar)) : Identity :=
  { i with bound := fun k => (i.bound k).or (updates.lookup k) }

def Record.fill (r : Record) (updates : List (Key × Scalar)) : Record :=
  { r with identity := r.identity.fill updates }

@[simp] theorem fill_nil (r : Record) : r.fill [] = r := by
  simp [Record.fill, Identity.fill]

theorem fill_bound (r : Record) (updates : List (Key × Scalar)) (k : Key) :
    (r.fill updates).identity.bound k = (r.identity.bound k).or (updates.lookup k) := rfl

/-- A bound key keeps its value. -/
theorem fill_keeps {r : Record} {updates : List (Key × Scalar)} {k : Key} {v : Scalar}
    (h : r.identity.bound k = some v) : (r.fill updates).identity.bound k = some v := by
  rw [fill_bound, h]
  rfl

/-- An update of a bound key is passed over. -/
theorem fill_cons_bound {r : Record} {k : Key} {v w : Scalar} {updates : List (Key × Scalar)}
    (h : r.identity.bound k = some w) : r.fill ((k, v) :: updates) = r.fill updates := by
  have he : r.identity.fill ((k, v) :: updates) = r.identity.fill updates := by
    unfold Identity.fill
    congr 1
    funext k'
    by_cases hk : k' = k
    · subst hk
      simp [h]
    · simp [List.lookup_cons, beq_false_of_ne hk]
  simp only [Record.fill, he]

/-- An update of an unbound key binds it before the rest is looked at. -/
theorem fill_cons_unbound {r : Record} {k : Key} {v : Scalar} {updates : List (Key × Scalar)}
    (h : r.identity.bound k = none) :
    r.fill ((k, v) :: updates) = (r.bind k v).fill updates := by
  have he : r.identity.fill ((k, v) :: updates) = (r.bind k v).identity.fill updates := by
    simp only [Identity.fill, Record.bind]
    congr 1
    funext k'
    by_cases hk : k' = k
    · subst hk
      simp [h]
    · simp [List.lookup_cons, beq_false_of_ne hk, Function.update_of_ne hk]
  simp only [Record.fill, he]
  rfl

/-- `_bind_once` that returns has bound every key to its update, and has changed nothing
if it says so. -/
theorem bindOnce_ok {updates : List (Key × Scalar)} {r r' : Record} {changed : Bool}
    (h : (bindOnce updates).run r = .ok changed r') :
    r' = r.fill updates ∧ (changed = false → r' = r) ∧
      ∀ k v, (k, v) ∈ updates → r'.identity.bound k = some v := by
  induction updates generalizing r changed with
  | nil =>
    simp only [bindOnce, pure_eq_ok] at h
    obtain ⟨-, rfl⟩ := h
    exact ⟨(fill_nil r).symm, fun _ => rfl, fun k v hm => (by cases hm)⟩
  | cons update updates ih =>
    obtain ⟨key, value⟩ := update
    simp only [bindOnce, bind_eq_ok, get_eq_ok] at h
    obtain ⟨record, t, ⟨rfl, rfl⟩, h⟩ := h
    split at h
    · rename_i current hb
      simp only [bind_eq_ok, raiseIf_eq_ok] at h
      obtain ⟨-, t, ⟨hv, rfl⟩, h⟩ := h
      obtain ⟨hr, hsame, hall⟩ := ih h
      have hv : current = value := not_not.mp hv
      refine ⟨by rw [hr, fill_cons_bound hb], hsame, ?_⟩
      intro k v hm
      rcases List.mem_cons.mp hm with he | hm
      · cases he
        rw [hr]
        exact fill_keeps (hv ▸ hb)
      · exact hall k v hm
    · rename_i hb
      simp only [bind_eq_ok, modify_eq_ok, pure_eq_ok] at h
      obtain ⟨-, t, rfl, c, t, h, rfl, rfl⟩ := h
      obtain ⟨hr, -, hall⟩ := ih h
      refine ⟨by rw [hr, fill_cons_unbound hb], (by intro hf; cases hf), ?_⟩
      intro k v hm
      rcases List.mem_cons.mp hm with he | hm
      · cases he
        rw [hr]
        exact fill_keeps (by simp [Record.bind])
      · exact hall k v hm

/-- `_bind_once` that raises stopped at a key bound to another value, and has bound the
keys before it. -/
theorem bindOnce_error {updates : List (Key × Scalar)} {r r' : Record}
    {e : ConnectionCoordinatorError} (h : (bindOnce updates).run r = .error e r') :
    ∃ before key value after current, updates = before ++ (key, value) :: after ∧
      r' = r.fill before ∧ r'.identity.bound key = some current ∧ current ≠ value := by
  induction updates generalizing r with
  | nil =>
    simp only [bindOnce, pure_eq_error] at h
  | cons update updates ih =>
    obtain ⟨key, value⟩ := update
    simp only [bindOnce, bind_eq_error, get_eq_ok] at h
    rcases h with h | ⟨record, t, ⟨rfl, rfl⟩, h⟩
    · cases h
    split at h
    · rename_i current hb
      simp only [bind_eq_error, raiseIf_eq_error, raiseIf_eq_ok] at h
      rcases h with ⟨hv, -, rfl⟩ | ⟨-, t, ⟨hv, rfl⟩, h⟩
      · exact ⟨[], key, value, updates, current, rfl, (fill_nil r).symm, hb, hv⟩
      · obtain ⟨before, key', value', after, current', he, hr, hc, hne⟩ := ih h
        refine ⟨(key, value) :: before, key', value', after, current', by rw [he]; rfl, ?_, hc, hne⟩
        rw [hr, fill_cons_bound hb]
    · rename_i hb
      simp only [bind_eq_error, modify_eq_ok, pure_eq_error] at h
      rcases h with h | ⟨-, t, rfl, h | ⟨c, t, -, h⟩⟩
      · cases h
      · obtain ⟨before, key', value', after, current', he, hr, hc, hne⟩ := ih h
        refine ⟨(key, value) :: before, key', value', after, current', by rw [he]; rfl, ?_, hc, hne⟩
        rw [hr, fill_cons_unbound hb]
      · exact h.elim

theorem reads_assertBound (expected : List (Key × Scalar)) : Reads (assertBound expected) := by
  induction expected with
  | nil => exact Reads.pure _
  | cons update expected ih =>
    apply Reads.get.bind
    intro record
    apply (Reads.raiseIf _ _).bind
    intro _
    exact ih

theorem assertBound_ok {expected : List (Key × Scalar)} {r t : Record} {u : PUnit}
    (h : (assertBound expected).run r = .ok u t) : t = r := (reads_assertBound expected).ok h

/-- `_require_running` reads the record and lets it be. -/
theorem requireRunning_eq_ok {r t : Record} {u : PUnit} :
    requireRunning.run r = .ok u t ↔ r.phase = .running ∧ r = t := by
  simp only [requireRunning, bind_eq_ok, get_eq_ok, raiseIf_eq_ok]
  constructor
  · rintro ⟨record, t, ⟨rfl, rfl⟩, hp, rfl⟩
    exact ⟨not_not.mp hp, rfl⟩
  · rintro ⟨hp, rfl⟩
    exact ⟨r, r, ⟨rfl, rfl⟩, not_not.mpr hp, rfl⟩

theorem reads_requireRunning : Reads requireRunning := by
  apply Reads.get.bind
  intro record
  exact Reads.raiseIf _ _

/-! ## The edits -/

/-- Every key of the updates is bound to its value. -/
def Bound (r : Record) (updates : List (Key × Scalar)) : Prop :=
  ∀ k v, (k, v) ∈ updates → r.identity.bound k = some v

/-- The change of a command that persists, with the guards it passed. -/
inductive Edit (r : Record) : Record → Prop where
  /-- `transition`: to the phase it is in or to one allowed after it, never to the terminal one. -/
  | phase (target : Phase) (gate : Option String) (ht : target ≠ .terminal)
      (ha : target = r.phase ∨ target ∈ r.phase.allowedTransitions) :
      Edit r { r with phase := target, currentGate := gate }
  /-- `pass_gate`. -/
  | gate (passed : String) (hp : r.phase ∈ [.preflight, .running, .awaitingUser]) :
      Edit r { r with lastPassedGate := some passed, currentGate := some passed }
  /-- `bind_authority`: whatever it did not raise on is bound. -/
  | authority (room : String) (version : Int) (seat : AuthoritySeat) (role : SwitchRole)
      (hr : room ≠ "") (hp : r.phase = .running)
      (hb : Bound (r.fill (authorityUpdates room version seat role))
        (authorityUpdates room version seat role)) :
      Edit r (r.fill (authorityUpdates room version seat role))
  /-- `acquire_wrapper`, the first time; a repetition only compares what is bound. -/
  | wrapper (pid ticks : Int) (adapter usb bus : String) (hp : r.phase = .running)
      (hroom : r.identity.mode.direct ∨ r.has .roomId) (hn : r.ownership.wrapperAcquired = false)
      (hb : Bound (r.fill (wrapperUpdates pid ticks adapter usb bus))
        (wrapperUpdates pid ticks adapter usb bus)) :
      Edit r { r.fill (wrapperUpdates pid ticks adapter usb bus) with
        ownership := { r.ownership with wrapperAcquired := true, wrapperCount := 1 } }
  /-- `mark_p0_ready`, the first time, for the wrapper that was acquired. -/
  | p0 (updates : List (Key × Scalar)) (phy netdev : String)
      (he : updates = [(.phy, .text phy), (.netdev, .text netdev)]) (hp : r.phase = .running)
      (hw : r.ownership.wrapperAcquired) (hn : r.ownership.p0SideReady = false)
      (hb : Bound (r.fill updates) updates) :
      Edit r { r.fill updates with
        ownership := { r.ownership with p0SideReady := true }
        lastPassedGate := some "P0_SIDE_READY", currentGate := some "P0_SIDE_READY" }
  /-- `lock_attempt`, in a room and with the P0 side ready. -/
  | attempt (updates : List (Key × Scalar)) (attempt : String) (version : Int)
      (he : updates = [(.attemptId, .text attempt), (.roleLockVersion, .int version)])
      (hp : r.phase = .running) (hroom : r.has .roomId) (h0 : r.ownership.p0SideReady)
      (hb : Bound (r.fill updates) updates) :
      Edit r (r.fill updates)
  /-- `reserve_endpoint_launch`, the first time: the one launch of the run is counted here. -/
  | launch (nonce : String) (hp : r.phase = .running) (h0 : r.ownership.p0SideReady)
      (ha : r.identity.mode.direct ∨ r.has .attemptId) (hn : r.ownership.launchReserved = false)
      (hb : Bound (r.fill [(.launchNonce, .text nonce)]) [(.launchNonce, .text nonce)]) :
      Edit r { r.fill [(.launchNonce, .text nonce)] with
        ownership := { r.ownership with launchReserved := true, launchCount := 1 } }
  /-- `acknowledge_endpoint`, the first time, for the launch that was reserved. -/
  | endpoint (updates : List (Key × Scalar)) (pid ticks : Int)
      (he : updates = [(.endpointPid, .int pid), (.endpointStartTicks, .int ticks)])
      (hp : r.phase = .running) (hl : r.ownership.launchReserved)
      (hn : r.ownership.endpointStarted = false) (hb : Bound (r.fill updates) updates) :
      Edit r { r.fill updates with ownership := { r.ownership with endpointStarted := true } }
  /-- `request_cancel`: the outcome is canceled unless there is one already. -/
  | cancel (code message : Option String) (hp : r.phase ≠ .terminal) :
      Edit r (({ r with cancelRequested := true }.setFunctional .canceled
        code message).closingIntent)
  /-- `close_run`. -/
  | close (outcome : FunctionalOutcome) (code message : Option String) (ho : outcome ≠ .pending)
      (hp : r.phase ≠ .terminal) :
      Edit r ((r.setFunctional outcome code message).closingIntent)
  /-- `begin_cleanup`. -/
  | cleanup (hp : r.phase = .closing) :
      Edit r { r with phase := .cleaning, currentGate := some "D8_LOCAL_RELEASE" }
  /-- `retry_cleanup`: the only edit of a terminal run, and only of one with unverified cleanup. -/
  | retry (hp : r.phase = .terminal) (hv : r.cleanup.verified = false) :
      Edit r { r with
        phase := .cleaning, currentGate := some "D8_LOCAL_RELEASE"
        cleanup := { r.cleanup with status := .pending } }
  /-- `complete_cleanup`. -/
  | complete (verified : Bool) (evidence : Evidence) (code message : Option String) (utc : String)
      (hp : r.phase = .cleaning) (hf : r.functional.status ≠ .pending) :
      Edit r (r.complete verified evidence code message utc)

/-- A handler that returned: a copy of the record as it was, or an edit to be persisted. -/
def Ended (r : Record) (fin : Finish) (r' : Record) : Prop :=
  (fin = .copy ∧ r' = r) ∨ ((∃ event, fin = .persist event) ∧ Edit r r')

theorem Ended.copied {r : Record} : Ended r .copy r := .inl ⟨rfl, rfl⟩

theorem Ended.persisted {r r' : Record} {event : String} (h : Edit r r') :
    Ended r (.persist event) r' := .inr ⟨⟨event, rfl⟩, h⟩

/-! ## The handlers -/

section
variable {r r' : Record} {fin : Finish}

/-! Each of the lemmas peels the guards off its handler in the order of the source. The branch that
repeats an earlier command gives back a copy, the other is the edit of the same name. -/

theorem cmdTransition_ok {phase gate : Value} (h : (cmdTransition phase gate).run r = .ok fin r') :
    Ended r fin r' := by
  unfold cmdTransition at h
  simp only [bind_eq_ok, get_eq_ok, check_eq_ok, raiseIf_eq_ok] at h
  obtain ⟨record, t, ⟨rfl, rfl⟩, target, t, ⟨-, rfl⟩, -, t, ⟨ht, rfl⟩, nextGate, t, ⟨-, rfl⟩,
    h⟩ := h
  split at h
  · rw [pure_eq_ok] at h
    obtain ⟨rfl, rfl⟩ := h
    exact .copied
  · simp only [bind_eq_ok, raiseIf_eq_ok, modify_eq_ok, pure_eq_ok] at h
    obtain ⟨-, t, ⟨ha, rfl⟩, -, t, rfl, rfl, rfl⟩ := h
    apply Ended.persisted
    refine Edit.phase target nextGate ht ?_
    by_cases he : target = r.phase
    · exact .inl he
    · exact .inr (by_contra fun hn => ha ⟨he, hn⟩)

theorem cmdPassGate_ok {gate : Value} (h : (cmdPassGate gate).run r = .ok fin r') :
    Ended r fin r' := by
  unfold cmdPassGate at h
  simp only [bind_eq_ok, get_eq_ok, check_eq_ok, raiseIf_eq_ok] at h
  obtain ⟨record, t, ⟨rfl, rfl⟩, -, t, ⟨hp, rfl⟩, passed, t, ⟨-, rfl⟩, h⟩ := h
  split at h
  · rw [pure_eq_ok] at h
    obtain ⟨rfl, rfl⟩ := h
    exact .copied
  · simp only [bind_eq_ok, modify_eq_ok, pure_eq_ok] at h
    obtain ⟨-, t, rfl, rfl, rfl⟩ := h
    exact .persisted (.gate passed (not_not.mp hp))

/-- A text that `_bounded` returns is not empty. -/
theorem bounded_ok {value : Value} {name t : String} {maximum : Nat}
    (h : bounded value name maximum = .ok t) : t ≠ "" := by
  cases value with
  | text t' =>
    simp only [bounded] at h
    split at h
    · cases h
    · rename_i hc
      cases h
      exact fun he => hc (.inl he)
  | none => cases h
  | bool b => cases h
  | int n => cases h
  | object s b => cases h

theorem cmdBindAuthority_ok {roomId roomVersion seat switchRole : Value}
    (h : (cmdBindAuthority roomId roomVersion seat switchRole).run r = .ok fin r') :
    Ended r fin r' := by
  unfold cmdBindAuthority at h
  simp only [bind_eq_ok, check_eq_ok, requireRunning_eq_ok] at h
  obtain ⟨-, t, ⟨hp, rfl⟩, selectedSeat, t, ⟨-, rfl⟩, role, t, ⟨-, rfl⟩, room, t, ⟨hroom, rfl⟩,
    version, t, ⟨-, rfl⟩, changed, t, hb, h⟩ := h
  obtain ⟨ht, hsame, hbound⟩ := bindOnce_ok hb
  split at h
  · rw [pure_eq_ok] at h
    obtain ⟨rfl, rfl⟩ := h
    -- Something was bound: the record is written.
    rw [ht] at hbound ⊢
    exact .persisted (.authority room version selectedSeat role (bounded_ok hroom) hp hbound)
  · rename_i hc
    rw [pure_eq_ok] at h
    obtain ⟨rfl, rfl⟩ := h
    rw [hsame (eq_false_of_ne_true hc)]
    exact .copied

theorem cmdAcquireWrapper_ok {py : Stdlib} {wrapperPid processStartTicks adapterInstanceId usbId
    busId : Value}
    (h : (cmdAcquireWrapper py wrapperPid processStartTicks adapterInstanceId usbId busId).run r =
      .ok fin r') :
    Ended r fin r' := by
  unfold cmdAcquireWrapper at h
  simp only [bind_eq_ok, get_eq_ok, check_eq_ok, raiseIf_eq_ok, requireRunning_eq_ok] at h
  obtain ⟨-, t, ⟨hp, rfl⟩, record, t, ⟨rfl, rfl⟩, -, t, ⟨hroom, rfl⟩, pid, t, ⟨-, rfl⟩, ticks, t,
    ⟨-, rfl⟩, adapter, t, ⟨-, rfl⟩, usb, t, ⟨-, rfl⟩, bus, t, ⟨-, rfl⟩, -, t, ⟨-, rfl⟩, h⟩ := h
  split at h
  · -- A wrapper is acquired already.
    simp only [bind_eq_ok, pure_eq_ok] at h
    obtain ⟨u, t, ha, rfl, rfl⟩ := h
    rw [assertBound_ok ha]
    exact .copied
  · rename_i hn
    simp only [bind_eq_ok, modify_eq_ok, pure_eq_ok] at h
    obtain ⟨changed, t, hb, -, t, rfl, rfl, rfl⟩ := h
    obtain ⟨rfl, -, hbound⟩ := bindOnce_ok hb
    refine .persisted (.wrapper pid ticks adapter usb bus hp ?_ (eq_false_of_ne_true hn) hbound)
    by_cases hd : r.identity.mode.direct = true
    · exact .inl hd
    · exact .inr (by_contra fun hn => hroom ⟨hd, hn⟩)

theorem cmdMarkP0Ready_ok {wrapperPid processStartTicks phy netdev : Value}
    (h : (cmdMarkP0Ready wrapperPid processStartTicks phy netdev).run r = .ok fin r') :
    Ended r fin r' := by
  unfold cmdMarkP0Ready at h
  simp only [bind_eq_ok, get_eq_ok, check_eq_ok, raiseIf_eq_ok, requireRunning_eq_ok] at h
  obtain ⟨-, t, ⟨hp, rfl⟩, record, t, ⟨rfl, rfl⟩, -, t, ⟨hw, rfl⟩, pid, t, ⟨-, rfl⟩, ticks, t,
    ⟨-, rfl⟩, u, t, ha, phy, t', ⟨-, rfl⟩, netdev, t', ⟨-, rfl⟩, h⟩ := h
  obtain rfl := assertBound_ok ha
  split at h
  · simp only [bind_eq_ok, pure_eq_ok] at h
    obtain ⟨u, t', ha, rfl, rfl⟩ := h
    rw [assertBound_ok ha]
    exact .copied
  · rename_i hn
    simp only [bind_eq_ok, modify_eq_ok, pure_eq_ok] at h
    obtain ⟨changed, t', hb, -, t', rfl, rfl, rfl⟩ := h
    obtain ⟨rfl, -, hbound⟩ := bindOnce_ok hb
    exact .persisted (.p0 _ phy netdev rfl hp (not_not.mp hw) (eq_false_of_ne_true hn) hbound)

theorem cmdLockAttempt_ok {attemptId roleLockVersion : Value}
    (h : (cmdLockAttempt attemptId roleLockVersion).run r = .ok fin r') : Ended r fin r' := by
  unfold cmdLockAttempt at h
  simp only [bind_eq_ok, get_eq_ok, check_eq_ok, raiseIf_eq_ok, requireRunning_eq_ok] at h
  obtain ⟨-, t, ⟨hp, rfl⟩, record, t, ⟨rfl, rfl⟩, -, t, ⟨hg, rfl⟩, attempt, t, ⟨-, rfl⟩, version, t,
    ⟨-, rfl⟩, changed, t, hb, h⟩ := h
  obtain ⟨ht, hsame, hbound⟩ := bindOnce_ok hb
  split at h
  · rw [pure_eq_ok] at h
    obtain ⟨rfl, rfl⟩ := h
    rw [ht] at hbound ⊢
    have hroom : r.has .roomId = true := by_contra fun hn => hg (.inl hn)
    have h0 : r.ownership.p0SideReady = true := by_contra fun hn => hg (.inr hn)
    exact .persisted (.attempt _ attempt version rfl hp hroom h0 hbound)
  · rename_i hc
    rw [pure_eq_ok] at h
    obtain ⟨rfl, rfl⟩ := h
    rw [hsame (eq_false_of_ne_true hc)]
    exact .copied

theorem cmdReserveEndpointLaunch_ok {launchNonce : Value}
    (h : (cmdReserveEndpointLaunch launchNonce).run r = .ok fin r') : Ended r fin r' := by
  unfold cmdReserveEndpointLaunch at h
  simp only [bind_eq_ok, get_eq_ok, check_eq_ok, raiseIf_eq_ok, requireRunning_eq_ok] at h
  obtain ⟨-, t, ⟨hp, rfl⟩, record, t, ⟨rfl, rfl⟩, -, t, ⟨h0, rfl⟩, -, t, ⟨ha, rfl⟩, nonce, t,
    ⟨-, rfl⟩, -, t, ⟨-, rfl⟩, h⟩ := h
  split at h
  · -- The launch is reserved already, for this nonce.
    simp only [bind_eq_ok, pure_eq_ok] at h
    obtain ⟨u, t, ha, rfl, rfl⟩ := h
    rw [assertBound_ok ha]
    exact .copied
  · rename_i hn
    simp only [bind_eq_ok, modify_eq_ok, pure_eq_ok] at h
    obtain ⟨changed, t, hb, -, t, rfl, rfl, rfl⟩ := h
    obtain ⟨rfl, -, hbound⟩ := bindOnce_ok hb
    refine .persisted (.launch nonce hp (not_not.mp h0) ?_ (eq_false_of_ne_true hn) hbound)
    by_cases hd : r.identity.mode.direct = true
    · exact .inl hd
    · exact .inr (by_contra fun hn => ha ⟨hd, hn⟩)

theorem cmdAcknowledgeEndpoint_ok {launchNonce endpointPid processStartTicks : Value}
    (h : (cmdAcknowledgeEndpoint launchNonce endpointPid processStartTicks).run r = .ok fin r') :
    Ended r fin r' := by
  unfold cmdAcknowledgeEndpoint at h
  simp only [bind_eq_ok, get_eq_ok, check_eq_ok, raiseIf_eq_ok, requireRunning_eq_ok] at h
  obtain ⟨-, t, ⟨hp, rfl⟩, record, t, ⟨rfl, rfl⟩, -, t, ⟨hl, rfl⟩, nonce, t, ⟨-, rfl⟩, u, t, ha,
    pid, t', ⟨-, rfl⟩, ticks, t', ⟨-, rfl⟩, h⟩ := h
  obtain rfl := assertBound_ok ha
  split at h
  · simp only [bind_eq_ok, pure_eq_ok] at h
    obtain ⟨u, t', ha, rfl, rfl⟩ := h
    rw [assertBound_ok ha]
    exact .copied
  · rename_i hn
    simp only [bind_eq_ok, modify_eq_ok, pure_eq_ok] at h
    obtain ⟨changed, t', hb, -, t', rfl, rfl, rfl⟩ := h
    obtain ⟨rfl, -, hbound⟩ := bindOnce_ok hb
    exact .persisted (.endpoint _ pid ticks rfl hp (not_not.mp hl) (eq_false_of_ne_true hn) hbound)

theorem cmdRequestCancel_ok {code message : Value}
    (h : (cmdRequestCancel code message).run r = .ok fin r') : Ended r fin r' := by
  unfold cmdRequestCancel at h
  simp only [bind_eq_ok, get_eq_ok] at h
  obtain ⟨record, t, ⟨rfl, rfl⟩, h⟩ := h
  split at h
  · -- The run is over.
    rw [pure_eq_ok] at h
    obtain ⟨rfl, rfl⟩ := h
    exact .copied
  rename_i hp
  split at h
  · rw [pure_eq_ok] at h
    obtain ⟨rfl, rfl⟩ := h
    exact .copied
  simp only [bind_eq_ok, check_eq_ok, modify_eq_ok, pure_eq_ok] at h
  obtain ⟨-, t, rfl, code, t, ⟨-, rfl⟩, message, t, ⟨-, rfl⟩, -, t, rfl, rfl, rfl⟩ := h
  exact .persisted (.cancel (some code) (some message) hp)

theorem cmdCloseRun_ok {outcome code message : Value}
    (h : (cmdCloseRun outcome code message).run r = .ok fin r') : Ended r fin r' := by
  unfold cmdCloseRun at h
  simp only [bind_eq_ok, get_eq_ok, check_eq_ok, raiseIf_eq_ok] at h
  obtain ⟨record, t, ⟨rfl, rfl⟩, selected, t, ⟨-, rfl⟩, -, t, ⟨ho, rfl⟩, code, t, ⟨-, rfl⟩,
    message, t, ⟨-, rfl⟩, -, t, ⟨-, rfl⟩, h⟩ := h
  split at h
  · rw [pure_eq_ok] at h
    obtain ⟨rfl, rfl⟩ := h
    exact .copied
  rename_i hp
  split at h
  · rw [pure_eq_ok] at h
    obtain ⟨rfl, rfl⟩ := h
    exact .copied
  simp only [bind_eq_ok, modify_eq_ok, pure_eq_ok] at h
  obtain ⟨-, t, rfl, rfl, rfl⟩ := h
  exact .persisted (.close selected code message ho hp)

theorem cmdBeginCleanup_ok (h : cmdBeginCleanup.run r = .ok fin r') : Ended r fin r' := by
  unfold cmdBeginCleanup at h
  simp only [bind_eq_ok, get_eq_ok] at h
  obtain ⟨record, t, ⟨rfl, rfl⟩, h⟩ := h
  split at h
  · rw [pure_eq_ok] at h
    obtain ⟨rfl, rfl⟩ := h
    exact .copied
  simp only [bind_eq_ok, raiseIf_eq_ok, modify_eq_ok, pure_eq_ok] at h
  obtain ⟨-, t, ⟨hp, rfl⟩, -, t, rfl, rfl, rfl⟩ := h
  exact .persisted (.cleanup (not_not.mp hp))

theorem cmdRetryCleanup_ok (h : cmdRetryCleanup.run r = .ok fin r') : Ended r fin r' := by
  unfold cmdRetryCleanup at h
  simp only [bind_eq_ok, get_eq_ok] at h
  obtain ⟨record, t, ⟨rfl, rfl⟩, h⟩ := h
  split at h
  · rw [pure_eq_ok] at h
    obtain ⟨rfl, rfl⟩ := h
    exact .copied
  simp only [bind_eq_ok, raiseIf_eq_ok, modify_eq_ok, pure_eq_ok] at h
  obtain ⟨-, t, ⟨hg, rfl⟩, -, t, rfl, rfl, rfl⟩ := h
  have hp : r.phase = .terminal := by_contra fun hn => hg (.inl hn)
  exact .persisted (.retry hp (eq_false_of_ne_true fun hv => hg (.inr hv)))

theorem cmdCompleteCleanup_ok {verified : Value} {evidence : EvidenceArgument}
    {code message : Value} {now : String}
    (h : (cmdCompleteCleanup verified evidence code message now).run r = .ok fin r') :
    Ended r fin r' := by
  unfold cmdCompleteCleanup at h
  simp only [bind_eq_ok, get_eq_ok, check_eq_ok] at h
  obtain ⟨record, t, ⟨rfl, rfl⟩, verified, t, ⟨-, rfl⟩, evidence, t, ⟨-, rfl⟩, code, t, ⟨-, rfl⟩,
    message, t, ⟨-, rfl⟩, h⟩ := h
  split at h
  · -- The same completion once more.
    simp only [bind_eq_ok, raiseIf_eq_ok, pure_eq_ok] at h
    obtain ⟨-, t, ⟨-, rfl⟩, rfl, rfl⟩ := h
    exact .copied
  simp only [bind_eq_ok, raiseIf_eq_ok, modify_eq_ok, pure_eq_ok] at h
  obtain ⟨-, t, ⟨hp, rfl⟩, -, t, ⟨hf, rfl⟩, -, t, ⟨-, rfl⟩, -, t, rfl, rfl, rfl⟩ := h
  exact .persisted (.complete verified evidence code message now (not_not.mp hp) hf)

end

/-- The edit lemma: every handler that returns. -/
theorem handler_ok {py : Stdlib} {now : String} {o : Order} {r r' : Record} {fin : Finish}
    (h : (o.handler py now).run r = .ok fin r') : Ended r fin r' := by
  cases o with
  | transition phase gate => exact cmdTransition_ok h
  | passGate gate => exact cmdPassGate_ok h
  | bindAuthority roomId roomVersion seat switchRole => exact cmdBindAuthority_ok h
  | acquireWrapper pid ticks adapter usb bus => exact cmdAcquireWrapper_ok h
  | markP0Ready pid ticks phy netdev => exact cmdMarkP0Ready_ok h
  | lockAttempt attemptId roleLockVersion => exact cmdLockAttempt_ok h
  | reserveEndpointLaunch nonce => exact cmdReserveEndpointLaunch_ok h
  | acknowledgeEndpoint nonce pid ticks => exact cmdAcknowledgeEndpoint_ok h
  | requestCancel code message => exact cmdRequestCancel_ok h
  | closeRun outcome code message => exact cmdCloseRun_ok h
  | beginCleanup => exact cmdBeginCleanup_ok h
  | retryCleanup => exact cmdRetryCleanup_ok h
  | completeCleanup verified evidence code message => exact cmdCompleteCleanup_ok h

end SwitchTrade.Coordinator

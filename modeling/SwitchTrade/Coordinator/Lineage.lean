import SwitchTrade.Coordinator.Atomicity

/-!
# Two records of one run

`Later a b` says what a later record of a run keeps of an earlier one: the bound keys, the
functional outcome, the ownership flags, and everything once the run is settled. Every
edit keeps it, and so does the recovery; of the residues only that of `request_cancel`
does, because the disk never learns of the others.
-/

namespace SwitchTrade.Coordinator

open Transition

variable {py : Stdlib}

/-- The second record keeps what the first has bound, reached and settled. -/
structure Later (a b : Record) : Prop where
  fixed : b.identity.release = a.identity.release ∧ b.identity.mode = a.identity.mode ∧
    b.identity.runGeneration = a.identity.runGeneration ∧
    b.identity.stageGeneration = a.identity.stageGeneration
  bound : ∀ k v, a.identity.bound k = some v → b.identity.bound k = some v
  functional : a.functional.status ≠ .pending → b.functional = a.functional
  wrapper : a.ownership.wrapperAcquired = true → b.ownership.wrapperAcquired = true
  p0 : a.ownership.p0SideReady = true → b.ownership.p0SideReady = true
  launch : a.ownership.launchReserved = true → b.ownership.launchReserved = true
  endpoint : a.ownership.endpointStarted = true → b.ownership.endpointStarted = true
  settled : a.settled = true → b = a

theorem Later.refl (a : Record) : Later a a :=
  ⟨⟨rfl, rfl, rfl, rfl⟩, fun _ _ h => h, fun _ => rfl, id, id, id, id, fun _ => rfl⟩

theorem Later.trans {a b c : Record} (h : Later a b) (h' : Later b c) : Later a c := by
  obtain ⟨h₁, h₂, h₃, h₄⟩ := h.fixed
  obtain ⟨h₁', h₂', h₃', h₄'⟩ := h'.fixed
  constructor
  · exact ⟨h₁'.trans h₁, h₂'.trans h₂, h₃'.trans h₃, h₄'.trans h₄⟩
  · exact fun k v hk => h'.bound k v (h.bound k v hk)
  · intro hf
    have hb := h.functional hf
    rw [← hb] at hf
    rw [h'.functional hf, hb]
  · exact fun ha => h'.wrapper (h.wrapper ha)
  · exact fun ha => h'.p0 (h.p0 ha)
  · exact fun ha => h'.launch (h.launch ha)
  · exact fun ha => h'.endpoint (h.endpoint ha)
  · intro ha
    have hb := h.settled ha
    rw [← hb] at ha
    rw [h'.settled ha, hb]

theorem settled_iff {r : Record} :
    r.settled = true ↔ r.phase = .terminal ∧ r.cleanup.verified = true := by
  simp [Record.settled]

/-- No command edits a settled run. -/
theorem Edit.unsettled {r r' : Record} (he : Edit r r') : r.settled = false := by
  cases hs : r.settled with
  | false => rfl
  | true =>
    exfalso
    obtain ⟨hp, hv⟩ := settled_iff.mp hs
    cases he with
    | phase target gate ht ha =>
      rw [hp] at ha
      rcases ha with ha | ha
      · exact ht ha
      · cases ha
    | gate passed hg =>
      rw [hp] at hg
      revert hg
      decide
    | authority room version seat role hr hrun hb =>
      rw [hp] at hrun
      cases hrun
    | wrapper pid ticks adapter usb bus hrun hroom hn hb =>
      rw [hp] at hrun
      cases hrun
    | p0 updates phy netdev heq hrun hw hn hb =>
      rw [hp] at hrun
      cases hrun
    | attempt updates attempt version heq hrun hroom h0 hb =>
      rw [hp] at hrun
      cases hrun
    | launch nonce hrun h0 ha hn hb =>
      rw [hp] at hrun
      cases hrun
    | endpoint updates pid ticks heq hrun hl hn hb =>
      rw [hp] at hrun
      cases hrun
    | cancel code message hn => exact hn hp
    | close outcome code message ho hn => exact hn hp
    | cleanup hc =>
      rw [hp] at hc
      cases hc
    | retry ht hn =>
      rw [hv] at hn
      cases hn
    | complete verified evidence code message utc hc hf =>
      rw [hp] at hc
      cases hc

/-- What an edit of an unsettled run has to keep. -/
theorem Later.of_unsettled {a b : Record} (hs : a.settled = false)
    (hi : ∃ updates, b.identity = a.identity.fill updates)
    (hf : a.functional.status ≠ .pending → b.functional = a.functional)
    (hw : a.ownership.wrapperAcquired = true → b.ownership.wrapperAcquired = true)
    (h0 : a.ownership.p0SideReady = true → b.ownership.p0SideReady = true)
    (hl : a.ownership.launchReserved = true → b.ownership.launchReserved = true)
    (he : a.ownership.endpointStarted = true → b.ownership.endpointStarted = true) :
    Later a b := by
  obtain ⟨updates, hi⟩ := hi
  refine ⟨?_, ?_, hf, hw, h0, hl, he, ?_⟩
  · rw [hi]
    exact ⟨rfl, rfl, rfl, rfl⟩
  · intro k v hk
    rw [hi]
    exact fill_keeps (r := a) hk
  · intro ht
    rw [hs] at ht
    cases ht

theorem identity_fill_nil (i : Identity) : i.fill [] = i := by
  simp [Identity.fill]

theorem setFunctional_functional {r : Record} {outcome : FunctionalOutcome}
    {code message : Option String} (h : r.functional.status ≠ .pending) :
    (r.setFunctional outcome code message).functional = r.functional := by
  unfold Record.setFunctional
  rw [if_neg h]

@[simp] theorem closingIntent_functional (r : Record) :
    r.closingIntent.functional = r.functional := by
  unfold Record.closingIntent
  split <;> rfl

theorem edit_later {r r' : Record} {event utc : String} (he : Edit r r') :
    Later r (r'.stamp event utc) := by
  have hs := he.unsettled
  have same : ∀ {r₁ : Record}, r₁.identity = r.identity → r₁.ownership = r.ownership →
      (r.functional.status ≠ .pending → r₁.functional = r.functional) →
      Later r (r₁.stamp event utc) := by
    intro r₁ hi ho hf
    have hfill : (r₁.stamp event utc).identity = r.identity.fill [] := by
      rw [identity_fill_nil]
      exact hi
    apply Later.of_unsettled hs ⟨[], hfill⟩ hf
    · exact fun h => by rw [← ho] at h; exact h
    · exact fun h => by rw [← ho] at h; exact h
    · exact fun h => by rw [← ho] at h; exact h
    · exact fun h => by rw [← ho] at h; exact h
  cases he with
  | phase target gate ht ha => exact same rfl rfl fun _ => rfl
  | gate passed hp => exact same rfl rfl fun _ => rfl
  | authority room version seat role hr hp hb =>
    exact .of_unsettled hs ⟨_, rfl⟩ (fun _ => rfl) id id id id
  | wrapper pid ticks adapter usb bus hp hroom hn hb =>
    exact .of_unsettled hs ⟨_, rfl⟩ (fun _ => rfl) (fun _ => rfl) id id id
  | p0 updates phy netdev heq hp hw hn hb =>
    exact .of_unsettled hs ⟨_, rfl⟩ (fun _ => rfl) id (fun _ => rfl) id id
  | attempt updates attempt version heq hp hroom h0 hb =>
    exact .of_unsettled hs ⟨_, rfl⟩ (fun _ => rfl) id id id id
  | launch nonce hp h0 ha hn hb =>
    exact .of_unsettled hs ⟨_, rfl⟩ (fun _ => rfl) id id (fun _ => rfl) id
  | endpoint updates pid ticks heq hp hl hn hb =>
    exact .of_unsettled hs ⟨_, rfl⟩ (fun _ => rfl) id id id fun _ => rfl
  | cancel code message hp =>
    apply same (by simp) (by simp)
    intro hf
    rw [closingIntent_functional, setFunctional_functional (by exact hf)]
  | close outcome code message ho hp =>
    apply same (by simp) (by simp)
    intro hf
    rw [closingIntent_functional, setFunctional_functional hf]
  | cleanup hp => exact same rfl rfl fun _ => rfl
  | retry hp hv => exact same rfl rfl fun _ => rfl
  | complete verified evidence code message utc hp hf => exact same rfl rfl fun _ => rfl

theorem recover_later {r : Record} {event utc : String} (hs : r.settled = false) :
    Later r (r.recover.stamp event utc) := by
  have hfill : (r.recover.stamp event utc).identity = r.identity.fill [] := by
    rw [identity_fill_nil]
    rfl
  apply Later.of_unsettled hs ⟨[], hfill⟩
  · intro hf
    show r.recover.functional = r.functional
    unfold Record.recover
    rw [if_neg hf]
  · exact id
  · exact id
  · exact id
  · exact id

@[simp] theorem stamp_runId (r : Record) (event utc : String) :
    (r.stamp event utc).runId = r.runId := rfl

@[simp] theorem recover_runId (r : Record) : r.recover.runId = r.runId := rfl

/-- An edit is one of the same run. -/
theorem Edit.runId {r r' : Record} (he : Edit r r') : r'.runId = r.runId := by
  cases he with
  | cancel code message hp =>
    unfold Record.closingIntent Record.setFunctional
    split <;> split <;> rfl
  | close outcome code message ho hp =>
    unfold Record.closingIntent Record.setFunctional
    split <;> split <;> rfl
  | _ => rfl

theorem Residue.runId {o : Order} {r r' : Record} (hr : Residue o r r') :
    r'.runId = r.runId := by
  cases hr <;> rfl

theorem residue_unsettled {o : Order} {r r' : Record} (hr : Residue o r r') :
    r.settled = false := by
  have hp : r.phase ≠ .terminal := by
    cases hr with
    | room room version seat hne ht =>
      cases o with
      | bindAuthority roomId roomVersion seat switchRole =>
        obtain ⟨hp, -⟩ := ht
        rw [hp]
        decide
      | _ => exact ht.elim
    | cancel ht =>
      cases o with
      | requestCancel code message => exact ht.1
      | _ => exact ht.elim
  simp [Record.settled, hp]

/-! ## Invariants over the changes -/

/-- Every step of a reachable host is one of the changes. -/
theorem reachable_change {G : Host → Label → Prop} {h t : Host} {i : Label}
    (hr : (system py).Reachable G h) (hn : (system py).next h i t) : Change py h i t :=
  step_change (reachable_shaped hr) hn

/-- The invariant rule over the changes. -/
theorem reachable_of_change {G : Host → Label → Prop} {P : Host → Prop} (hinit : P .empty)
    (hstep : ∀ h i t, (system py).Reachable G h → P h → G h i → Change py h i t → P t) {h : Host}
    (hr : (system py).Reachable G h) : P h := by
  have hboth : (system py).Reachable G h ∧ P h := by
    apply hr.invariant (P := fun h => (system py).Reachable G h ∧ P h)
    · rintro s rfl
      exact ⟨System.Reachable.init rfl, hinit⟩
    · rintro s i t ⟨hs, hP⟩ hg hn
      exact ⟨hs.step hg hn, hstep s i t hs hP hg (reachable_change hs hn)⟩
  exact hboth.2

/-- What holds of a host and every change keeps holds after every run. -/
theorem run_of_change {G : Host → Label → Prop} {P : Host → Prop}
    (hstep : ∀ h i t, (system py).Reachable G h → P h → G h i → Change py h i t → P t) {h t : Host}
    (hr : (system py).Reachable G h) (hrun : (system py).Run G h t) (hP : P h) : P t := by
  have hboth : (system py).Reachable G t ∧ P t := by
    apply hrun.keeps (P := fun h => (system py).Reachable G h ∧ P h)
    · rintro s i t ⟨hs, hP⟩ hg hn
      exact ⟨hs.step hg hn, hstep s i t hs hP hg (reachable_change hs hn)⟩
    · exact ⟨hr, hP⟩
  exact hboth.2

/-! ## The files and the record in memory -/

/-- What the two files say of each other and of the process: a record is filed under its run,
it is in its file before its pointer is written, and the pointer names a run with a record,
the one in memory. -/
structure Host.Filed (h : Host) : Prop where
  keyed : ∀ runId r, h.disk.records runId = some r → r.runId = runId
  written : ∀ release r recovering,
    h.process = some ⟨release, some r, .pointer recovering⟩ → h.disk.records r.runId = some r
  pointed : ∀ runId, h.disk.active = some runId → ∃ d, h.disk.records runId = some d
  owned : ∀ p runId, h.process = some p → h.disk.active = some runId →
    ∃ r, p.current = some r ∧ r.runId = runId

theorem records_writeRecord {d : Disk} {r e : Record} {runId : RunId}
    (h : d.records runId = some e) : ∃ e', (d.writeRecord r).records runId = some e' := by
  by_cases hid : runId = r.runId
  · subst hid
    exact ⟨r, Function.update_self ..⟩
  · refine ⟨e, ?_⟩
    show Function.update d.records r.runId (some r) runId = some e
    rw [Function.update_of_ne hid]
    exact h

theorem hasCleanupGuard_false {d : Disk} {current : Option Record}
    (h : hasCleanupGuard d current = false) : d.active = none := by
  unfold hasCleanupGuard at h
  rw [Bool.or_eq_false_iff] at h
  exact Option.not_isSome_iff_eq_none.mp (by rw [h.1]; decide)

theorem active_writePointer {d : Disk} {r : Record} {runId : RunId}
    (h : (d.writePointer r).active = some runId) : r.settled = false ∧ r.runId = runId := by
  unfold Disk.writePointer at h
  dsimp only at h
  split at h
  · cases h
  · rename_i hset
    exact ⟨eq_false_of_ne_true hset, Option.some.inj h⟩

theorem Change.filed {h t : Host} {i : Label} (hc : Change py h i t) (hf : h.Filed) :
    t.Filed := by
  obtain ⟨hkeyed, hwritten, hpointed, howned⟩ := hf
  -- the record in memory is another one of its run, in no stage of a write of the pointer
  have memory : ∀ (d : Disk) (release release' : String) (current current' : Option Record)
      (stage stage' : Stage), h = ⟨d, some ⟨release, current, stage⟩⟩ →
      (∀ recovering, stage' ≠ .pointer recovering) →
      (∀ r, current = some r → ∃ r', current' = some r' ∧ r'.runId = r.runId) →
      Host.Filed ⟨d, some ⟨release', current', stage'⟩⟩ := by
    rintro d release release' current current' stage stage' rfl hstage hsame
    refine ⟨hkeyed, ?_, hpointed, ?_⟩
    · intro release₁ r recovering hp
      cases hp
      exact absurd rfl (hstage recovering)
    · intro p runId hp ha
      cases hp
      obtain ⟨r, hr, hid⟩ := howned _ runId rfl ha
      obtain ⟨r', hr', hid'⟩ := hsame r hr
      exact ⟨r', hr', hid'.trans hid⟩
  cases hc with
  | quiet d release current c clock => exact ⟨hkeyed, hwritten, hpointed, howned⟩
  | residue d release r r' runId o clock hid hr =>
    apply memory d release release _ _ _ _ rfl (fun _ hs => by cases hs)
    intro r₁ he
    cases he
    exact ⟨r', rfl, hr.runId⟩
  | start d release current c clock mode adapter usb runId hg hn =>
    have hnone := hasCleanupGuard_false hg
    refine ⟨hkeyed, fun _ _ _ hp => (by cases hp), hpointed, ?_⟩
    intro p runId' _ ha
    rw [show d.active = some runId' from ha] at hnone
    cases hnone
  | edit d release r r' c clock event he =>
    apply memory d release release _ _ _ _ rfl (fun _ hs => by cases hs)
    intro r₁ heq
    cases heq
    exact ⟨_, rfl, he.runId⟩
  | record d release r recovering =>
    refine ⟨?_, ?_, fun runId ha => ?_, ?_⟩
    · intro runId r₁ hr
      by_cases hid : runId = r.runId
      · subst hid
        simp only [Disk.writeRecord, Function.update_self] at hr
        cases hr
        rfl
      · simp only [Disk.writeRecord, Function.update_of_ne hid] at hr
        exact hkeyed runId r₁ hr
    · intro release' r₁ recovering' hp
      cases hp
      exact Function.update_self ..
    · obtain ⟨d', hd'⟩ := hpointed runId ha
      exact records_writeRecord hd'
    · intro p runId hp ha
      cases hp
      exact howned ⟨release, some r, .record recovering⟩ runId rfl ha
  | pointer d release r recovering =>
    have hr := hwritten release r recovering rfl
    refine ⟨hkeyed, fun _ _ _ hp => (by cases hp), ?_, ?_⟩
    · intro runId ha
      obtain ⟨-, rfl⟩ := active_writePointer ha
      exact ⟨r, hr⟩
    · intro p runId hp ha
      cases hp
      exact ⟨r, rfl, (active_writePointer ha).2⟩
  | recordRaises d release current =>
    exact memory d release release _ _ _ _ rfl (fun _ hs => by cases hs) fun r hr => ⟨r, hr, rfl⟩
  | pointerRaises d release current =>
    exact memory d release release _ _ _ _ rfl (fun _ hs => by cases hs) fun r hr => ⟨r, hr, rfl⟩
  | ends d process i hi =>
    exact ⟨hkeyed, fun _ _ _ hp => (by cases hp), hpointed, fun _ _ hp => (by cases hp)⟩
  | bootIdle d release release' utc hn =>
    refine ⟨hkeyed, fun _ _ _ hp => (by cases hp), hpointed, ?_⟩
    intro p runId _ ha
    rw [show d.active = some runId from ha] at hn
    cases hn
  | bootSettled d release release' utc runId r ha hr hid hs =>
    exact ⟨hkeyed, fun _ _ _ hp => (by cases hp), fun _ ha' => (by cases ha'),
      fun _ _ _ ha' => (by cases ha')⟩
  | bootRecover d release release' utc runId r ha hr hid hs =>
    refine ⟨hkeyed, fun _ _ _ hp => (by cases hp), hpointed, ?_⟩
    intro p runId' hp ha'
    cases hp
    refine ⟨_, rfl, ?_⟩
    rw [show d.active = some runId' from ha'] at ha
    cases ha
    exact hid

theorem reachable_filed {G : Host → Label → Prop} {h : Host} (hr : (system py).Reachable G h) :
    h.Filed := by
  apply reachable_of_change (P := Host.Filed) ?_ ?_ hr
  · exact ⟨fun _ _ hd => (by cases hd), fun _ _ _ hp => (by cases hp), fun _ ha => (by cases ha),
      fun _ _ hp => (by cases hp)⟩
  · exact fun s i t _ hs _ hc => hc.filed hs

end SwitchTrade.Coordinator

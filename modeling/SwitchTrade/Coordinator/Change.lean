import SwitchTrade.Coordinator.Residue

/-!
# One step of the host

A step of the system is one of a few changes: a command leaves everything as it was, or
leaves a residue, or creates a run, or edits the record in memory; a write carries the
record or the pointer to the disk, or raises; the process stops, or starts from the disk.
Every invariant of the host is derived from this list.
-/

namespace SwitchTrade.Coordinator

open InPlace Transition

variable {py : Stdlib}

/-- A record the host has, in memory or on disk. -/
def Host.Holds (h : Host) (r : Record) : Prop :=
  (∃ p, h.process = some p ∧ p.current = some r) ∨ ∃ runId, h.disk.records runId = some r

/-- The changes of the host, by the label of the step. -/
inductive Change (py : Stdlib) : Host → Label → Host → Prop where
  | quiet (d : Disk) (release : String) (current : Option Record) (c : Command) (clock : Clock) :
      Change py ⟨d, some ⟨release, current, .idle⟩⟩ (.command c clock)
        ⟨d, some ⟨release, current, .idle⟩⟩
  | residue (d : Disk) (release : String) (r r' : Record) (runId : Value) (o : Order)
      (clock : Clock) (hid : py.uuid runId.str = some r.runId) (hr : Residue o r r') :
      Change py ⟨d, some ⟨release, some r, .idle⟩⟩ (.command (.onRun runId o) clock)
        ⟨d, some ⟨release, some r', .idle⟩⟩
  | start (d : Disk) (release : String) (current : Option Record) (c : Command) (clock : Clock)
      (mode : RunMode) (adapter usb : Option String) (runId : RunId)
      (hg : hasCleanupGuard d current = false) (hn : d.records runId = none) :
      Change py ⟨d, some ⟨release, current, .idle⟩⟩ (.command c clock)
        ⟨d, some ⟨release, some ((startRecord release mode adapter usb runId clock.now).stamp
          "run_created" clock.persisted), .record false⟩⟩
  | edit (d : Disk) (release : String) (r r' : Record) (c : Command) (clock : Clock)
      (event : String) (he : Edit r r') :
      Change py ⟨d, some ⟨release, some r, .idle⟩⟩ (.command c clock)
        ⟨d, some ⟨release, some (r'.stamp event clock.persisted), .record false⟩⟩
  | record (d : Disk) (release : String) (r : Record) (recovering : Bool) :
      Change py ⟨d, some ⟨release, some r, .record recovering⟩⟩ .writeRecord
        ⟨d.writeRecord r, some ⟨release, some r, .pointer recovering⟩⟩
  | pointer (d : Disk) (release : String) (r : Record) (recovering : Bool) :
      Change py ⟨d, some ⟨release, some r, .pointer recovering⟩⟩ .writePointer
        ⟨d.writePointer r, some ⟨release, some r, .idle⟩⟩
  | recordRaises (d : Disk) (release : String) (current : Option Record) :
      Change py ⟨d, some ⟨release, current, .record false⟩⟩ .writeRaises
        ⟨d, some ⟨release, current, .idle⟩⟩
  | pointerRaises (d : Disk) (release : String) (current : Option Record) :
      Change py ⟨d, some ⟨release, current, .pointer false⟩⟩ .writeRaises
        ⟨d, some ⟨release, current, .idle⟩⟩
  | ends (d : Disk) (process : Option Process) (i : Label) (hi : i = .crash ∨ i = .writeRaises) :
      Change py ⟨d, process⟩ i ⟨d, none⟩
  | bootIdle (d : Disk) (release : Value) (release' utc : String) (hn : d.active = none) :
      Change py ⟨d, none⟩ (.boot release utc) ⟨d, some ⟨release', none, .idle⟩⟩
  | bootSettled (d : Disk) (release : Value) (release' utc : String) (runId : RunId) (r : Record)
      (ha : d.active = some runId) (hr : d.records runId = some r) (hid : r.runId = runId)
      (hs : r.settled) :
      Change py ⟨d, none⟩ (.boot release utc)
        ⟨{ d with active := none }, some ⟨release', some r, .idle⟩⟩
  | bootRecover (d : Disk) (release : Value) (release' utc : String) (runId : RunId) (r : Record)
      (ha : d.active = some runId) (hr : d.records runId = some r) (hid : r.runId = runId)
      (hs : r.settled = false) :
      Change py ⟨d, none⟩ (.boot release utc)
        ⟨d, some
          ⟨release', some (r.recover.stamp "startup_recovery_required" utc), .record true⟩⟩

/-! ## The commands, taken apart -/

theorem runIdOf_ok {text : String} {runId : RunId} :
    runIdOf py text = .ok runId ↔ py.uuid text = some runId := by
  unfold runIdOf
  cases py.uuid text <;> simp

theorem requireRun_ok {current : Option Record} {runId : Value} {r : Record}
    (h : requireRun py current runId = .ok r) :
    current = some r ∧ py.uuid runId.str = some r.runId := by
  simp only [requireRun, Fallible.bind_eq_ok] at h
  obtain ⟨normalized, hn, h⟩ := h
  cases current with
  | none => cases h
  | some r' =>
    simp only at h
    split at h
    · rename_i he
      cases h
      exact ⟨rfl, by rw [runIdOf_ok.mp hn, he]⟩
    · cases h

theorem requireRun_some {r : Record} {runId : Value} (h : py.uuid runId.str = some r.runId) :
    requireRun py (some r) runId = .ok r := by
  unfold requireRun
  rw [runIdOf_ok.mpr h]
  simp [bind, Except.bind]

/-- A start that is not refused: no run holds the coordinator and the identifier is new. -/
theorem cmdStart_ok {release : String} {d : Disk} {current : Option Record}
    {mode adapterInstanceId usbId runId : Value} {fresh now : String} {r : Record}
    (h : cmdStart py release d current mode adapterInstanceId usbId runId fresh now = .ok r) :
    hasCleanupGuard d current = false ∧ ∃ mode adapter usb runId, d.records runId = none ∧
      r = startRecord release mode adapter usb runId now := by
  simp only [cmdStart, Fallible.bind_eq_ok, Fallible.raiseIf_eq_ok] at h
  obtain ⟨selectedMode, -, -, hg, adapter, -, normalized, -, -, hn, h⟩ := h
  refine ⟨eq_false_of_ne_true hg, selectedMode, adapter.1, adapter.2, normalized, ?_, ?_⟩
  · rw [← Option.not_isSome_iff_eq_none]
    exact hn
  · exact (Fallible.pure_eq_ok.mp h).symm

theorem boot_some {d : Disk} {release : Value} {utc : String} {t : Host}
    (h : boot d release utc = some t) : Change py ⟨d, none⟩ (.boot release utc) t := by
  unfold boot at h
  split at h
  · cases h
  rename_i release' _
  split at h
  · rename_i hn
    cases h
    exact .bootIdle d release release' utc hn
  rename_i runId ha
  split at h
  · cases h
  rename_i r hr
  split at h
  · rename_i hv
    have hid : r.runId = runId := by
      simp only [Record.valid, Bool.and_eq_true, decide_eq_true_eq] at hv
      exact hv.1.1.1
    split at h
    · rename_i hs
      cases h
      exact .bootSettled d release release' utc runId r ha hr hid hs
    · rename_i hs
      cases h
      exact .bootRecover d release release' utc runId r ha hr hid (eq_false_of_ne_true hs)
  · cases h

/-- The inversion lemma of a step. -/
theorem step_change {h t : Host} {i : Label} (hs : ∀ r, h.Holds r → r.Shaped)
    (hn : Host.step py h i = some t) : Change py h i t := by
  obtain ⟨d, process⟩ := h
  cases i with
  | boot release utc =>
    cases process with
    | none => exact boot_some hn
    | some p => cases hn
  | crash =>
    cases hn
    exact .ends d process _ (.inl rfl)
  | writeRecord =>
    match process, hn with
    | some ⟨release, some r, .record recovering⟩, hn =>
      cases hn
      exact .record d release r recovering
  | writePointer =>
    match process, hn with
    | some ⟨release, some r, .pointer recovering⟩, hn =>
      cases hn
      exact .pointer d release r recovering
  | writeRaises =>
    match process, hn with
    | some ⟨release, current, .record false⟩, hn =>
      cases hn
      exact .recordRaises d release current
    | some ⟨release, current, .pointer false⟩, hn =>
      cases hn
      exact .pointerRaises d release current
    | some ⟨release, current, .record true⟩, hn =>
      cases hn
      exact .ends d _ _ (.inr rfl)
    | some ⟨release, current, .pointer true⟩, hn =>
      cases hn
      exact .ends d _ _ (.inr rfl)
  | command c clock =>
    cases process with
    | none => cases hn
    | some p =>
      obtain ⟨release, current, stage⟩ := p
      simp only [Host.step] at hn
      split at hn
      · rename_i hstage
        subst hstage
        cases c with
        | start mode adapter usb runId fresh =>
          simp only [handle] at hn
          cases hc : cmdStart py release d current mode adapter usb runId fresh clock.now with
          | error e =>
            rw [hc] at hn
            cases hn
            exact .quiet d release current _ clock
          | ok r =>
            rw [hc] at hn
            cases hn
            obtain ⟨hg, mode', adapter', usb', runId', hnone, rfl⟩ := cmdStart_ok hc
            exact .start d release current _ clock mode' adapter' usb' runId' hg hnone
        | onRun runId o =>
          simp only [handle] at hn
          cases hr : requireRun py current runId with
          | error e =>
            rw [hr] at hn
            cases hn
            exact .quiet d release current _ clock
          | ok r =>
            rw [hr] at hn
            obtain ⟨rfl, hid⟩ := requireRun_ok hr
            have hshape : r.Shaped := hs r (.inl ⟨_, rfl, rfl⟩)
            simp only at hn
            cases hrun : (o.handler py clock.now).run r with
            | error e r' =>
              rw [hrun] at hn
              cases hn
              rcases handler_error hshape hrun with rfl | hres
              · exact .quiet d release (some r') _ clock
              · exact .residue d release r r' runId o clock hid hres
            | ok fin r' =>
              rw [hrun] at hn
              rcases handler_ok hrun with ⟨rfl, rfl⟩ | ⟨⟨event, rfl⟩, hedit⟩
              · cases hn
                exact .quiet d release (some r') _ clock
              · cases hn
                exact .edit d release r r' _ clock event hedit
      · cases hn

/-- What a change keeps of every record: a property of new records that edits, residues and
the recovery keep. -/
theorem Change.holds {h t : Host} {i : Label} {P : Record → Prop} (hc : Change py h i t)
    (hstart : ∀ release mode adapter usb runId now event utc,
      P ((startRecord release mode adapter usb runId now).stamp event utc))
    (hedit : ∀ r r' event utc, P r → Edit r r' → P (r'.stamp event utc))
    (hres : ∀ o r r', P r → Residue o r r' → P r')
    (hrecover : ∀ r event utc, P r → P (r.recover.stamp event utc))
    (hP : ∀ r, h.Holds r → P r) : ∀ r, t.Holds r → P r := by
  have memory : ∀ d release (current : Option Record) stage, h.disk.records = d.records →
      (∀ r, current = some r → P r) →
      ∀ r, (⟨d, some ⟨release, current, stage⟩⟩ : Host).Holds r → P r := by
    intro d release current stage hd hcur r hr
    rcases hr with ⟨p, hp, hr⟩ | ⟨runId, hr⟩
    · cases hp
      exact hcur r hr
    · exact hP r (.inr ⟨runId, by rw [hd]; exact hr⟩)
  cases hc with
  | quiet d release current c clock => exact hP
  | residue d release r r' runId o clock hid hr =>
    apply memory d release _ _ rfl
    intro r₁ he
    cases he
    exact hres o r _ (hP r (.inl ⟨_, rfl, rfl⟩)) hr
  | start d release current c clock mode adapter usb runId hg hn =>
    apply memory d release _ _ rfl
    intro r₁ he
    cases he
    exact hstart ..
  | edit d release r r' c clock event he =>
    apply memory d release _ _ rfl
    intro r₁ heq
    cases heq
    exact hedit r r' _ _ (hP r (.inl ⟨_, rfl, rfl⟩)) he
  | record d release r recovering =>
    have hr : P r := hP r (.inl ⟨_, rfl, rfl⟩)
    rintro r₁ (⟨p, hp, he⟩ | ⟨runId, he⟩)
    · cases hp
      cases he
      exact hr
    · by_cases hid : runId = r.runId
      · subst hid
        simp only [Disk.writeRecord, Function.update_self] at he
        cases he
        exact hr
      · simp only [Disk.writeRecord, Function.update_of_ne hid] at he
        exact hP r₁ (.inr ⟨runId, he⟩)
  | pointer d release r recovering =>
    apply memory (d.writePointer r) release _ _ rfl
    intro r₁ he
    cases he
    exact hP r (.inl ⟨_, rfl, rfl⟩)
  | recordRaises d release current =>
    exact memory d release _ _ rfl fun r₁ he => hP r₁ (.inl ⟨_, rfl, he⟩)
  | pointerRaises d release current =>
    exact memory d release _ _ rfl fun r₁ he => hP r₁ (.inl ⟨_, rfl, he⟩)
  | ends d process i hi =>
    rintro r₁ (⟨p, hp, he⟩ | hdisk)
    · cases hp
    · exact hP r₁ (.inr hdisk)
  | bootIdle d release release' utc hn =>
    apply memory d release' _ _ rfl
    intro r₁ he
    cases he
  | bootSettled d release release' utc runId r ha hr hid hs =>
    apply memory { d with active := none } release' _ _ rfl
    intro r₁ he
    cases he
    exact hP r (.inr ⟨runId, hr⟩)
  | bootRecover d release release' utc runId r ha hr hid hs =>
    apply memory d release' _ _ rfl
    intro r₁ he
    cases he
    exact hrecover r _ _ (hP r (.inr ⟨runId, hr⟩))

/-! ## The shape of every record -/

theorem shaped_start (release : String) (mode : RunMode) (adapter usb : Option String)
    (runId : RunId) (now : String) : (startRecord release mode adapter usb runId now).Shaped := by
  have hroles : ((startIdentity release mode adapter usb).bound .switchRole = none ∧
      (startIdentity release mode adapter usb).bound .ldnRole = none) ∨
      ∃ role : SwitchRole, (startIdentity release mode adapter usb).bound .switchRole =
          some (.text (StrEnum.value role)) ∧
        (startIdentity release mode adapter usb).bound .ldnRole =
          some (.text (StrEnum.value role.ldnRole)) := by
    cases mode with
    | directA => exact .inr ⟨.aRoomJoiner, rfl, rfl⟩
    | directB => exact .inr ⟨.bApHost, rfl, rfl⟩
    | _ => exact .inl ⟨rfl, rfl⟩
  exact ⟨⟨rfl, rfl, fun h => (by cases h), hroles, fun h => (by cases h)⟩,
    ⟨fun _ => ⟨rfl, rfl, rfl⟩, fun _ => ⟨rfl, rfl⟩, fun _ => ⟨rfl, rfl⟩⟩, rfl⟩

end SwitchTrade.Coordinator

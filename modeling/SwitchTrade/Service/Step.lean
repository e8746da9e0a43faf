import SwitchTrade.Service.Advance

/-!
# One step of the host

The file and the record in memory never differ in more than the order of the history, so
that whatever happens, the record the host holds is one step on from the one it held.
-/

namespace SwitchTrade.Service

open InPlace Transition

variable {py : Stdlib}

/-! ## The file and the memory -/

/-- Two records that differ in the order of their histories at most. -/
structure Like (r d : Record) : Prop where
  projection : project r = project d
  history : ∀ id, r.commands.get? id = d.commands.get? id

theorem Like.refl (r : Record) : Like r r := ⟨rfl, fun _ => rfl⟩

theorem Like.advance {outcomeOn : Record → Outcome} {new : Option String} {r d : Record}
    (h : Like r d) : Advance outcomeOn new (some r) d :=
  .like h.projection.symm fun id => (h.history id).symm

/-- The file holds the record in memory, and the run it is of is one there has been. -/
structure Sound (h : Host) : Prop where
  synced : ∀ s, h.service = some s → Option.Rel Like s.record h.disk
  known : ∀ r, h.current = some r → r.runId ∈ h.drawn

theorem sound_empty : Sound Host.empty where
  synced := fun _ h => (by cases h)
  known := fun _ h => (by cases h)

theorem rel_some {r : Record} {d : Option Record} (h : Option.Rel Like (some r) d) :
    ∃ r', d = some r' ∧ Like r r' := by
  cases h with
  | some hl => exact ⟨_, rfl, hl⟩

theorem rel_none {d : Option Record} (h : Option.Rel Like none d) : d = none := by
  cases h
  rfl

/-! ## What a label makes of the record -/

def Label.outcomeOn : Label → Record → Outcome
  | .boot cleanupVerified _, r =>
    if r.phase = terminalPhase then r.outcome else (r.onRecovery cleanupVerified).outcome
  | .call c _, r => c.outcomeOn r
  | .crashDuring c _ _, r => c.outcomeOn r
  | _, r => r.outcome

/-- The identifier of the run a label may start. -/
def Label.new : Label → Option String
  | .call _ w => some w.runId
  | .crashDuring _ w _ => some w.runId
  | _ => none

/-- A step, as far as the record of the host goes. -/
structure Moves (h : Host) (i : Label) (t : Host) : Prop where
  advance : ∀ r', t.current = some r' → Advance i.outcomeOn i.new h.current r'
  stays : t.current = none → h.current = none
  drawn : ∀ id, id ∈ h.drawn → id ∈ t.drawn
  fresh : ∀ id, i.new = some id → id ∉ h.drawn

theorem mem_draw {h : Host} {record : Option Record} {id : String} (hid : id ∈ h.drawn) :
    id ∈ h.draw record := by
  cases record with
  | none => exact hid
  | some r => exact List.mem_insert_of_mem hid

theorem outcome_after (s : ConnectionRunService) (c : Command) (w : Outside) :
    (outcome (handle py s c w)).2 = after (c.handler py w) ⟨s, []⟩ := by
  unfold outcome handle after
  cases (c.handler py w).run ⟨s, []⟩ <;> rfl

/-- The file after a handler holds the record the handler left in memory. -/
theorem Within.synced {outcomeOn : Record → Outcome} {new : Option String} {h : Host}
    {s : ConnectionRunService} {done : Working} (hw : Within outcomeOn new s.record done)
    (hs : Option.Rel Like s.record h.disk) : Option.Rel Like done.record (h.file done 0) := by
  rw [hw.memory]
  unfold Host.file
  cases done.written with
  | nil => exact hs
  | cons r older => exact .some (.refl r)

/-- What a crash leaves in the file is one step on from what was in memory. -/
theorem Within.file_advance {outcomeOn : Record → Outcome} {new : Option String} {h : Host}
    {s : ConnectionRunService} {done : Working} {skipped : Nat} {r' : Record}
    (hw : Within outcomeOn new s.record done) (hs : Option.Rel Like s.record h.disk)
    (hr' : h.file done skipped = some r') : Advance outcomeOn new s.record r' := by
  unfold Host.file at hr'
  cases hd : done.written.drop skipped with
  | nil =>
    rw [hd] at hr'
    have hdisk : h.disk = some r' := hr'
    cases hrec : s.record with
    | none =>
      rw [hrec] at hs
      rw [rel_none hs] at hdisk
      cases hdisk
    | some r =>
      rw [hrec] at hs
      obtain ⟨d, hd', hl⟩ := rel_some hs
      rw [hd'] at hdisk
      cases hdisk
      exact hl.advance
  | cons r older =>
    rw [hd] at hr'
    cases hr'
    apply hw.written r'
    apply List.mem_of_mem_drop (i := skipped)
    rw [hd]
    exact List.mem_cons_self

theorem file_none {h : Host} {s : ConnectionRunService} {done : Working} {skipped : Nat}
    (hs : Option.Rel Like s.record h.disk) (hn : h.file done skipped = none) : s.record = none := by
  unfold Host.file at hn
  rw [Option.or_eq_none_iff] at hn
  rw [hn.2] at hs
  cases hrec : s.record with
  | none => rfl
  | some r =>
    rw [hrec] at hs
    obtain ⟨d, hd, -⟩ := rel_some hs
    cases hd

/-! ## The step -/

theorem current_up {h : Host} {s : ConnectionRunService} (hup : h.service = some s) :
    h.current = s.record := by
  unfold Host.current
  rw [hup]

theorem current_down {h : Host} (hdown : h.service = none) : h.current = h.disk := by
  unfold Host.current
  rw [hdown]

/-- A call that is not cut off. -/
theorem call_moves {h : Host} {s : ConnectionRunService} {c : Command} {w : Outside}
    (hs : Sound h) (hup : h.service = some s) (hfresh : w.runId ∉ h.drawn) :
    Moves h (.call c w) (h.call py s c w).2 ∧ Sound (h.call py s c w).2 := by
  have hcur := current_up hup
  have hw := @handler_within py s c w
  rw [← outcome_after] at hw
  refine ⟨⟨?_, ?_, ?_, ?_⟩, ⟨?_, ?_⟩⟩
  · intro r' hr'
    rw [hcur]
    exact hw.advance hr'
  · intro hnone
    have hmem := hw.memory
    rw [show (outcome (handle py s c w)).2.record = none from hnone] at hmem
    rw [hcur]
    exact (Option.or_eq_none_iff.mp hmem.symm).2
  · exact fun id hid => mem_draw hid
  · intro id hid
    cases hid
    exact hfresh
  · intro s' hs'
    cases hs'
    exact hw.synced (hs.synced s hup)
  · intro r hr
    show r.runId ∈ h.draw (outcome (handle py s c w)).2.record
    rw [show (outcome (handle py s c w)).2.record = some r from hr]
    exact List.mem_insert_self

/-- The process ends within a call: what it had filed so far stays. -/
theorem crash_moves {h : Host} {s : ConnectionRunService} {c : Command} {w : Outside}
    {skipped : Nat} {done : Working} (hs : Sound h) (hup : h.service = some s)
    (hfresh : w.runId ∉ h.drawn) (hw : Within c.outcomeOn (some w.runId) s.record done) :
    Moves h (.crashDuring c w skipped)
        ⟨h.file done skipped, none, h.draw (h.file done skipped)⟩ ∧
      Sound ⟨h.file done skipped, none, h.draw (h.file done skipped)⟩ := by
  have hcur := current_up hup
  have hsync := hs.synced s hup
  refine ⟨⟨?_, ?_, ?_, ?_⟩, ⟨?_, ?_⟩⟩
  · intro r' hr'
    rw [hcur]
    exact hw.file_advance hsync hr'
  · intro hnone
    rw [hcur]
    exact file_none hsync hnone
  · exact fun id hid => mem_draw hid
  · intro id hid
    cases hid
    exact hfresh
  · intro s' hs'
    cases hs'
  · intro r hr
    have hfile : h.file done skipped = some r := hr
    show r.runId ∈ h.draw (h.file done skipped)
    rw [hfile]
    exact List.mem_insert_self

theorem load_like (d : Record) : Like d.load d where
  projection := by
    unfold project Record.allowedActions Record.load
    rfl
  history := fun _ => Dict.get?_sorted

/-- A start on a file, with what it makes of the record. -/
theorem boot_moves {h : Host} {cleanupVerified : Bool} {utc : String} (hs : Sound h)
    (hdown : h.service = none) :
    Moves h (.boot cleanupVerified utc) (h.boot cleanupVerified utc) ∧
      Sound (h.boot cleanupVerified utc) := by
  obtain ⟨disk, service, drawn⟩ := h
  subst hdown
  cases disk with
  | none =>
    refine ⟨⟨?_, fun _ => rfl, fun _ hid => hid, fun _ hid => (by cases hid)⟩, ?_, ?_⟩
    · intro r' hr'
      cases hr'
    · intro s' hs'
      cases hs'
      exact .none
    · intro r hr
      cases hr
  | some d =>
    have hknown : d.runId ∈ drawn := hs.known d rfl
    by_cases hp : d.phase = terminalPhase
    · have hboot : Host.boot ⟨some d, none, drawn⟩ cleanupVerified utc =
          ⟨some d, some ⟨some d.load, fun _ => none⟩, drawn⟩ := by
        show (if d.phase = terminalPhase then _ else _) = _
        rw [if_pos hp]
      rw [hboot]
      refine ⟨⟨?_, fun hn => (by cases hn), fun _ hid => hid, fun _ hid => (by cases hid)⟩, ?_, ?_⟩
      · intro r' hr'
        cases hr'
        exact .like (load_like d).projection (load_like d).history
      · intro s' hs'
        cases hs'
        exact .some (load_like d)
      · intro r hr
        cases hr
        exact hknown
    · have hboot : Host.boot ⟨some d, none, drawn⟩ cleanupVerified utc =
          ⟨some ((d.load.onRecovery cleanupVerified).stamp utc),
            some ⟨some ((d.load.onRecovery cleanupVerified).stamp utc), fun _ => none⟩,
            drawn⟩ := by
        show (if d.phase = terminalPhase then _ else _) = _
        rw [if_neg hp]
      rw [hboot]
      have hkeeps : (d.load.onRecovery cleanupVerified).runId = d.runId ∧
          (d.load.onRecovery cleanupVerified).revision = d.revision ∧
          (d.load.onRecovery cleanupVerified).commands = d.load.commands ∧
          (d.load.onRecovery cleanupVerified).outcome =
            (d.onRecovery cleanupVerified).outcome := by
        cases cleanupVerified <;> exact ⟨rfl, rfl, rfl, rfl⟩
      obtain ⟨hrun, hrev, hc, ho⟩ := hkeeps
      refine ⟨⟨?_, fun hn => (by cases hn), fun _ hid => hid, fun _ hid => (by cases hid)⟩, ?_, ?_⟩
      · intro r' hr'
        cases hr'
        have hout : (Label.boot cleanupVerified utc).outcomeOn d =
            (d.onRecovery cleanupVerified).outcome := by
          show (if d.phase = terminalPhase then _ else _) = _
          rw [if_neg hp]
        refine ⟨.run ?_ hrun (ho.trans hout.symm), ?_⟩
        · show d.revision < (d.load.onRecovery cleanupVerified).revision + 1
          omega
        · intro id e he
          left
          have he' : (d.load.onRecovery cleanupVerified).commands.get? id = some e := he
          rw [hc, (load_like d).history] at he'
          exact he'
      · intro s' hs'
        cases hs'
        exact .some (.refl _)
      · intro r hr
        cases hr
        show (d.load.onRecovery cleanupVerified).runId ∈ drawn
        rw [hrun]
        exact hknown

@[simp] theorem control_record (s : ConnectionRunService) (runId : String) (op : ControlOp) :
    (s.control runId op).record = s.record := by
  unfold ConnectionRunService.control
  split
  · rfl
  · split <;> rfl

theorem control_moves {h : Host} {s : ConnectionRunService} {runId : String} {op : ControlOp}
    (hs : Sound h) (hup : h.service = some s) :
    Moves h (.control runId op) { h with service := some (s.control runId op) } ∧
      Sound { h with service := some (s.control runId op) } := by
  have hcur := current_up hup
  refine ⟨⟨?_, ?_, fun _ hid => hid, fun _ hid => (by cases hid)⟩, ?_, ?_⟩
  · intro r' hr'
    have hrec : s.record = some r' := by
      rw [← control_record s runId op]
      exact hr'
    rw [hcur, hrec]
    exact .refl r'
  · intro hnone
    rw [hcur, ← control_record s runId op]
    exact hnone
  · intro s' hs'
    cases hs'
    rw [control_record]
    exact hs.synced s hup
  · intro r hr
    apply hs.known
    rw [hcur, ← control_record s runId op]
    exact hr

theorem stop_moves {h : Host} (hs : Sound h) :
    Moves h .crash { h with service := none } ∧ Sound { h with service := none } := by
  cases hup : h.service with
  | none =>
    have hcur := current_down hup
    refine ⟨⟨?_, ?_, fun _ hid => hid, fun _ hid => (by cases hid)⟩, ?_, ?_⟩
    · intro r' hr'
      rw [hcur, show h.disk = some r' from hr']
      exact .refl r'
    · intro hnone
      rw [hcur]
      exact hnone
    · intro s' hs'
      cases hs'
    · intro r hr
      apply hs.known
      rw [hcur]
      exact hr
  | some s =>
    have hcur := current_up hup
    have hsync := hs.synced s hup
    have hlike : ∀ d, h.disk = some d → ∃ r, s.record = some r ∧ Like r d := by
      intro d hd
      rw [hd] at hsync
      cases hrec : s.record with
      | none =>
        rw [hrec] at hsync
        cases rel_none hsync
      | some r =>
        rw [hrec] at hsync
        obtain ⟨d', hd', hl⟩ := rel_some hsync
        cases hd'
        exact ⟨r, rfl, hl⟩
    refine ⟨⟨?_, ?_, fun _ hid => hid, fun _ hid => (by cases hid)⟩, ?_, ?_⟩
    · intro d hd
      obtain ⟨r, hr, hl⟩ := hlike d hd
      rw [hcur, hr]
      exact hl.advance
    · intro hnone
      rw [hcur]
      cases hrec : s.record with
      | none => rfl
      | some r =>
        rw [hrec] at hsync
        obtain ⟨d, hd, -⟩ := rel_some hsync
        rw [show h.disk = none from hnone] at hd
        cases hd
    · intro s' hs'
      cases hs'
    · intro d hd
      obtain ⟨r, hr, hl⟩ := hlike d hd
      rw [project_runId hl.projection.symm]
      apply hs.known
      rw [hcur]
      exact hr


/-- One case per step of the host. -/
theorem step_moves {h t : Host} {i : Label} (hs : Sound h) (hn : (system py).next h i t) :
    Moves h i t ∧ Sound t := by
  have hstep : h.step py i = some t := hn
  cases i with
  | boot cleanupVerified utc =>
    cases hup : h.service with
    | none =>
      simp only [Host.step, hup] at hstep
      cases hstep
      exact boot_moves hs hup
    | some s =>
      simp only [Host.step, hup] at hstep
      cases hstep
  | call c w =>
    cases hup : h.service with
    | none =>
      simp only [Host.step, hup] at hstep
      cases hstep
    | some s =>
      simp only [Host.step, hup] at hstep
      by_cases hfresh : w.runId ∈ h.drawn
      · rw [if_pos hfresh] at hstep
        cases hstep
      · rw [if_neg hfresh] at hstep
        cases hstep
        exact call_moves hs hup hfresh
  | crashDuring c w skipped =>
    cases hup : h.service with
    | none =>
      simp only [Host.step, hup] at hstep
      cases hstep
    | some s =>
      simp only [Host.step, hup] at hstep
      by_cases hfresh : w.runId ∈ h.drawn
      · rw [if_pos hfresh] at hstep
        cases hstep
      · rw [if_neg hfresh] at hstep
        cases hstep
        apply crash_moves hs hup hfresh
        rw [outcome_after]
        exact handler_within s c w
  | control runId op =>
    cases hup : h.service with
    | none =>
      simp only [Host.step, hup] at hstep
      cases hstep
    | some s =>
      simp only [Host.step, hup] at hstep
      cases hstep
      exact control_moves hs hup
  | crash =>
    cases hstep
    exact stop_moves hs

end SwitchTrade.Service

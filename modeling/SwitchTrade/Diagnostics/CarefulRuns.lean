import SwitchTrade.Diagnostics.Lifecycle

/-!
# Careful runs keep the lifecycle

`Good` holds in every state of a careful run. Its parts about the run of the last `start`
(`Current`) tie the record in memory to the events and to its report: a terminal status that was
given is the one the record has, and while there is a thread no other run is unfinished. A call
changes the record in one of two ways, with or without a status (`Changes`), and `Good.put` is the
step for all of them.
-/

namespace SwitchTrade.Diagnostics

open Transition

/-! ## Events -/

/-- The run an event is about. -/
def Event.about : Event → Option Nat
  | .started run | .status run _ | .canceled run | .consumed run _ _ | .cleanupPassed run =>
    some run
  | .startRaised _ => none

/-- What `Lifecycle` says of the events alone. -/
structure Sound (log : List Event) : Prop where
  terminal : log.Pairwise fun a b => ∀ run status status', a = .status run status →
    b = .status run status' → status.terminal = true → status' = status
  canceled : log.Pairwise fun a b => ∀ run status, a = .canceled run → b = .status run status →
    status ≠ .running ∧ status ≠ .awaitingUser ∧ status ≠ .passed
  consumed : ∀ run accepted await, Event.consumed run accepted await ∈ log → accepted = await
  inactive : Event.startRaised true ∉ log

theorem pairwise_concat {α : Type} {p : α → α → Prop} {xs : List α} {x : α} (h : xs.Pairwise p)
    (hx : ∀ y ∈ xs, p y x) : (xs ++ [x]).Pairwise p := by
  rw [List.pairwise_append]
  refine ⟨h, List.pairwise_singleton p x, ?_⟩
  intro y hy z hz
  rw [List.mem_singleton.mp hz]
  exact hx y hy

namespace Sound

variable {log : List Event} {r : Nat}

/-- A status that no terminal status and no cancellation rules out. -/
theorem status (h : Sound log) {st : RunStatus}
    (hterminal : ∀ st', Event.status r st' ∈ log → st'.terminal = true → st = st')
    (hcanceled : Event.canceled r ∈ log → st ≠ .running ∧ st ≠ .awaitingUser ∧ st ≠ .passed) :
    Sound (log ++ [.status r st]) := by
  refine ⟨pairwise_concat h.terminal ?_, pairwise_concat h.canceled ?_, ?_, ?_⟩
  · intro e he run st₁ st₂ heq heq' hst
    cases heq'
    rw [heq] at he
    exact hterminal st₁ he hst
  · intro e he run st₁ heq heq'
    cases heq'
    rw [heq] at he
    exact hcanceled he
  · intro run accepted await he
    rcases List.mem_append.mp he with he | he
    · exact h.consumed run accepted await he
    · cases List.mem_singleton.mp he
  · intro he
    rcases List.mem_append.mp he with he | he
    · exact h.inactive he
    · cases List.mem_singleton.mp he

/-- An event that is no status. -/
theorem concat (h : Sound log) {e : Event} (hstatus : ∀ run st, e ≠ .status run st)
    (hconsumed : ∀ run accepted await, e = .consumed run accepted await → accepted = await)
    (hraised : e ≠ .startRaised true) : Sound (log ++ [e]) := by
  refine ⟨pairwise_concat h.terminal ?_, pairwise_concat h.canceled ?_, ?_, ?_⟩
  · intro _ _ run _ st _ heq
    exact absurd heq (hstatus run st)
  · intro _ _ run st _ heq
    exact absurd heq (hstatus run st)
  · intro run accepted await he
    rcases List.mem_append.mp he with he | he
    · exact h.consumed run accepted await he
    · exact hconsumed run accepted await (List.mem_singleton.mp he).symm
  · intro he
    rcases List.mem_append.mp he with he | he
    · exact h.inactive he
    · exact hraised (List.mem_singleton.mp he).symm

end Sound

/-! ## The invariant -/

/-- The worker of the run was started and its cleanup status did not pass yet. -/
def Unfinished (s : State) (r : Nat) : Prop :=
  Event.started r ∈ s.log ∧ Event.cleanupPassed r ∉ s.log

/-- A report of a record that was given a terminal status: where the write of `failed` raised, the
report is open, and the next process makes it `failed`. -/
def Kept (report : Record) (st : RunStatus) : Prop :=
  report.status = st ∨ st = .failed ∧ report.status.terminal = false

theorem Kept.eq_failed {report : Record} {st : RunStatus} (h : Kept report st)
    (hterminal : st.terminal = true) (hopen : report.status.terminal = false) : st = .failed := by
  rcases h with heq | ⟨hfailed, -⟩
  · rw [heq, hterminal] at hopen
    cases hopen
  · exact hfailed

/-- A report beside a record of a status. -/
def Mirrors (report : Record) (st : RunStatus) : Prop :=
  (report.status.terminal = true → report.status = st) ∧ (st.terminal = true → Kept report st)

theorem Mirrors.of_eq {report : Record} {st : RunStatus} (h : report.status = st) :
    Mirrors report st :=
  ⟨fun _ => h, fun _ => .inl h⟩

/-- What holds of the run of the last `start`. -/
structure Current (s : State) (run : DiagnosticRun) : Prop where
  live : s.live = true
  known : run.runId < s.nextRun
  reported : ∃ report, s.reports.get? run.runId = some report ∧ Mirrors report run.record.status
  settled : ∀ st, Event.status run.runId st ∈ s.log → st.terminal = true → run.record.status = st
  passed : run.record.cleanup.status = .passed → Event.cleanupPassed run.runId ∈ s.log
  alone : s.worker.busy = true → ∀ r, Unfinished s r → r = run.runId
  starting : s.worker = .starting → s.recovery.map Recovery.runId = some run.runId
  awaiting : ∀ checkpointId number, s.worker = .awaiting checkpointId number →
    (run.record.status = .awaitingUser → s.shownAt = number) ∧
    (run.continuedCheckpoint = some checkpointId → s.acceptedAt = number)

structure Good (s : State) : Prop where
  sound : Sound s.log
  fresh : ∀ e ∈ s.log, ∀ r, e.about = some r → r < s.nextRun
  settled : ∀ r st, Event.status r st ∈ s.log → st.terminal = true →
    ∃ report, s.reports.get? r = some report ∧ Kept report st
  named : ∀ r, Unfinished s r → s.recovery.map Recovery.runId = some r
  written : ∀ recovery, s.recovery = some recovery →
    recovery.runId < s.nextRun ∧ ∃ report, s.reports.get? recovery.runId = some report
  blocked : s.live = true → ∀ r, Unfinished s r → s.active = true ∨ s.cleanupIncomplete = true
  gone : s.run = none → s.worker.busy = false ∧ s.active = false
  busy : s.worker.busy = true → s.active = true
  current : ∀ run, s.run = some run → Current s run

theorem Good.lifecycle {s : State} (h : Good s) : Lifecycle s :=
  ⟨h.sound.terminal, h.sound.canceled, h.sound.consumed,
    fun run hstarted hopen => h.named run ⟨hstarted, hopen⟩, h.sound.inactive⟩

theorem good_init : Good {} := by
  have hlog : ({} : State).log = [] := rfl
  have hnone : ∀ e, e ∉ ({} : State).log := fun e he => absurd he List.not_mem_nil
  refine ⟨⟨?_, ?_, ?_, ?_⟩, ?_, ?_, ?_, ?_, ?_, ?_, ?_, ?_⟩
  · rw [hlog]
    exact List.Pairwise.nil
  · rw [hlog]
    exact List.Pairwise.nil
  · exact fun run accepted await he => absurd he (hnone _)
  · exact hnone _
  · exact fun e he => absurd he (hnone e)
  · exact fun r st he => absurd he (hnone _)
  · exact fun r hr => absurd hr.1 (hnone _)
  · intro recovery hrecovery
    cases hrecovery
  · intro hlive
    cases hlive
  · exact fun _ => ⟨rfl, rfl⟩
  · intro hbusy
    cases hbusy
  · intro run hrun
    cases hrun

/-- Events that start no worker leave no more runs unfinished. -/
theorem Unfinished.of_append {s s' : State} {events : List Event} {r : Nat}
    (hlog : s'.log = s.log ++ events) (hstarted : ∀ r, Event.started r ∉ events)
    (h : Unfinished s' r) : Unfinished s r ∧ Event.cleanupPassed r ∉ events := by
  obtain ⟨hin, hout⟩ := h
  rw [hlog] at hin hout
  rw [List.mem_append] at hin hout
  exact ⟨⟨hin.resolve_right (hstarted r), fun hc => hout (.inl hc)⟩, fun hc => hout (.inr hc)⟩

/-! ## The calls on a run -/

section

variable {s : State} {run run' : DiagnosticRun} {ok : Bool} {events : List Event}

/-- The reports after a write. -/
def reportsAfter (s : State) (run : DiagnosticRun) (ok : Bool) : Dict Nat Record :=
  if ok then s.reports.set run.runId run.record else s.reports

theorem get?_reportsAfter_of_ne {r : Nat} (h : r ≠ run.runId) :
    (reportsAfter s run ok).get? r = s.reports.get? r := by
  unfold reportsAfter
  split
  · exact Dict.get?_set_of_ne _ _ h
  · rfl

theorem isSome_reportsAfter {r : Nat} {report : Record} (h : s.reports.get? r = some report) :
    ∃ report', (reportsAfter s run ok).get? r = some report' := by
  by_cases hr : r = run.runId
  · unfold reportsAfter
    split
    · rw [hr]
      exact ⟨_, Dict.get?_set_self _ _ _⟩
    · exact ⟨report, h⟩
  · exact ⟨report, (get?_reportsAfter_of_ne hr).trans h⟩

/-- What a call does to the record and the events. -/
structure Changes (s : State) (run run' : DiagnosticRun) (ok : Bool) (events : List Event) :
    Prop where
  runId : run'.runId = run.runId
  sound : Sound (s.log ++ events)
  mine : ∀ e ∈ events, e.about = some run.runId ∧ ∀ r, e ≠ .started r
  settled : ∀ st, Event.status run.runId st ∈ s.log ++ events → st.terminal = true →
    run'.record.status = st
  reported : ∃ report, (reportsAfter s run' ok).get? run.runId = some report ∧
    Mirrors report run'.record.status
  passed : run'.record.cleanup.status = .passed → Event.cleanupPassed run.runId ∈ s.log ++ events

/-- The report after a write that may raise, if the one before it mirrors the new status too. -/
theorem mirrors_reportsAfter (hid : run'.runId = run.runId)
    (hold : ok = false → ∃ report, s.reports.get? run.runId = some report ∧
      Mirrors report run'.record.status) :
    ∃ report, (reportsAfter s run' ok).get? run.runId = some report ∧
      Mirrors report run'.record.status := by
  unfold reportsAfter
  cases ok with
  | true =>
    rw [if_pos rfl, hid]
    exact ⟨_, Dict.get?_set_self _ _ _, .of_eq rfl⟩
  | false => exact hold rfl

/-- A call that leaves the status. -/
theorem Changes.quiet (h : Good s) (hrun : s.run = some run) (hid : run'.runId = run.runId)
    (hstatus : run'.record.status = run.record.status)
    (hcleanup : run'.record.cleanup = run.record.cleanup)
    (hsound : Sound (s.log ++ events))
    (hevents : ∀ e ∈ events, e.about = some run.runId ∧ (∀ r, e ≠ .started r) ∧
      ∀ r st, e ≠ .status r st) :
    Changes s run run' ok events := by
  have hcurrent := h.current run hrun
  refine ⟨hid, hsound, fun e he => ⟨(hevents e he).1, (hevents e he).2.1⟩, ?_, ?_, ?_⟩
  · intro st hst hterminal
    rcases List.mem_append.mp hst with hst | hst
    · exact hstatus.trans (hcurrent.settled st hst hterminal)
    · exact absurd rfl ((hevents _ hst).2.2 run.runId st)
  · apply mirrors_reportsAfter hid
    intro _
    rw [hstatus]
    exact hcurrent.reported
  · intro hpassed
    rw [hcleanup] at hpassed
    exact List.mem_append_left _ (hcurrent.passed hpassed)

theorem of_allows {st : RunStatus} (h : s.allows run st ok = true) :
    (Event.canceled run.runId ∈ s.log → st ≠ .running ∧ st ≠ .awaitingUser ∧ st ≠ .passed) ∧
      (run.record.status.terminal = true → st = run.record.status) ∧
      (run.record.status.terminal = false → st.terminal = true → ok = false → st = .failed) := by
  unfold State.allows at h
  rw [Bool.and_eq_true, Bool.or_eq_true, decide_eq_true_eq, decide_eq_true_eq] at h
  obtain ⟨hcanceled, hwritten⟩ := h
  refine ⟨fun hc => hcanceled.resolve_left fun hn => hn hc, ?_, ?_⟩
  · intro hterminal
    rw [if_pos hterminal] at hwritten
    exact of_decide_eq_true hwritten
  · intro hopen hterminal hok
    rw [hopen, hterminal, hok] at hwritten
    simpa using hwritten

/-- A call that gives the record a status that is allowed. -/
theorem Changes.status (h : Good s) (hrun : s.run = some run) (hid : run'.runId = run.runId)
    {st : RunStatus} (hallows : s.allows run st ok = true) (hstatus : run'.record.status = st)
    {more : List Event}
    (hmore : ∀ e ∈ more, e = .canceled run.runId ∨ e = .cleanupPassed run.runId)
    (hpassed : run'.record.cleanup.status = .passed →
      Event.cleanupPassed run.runId ∈ s.log ++ .status run.runId st :: more) :
    Changes s run run' ok (.status run.runId st :: more) := by
  have hcurrent := h.current run hrun
  obtain ⟨hcanceled, hterm, hopen⟩ := of_allows hallows
  -- a terminal status that was given is the one of the record, and so the new one
  have hsame : ∀ st', Event.status run.runId st' ∈ s.log → st'.terminal = true → st = st' := by
    intro st' hst' hterminal
    have hrecord := hcurrent.settled st' hst' hterminal
    rw [hterm (by rw [hrecord]; exact hterminal)]
    exact hrecord
  have hsound : ∀ (more : List Event) (log : List Event), Sound log →
      (∀ e ∈ more, e = .canceled run.runId ∨ e = .cleanupPassed run.runId) →
      Sound (log ++ more) := by
    intro more
    induction more with
    | nil =>
      intro log hlog _
      rw [List.append_nil]
      exact hlog
    | cons e more ih =>
      intro log hlog hall
      rw [← List.singleton_append, ← List.append_assoc]
      apply ih
      · rcases hall e List.mem_cons_self with rfl | rfl
        · exact hlog.concat nofun nofun nofun
        · exact hlog.concat nofun nofun nofun
      · exact fun e' he' => hall e' (List.mem_cons_of_mem _ he')
  refine ⟨hid, ?_, ?_, ?_, ?_, hpassed⟩
  · rw [← List.singleton_append, ← List.append_assoc]
    apply hsound more _ _ hmore
    exact h.sound.status hsame hcanceled
  · intro e he
    rcases List.mem_cons.mp he with rfl | he
    · exact ⟨rfl, nofun⟩
    · rcases hmore e he with rfl | rfl
      · exact ⟨rfl, nofun⟩
      · exact ⟨rfl, nofun⟩
  · intro st' hst' hterminal
    rw [hstatus]
    rcases List.mem_append.mp hst' with hst' | hst'
    · exact hsame st' hst' hterminal
    · rcases List.mem_cons.mp hst' with heq | hst'
      · cases heq
        rfl
      · rcases hmore _ hst' with heq | heq
        · cases heq
        · cases heq
  · apply mirrors_reportsAfter hid
    intro hok
    obtain ⟨report, hreport, hbefore, hkept⟩ := hcurrent.reported
    rw [hstatus]
    refine ⟨report, hreport, ?_, ?_⟩
    · intro hterminal
      have hrecord := hbefore hterminal
      rw [hterm (by rw [← hrecord]; exact hterminal)]
      exact hrecord
    · intro hterminal
      cases hrecord : run.record.status.terminal with
      | true =>
        rw [hterm hrecord]
        exact hkept hrecord
      | false =>
        refine .inr ⟨hopen hrecord hterminal hok, ?_⟩
        cases hr : report.status.terminal with
        | false => rfl
        | true =>
          rw [← hbefore hr, hr] at hrecord
          cases hrecord

/-- The step for a call: the worker may go on to another phase, and checkpoints are numbered. -/
theorem Good.put (h : Good s) (hrun : s.run = some run) (hchanges : Changes s run run' ok events)
    {worker : Phase} (hbusy : worker.busy = true → s.worker.busy = true)
    (hstarting : worker = .starting → s.worker = .starting) {shows shownAt acceptedAt : Nat}
    (hawaiting : ∀ checkpointId number, worker = .awaiting checkpointId number →
      (run'.record.status = .awaitingUser → shownAt = number) ∧
      (run'.continuedCheckpoint = some checkpointId → acceptedAt = number)) :
    Good (State.put { s with shows := shows, shownAt := shownAt, acceptedAt := acceptedAt } run' ok
      events worker) := by
  have hcurrent := h.current run hrun
  have hunfinished : ∀ r, Unfinished (State.put { s with
      shows := shows, shownAt := shownAt, acceptedAt := acceptedAt } run' ok events worker) r →
        Unfinished s r := fun r hr =>
    (hr.of_append rfl fun r' hr' => (hchanges.mine _ hr').2 r' rfl).1
  refine ⟨hchanges.sound, ?_, ?_, fun r hr => h.named r (hunfinished r hr), ?_,
    fun hlive r hr => h.blocked hlive r (hunfinished r hr), nofun, fun hb => h.busy (hbusy hb), ?_⟩
  · intro e he r hr
    rcases List.mem_append.mp he with he | he
    · exact h.fresh e he r hr
    · rw [(hchanges.mine e he).1] at hr
      cases hr
      exact hcurrent.known
  · intro r st hst hterminal
    by_cases hr : r = run.runId
    · rw [hr] at hst ⊢
      obtain ⟨report, hreport, -, hkept⟩ := hchanges.reported
      rw [hchanges.settled st hst hterminal] at hkept
      exact ⟨report, hreport, hkept hterminal⟩
    · have hold : Event.status r st ∈ s.log := by
        rcases List.mem_append.mp hst with hold | hnew
        · exact hold
        · have habout := (hchanges.mine _ hnew).1
          cases habout
          exact absurd rfl hr
      obtain ⟨report, hreport, hstatus⟩ := h.settled r st hold hterminal
      refine ⟨report, ?_, hstatus⟩
      have hsame := @get?_reportsAfter_of_ne s run' ok r (by rw [hchanges.runId]; exact hr)
      exact hsame.trans hreport
  · intro recovery hrecovery
    obtain ⟨hknown, report, hreport⟩ := h.written recovery hrecovery
    exact ⟨hknown, isSome_reportsAfter hreport⟩
  · intro run'' hrun''
    cases hrun''
    refine ⟨hcurrent.live, ?_, ?_, ?_, ?_, ?_, ?_, hawaiting⟩
    · rw [hchanges.runId]
      exact hcurrent.known
    · rw [hchanges.runId]
      exact hchanges.reported
    · rw [hchanges.runId]
      exact hchanges.settled
    · rw [hchanges.runId]
      exact hchanges.passed
    · intro hb r hr
      rw [hchanges.runId]
      exact hcurrent.alone (hbusy hb) r (hunfinished r hr)
    · intro hs
      rw [hchanges.runId]
      exact hcurrent.starting (hstarting hs)

/-- The worker goes on without a change of the record. -/
theorem Good.goes (h : Good s) (hrun : s.run = some run) {worker : Phase}
    (hbusy : worker.busy = true → s.worker.busy = true) (hstarting : worker ≠ .starting)
    {shows : Nat} (hawaiting : ∀ checkpointId number, worker = .awaiting checkpointId number →
      (run.record.status = .awaitingUser → s.shownAt = number) ∧
      (run.continuedCheckpoint = some checkpointId → s.acceptedAt = number)) :
    Good { s with shows := shows, worker := worker } := by
  have hcurrent := h.current run hrun
  refine ⟨h.sound, h.fresh, h.settled, h.named, h.written, h.blocked, ?_,
    fun hb => h.busy (hbusy hb), ?_⟩
  · intro hnone
    rw [hrun] at hnone
    cases hnone
  · intro run'' hrun''
    rw [hrun] at hrun''
    cases hrun''
    exact ⟨hcurrent.live, hcurrent.known, hcurrent.reported, hcurrent.settled, hcurrent.passed,
      fun hb => hcurrent.alone (hbusy hb), fun hs => absurd hs hstarting, hawaiting⟩

end

/-! ## The thread of the worker -/

namespace Good

variable {s s' : State} {run : DiagnosticRun} {move : Move}

theorem not_awaiting {worker : Phase} {shownAt acceptedAt : Nat} {run' : DiagnosticRun}
    (h : ∀ checkpointId number, worker ≠ .awaiting checkpointId number) :
    ∀ checkpointId number, worker = .awaiting checkpointId number →
      (run'.record.status = .awaitingUser → shownAt = number) ∧
      (run'.continuedCheckpoint = some checkpointId → acceptedAt = number) :=
  fun checkpointId number heq => absurd heq (h checkpointId number)

/-- A `transition` of an open record, to another phase than the first. -/
theorem transition (h : Good s) (hrun : s.run = some run) {status : RunStatus} {name : String}
    {checkpoint : Option Checkpoint} {ok : Bool} {run' : DiagnosticRun}
    (hmade : run.transition status name checkpoint = some run')
    (hallows : (run.record.status.terminal || s.allows run status ok) = true) {worker : Phase}
    (hbusy : worker.busy = true → s.worker.busy = true) (hstarting : worker ≠ .starting)
    {shows shownAt acceptedAt : Nat}
    (hawaiting : ∀ checkpointId number, worker = .awaiting checkpointId number →
      (run'.record.status = .awaitingUser → shownAt = number) ∧
      (run'.continuedCheckpoint = some checkpointId → acceptedAt = number)) :
    Good (State.put { s with shows := shows, shownAt := shownAt, acceptedAt := acceptedAt } run' ok
      [.status run.runId status] worker) := by
  obtain ⟨hopen, hid, hstatus, hcleanup, -⟩ := DiagnosticRun.transition_eq_some hmade
  rw [hopen, Bool.false_or] at hallows
  refine h.put hrun ?_ hbusy (fun hs => absurd hs hstarting) hawaiting
  refine .status h hrun hid hallows hstatus (fun e he => absurd he List.not_mem_nil) ?_
  intro hpassed
  rw [hcleanup] at hpassed
  exact List.mem_append_left _ ((h.current run hrun).passed hpassed)

/-- A `finish` whose status is allowed. -/
theorem finish (h : Good s) (hrun : s.run = some run) {f : Finish} {ok : Bool}
    {run' : DiagnosticRun} (hmade : run.finish f = some run')
    (hallows : s.allows run f.result ok = true) {worker : Phase}
    (hbusy : worker.busy = true → s.worker.busy = true) (hstarting : worker ≠ .starting)
    (hawaiting : ∀ checkpointId number, worker ≠ .awaiting checkpointId number) :
    Good (s.put run' ok (State.finishEvents run') worker) := by
  obtain ⟨-, hid, hstatus⟩ := DiagnosticRun.finish_eq_some hmade
  have hevents : State.finishEvents run' = .status run.runId f.result ::
      if run'.record.cleanup.status = .passed then [.cleanupPassed run.runId] else [] := by
    unfold State.finishEvents
    rw [hid, hstatus]
  rw [hevents]
  refine h.put hrun ?_ hbusy (fun hs => absurd hs hstarting) (not_awaiting hawaiting)
  refine .status h hrun hid hallows hstatus ?_ ?_
  · intro e he
    split at he
    · exact .inr (List.mem_singleton.mp he)
    · cases he
  · intro hpassed
    rw [if_pos hpassed]
    exact List.mem_append_right _ (List.mem_cons_of_mem _ List.mem_cons_self)

/-- A call that changes neither the status nor the cleanup. -/
theorem annotate (h : Good s) (hrun : s.run = some run) {run' : DiagnosticRun} {ok : Bool}
    (hid : run'.runId = run.runId) (hstatus : run'.record.status = run.record.status)
    (hcleanup : run'.record.cleanup = run.record.cleanup) (hworker : s.worker = .working) :
    Good (s.put run' ok [] .working) := by
  refine h.put hrun (.quiet h hrun hid hstatus hcleanup ?_ ?_) ?_ ?_ (not_awaiting nofun)
  · rw [List.append_nil]
    exact h.sound
  · exact fun e he => absurd he List.not_mem_nil
  · rw [hworker]
    exact fun _ => rfl
  · nofun

/-- A call of the run by the worker, one case per call. -/
theorem call (h : Good s) (hrun : s.run = some run) (hworker : s.worker = .working)
    (hcareful : Careful s move) (hcall : s.call run move = some s') : Good s' := by
  have hworking : s.worker.busy = true := by rw [hworker]; rfl
  unfold Careful State.careful at hcareful
  cases move with
  | transition status name checkpoint ok =>
    simp only [hrun, Option.all_some] at hcareful
    simp only [State.call] at hcall
    cases hmade : run.transition status name checkpoint with
    | none =>
      rw [hmade] at hcall
      cases hcall
      exact h
    | some run' =>
      rw [hmade] at hcall
      cases hcall
      cases checkpoint with
      | none =>
        exact h.transition hrun hmade hcareful (fun _ => hworking) (by nofun)
          (not_awaiting (by nofun))
      | some checkpoint =>
        exact h.transition hrun hmade hcareful (fun _ => hworking) (by nofun)
          (not_awaiting (by nofun))
  | stage value ok =>
    cases hcall
    exact h.annotate hrun rfl rfl rfl hworker
  | setResult level ok =>
    cases hcall
    exact h.annotate hrun rfl rfl rfl hworker
  | finish f ok =>
    simp only [hrun, Option.all_some] at hcareful
    simp only [State.call] at hcall
    cases hmade : run.finish f with
    | none =>
      rw [hmade] at hcall
      cases hcall
      exact h
    | some run' =>
      rw [hmade] at hcall
      cases hcall
      obtain ⟨hterminal, -, -⟩ := DiagnosticRun.finish_eq_some hmade
      rw [hterminal, Bool.not_true, Bool.false_or] at hcareful
      exact h.finish hrun hmade hcareful (fun _ => hworking) (by nofun) (by nofun)
  | await checkpoint ok =>
    simp only [hrun, Option.all_some, Bool.and_eq_true] at hcareful
    obtain ⟨hallows, hpending⟩ := hcareful
    rw [Bool.or_eq_true, Bool.and_eq_true, Bool.not_eq_true', Bool.not_eq_true',
      decide_eq_true_eq] at hpending
    simp only [State.call] at hcall
    cases hmade : run.transition .awaitingUser checkpoint.id (some checkpoint) with
    | none =>
      rw [hmade] at hcall
      cases hcall
      refine h.goes hrun (fun _ => hworking) (by nofun) ?_
      intro checkpointId number heq
      cases heq
      unfold DiagnosticRun.transition at hmade
      split at hmade
      · next hterminal =>
          refine ⟨fun hstatus => ?_, fun hc => ?_⟩
          · rw [hstatus] at hterminal
            cases hterminal
          · rcases hpending with ⟨hopen, -⟩ | hpending
            · rw [hopen] at hterminal
              cases hterminal
            · exact absurd hc hpending
      · cases hmade
    | some run' =>
      rw [hmade] at hcall
      cases hcall
      obtain ⟨-, -, -, -, hcontinued⟩ := DiagnosticRun.transition_eq_some hmade
      cases ok with
      | true =>
        refine h.transition hrun hmade hallows (fun _ => hworking) (by nofun) ?_
        intro checkpointId number heq
        cases heq
        refine ⟨fun _ => rfl, fun hc => ?_⟩
        rcases hpending with ⟨-, hfails⟩ | hpending
        · cases hfails
        · rw [hcontinued] at hc
          exact absurd hc hpending
      | false =>
        exact h.transition hrun hmade hallows (fun _ => hworking) (by nofun)
          (not_awaiting (by nofun))
  | workerRaises error =>
    cases hcall
    exact h.goes hrun (fun _ => hworking) (by nofun) (not_awaiting (by nofun))
  | workerReturns =>
    cases hcall
    exact h.goes hrun (fun _ => hworking) (by nofun) (not_awaiting (by nofun))
  | _ => cases hcall

/-- The worker begins its work. -/
theorem launch (h : Good s) (hrun : s.run = some run) (hworker : s.worker = .starting) :
    Good { s with worker := .working, log := s.log ++ [.started run.runId] } := by
  have hcurrent := h.current run hrun
  have hbusy : s.worker.busy = true := by rw [hworker]; rfl
  have hstatus : ∀ r st, Event.status r st ∈ s.log ++ [.started run.runId] →
      Event.status r st ∈ s.log := by
    intro r st he
    rcases List.mem_append.mp he with he | he
    · exact he
    · cases List.mem_singleton.mp he
  -- the new run is the only unfinished one, and the recovery file names it already
  have hunfinished : ∀ r, Unfinished { s with
      worker := .working, log := s.log ++ [.started run.runId] } r → r = run.runId := by
    intro r hr
    obtain ⟨hin, hout⟩ := hr
    rcases List.mem_append.mp hin with hin | hin
    · exact hcurrent.alone hbusy r ⟨hin, fun hc => hout (List.mem_append_left _ hc)⟩
    · cases List.mem_singleton.mp hin
      rfl
  refine ⟨h.sound.concat nofun nofun nofun, ?_, fun r st he => h.settled r st (hstatus r st he),
    ?_, h.written, fun _ _ _ => .inl (h.busy hbusy), ?_, fun _ => h.busy hbusy, ?_⟩
  · intro e he r hr
    rcases List.mem_append.mp he with he | he
    · exact h.fresh e he r hr
    · rw [List.mem_singleton.mp he] at hr
      cases hr
      exact hcurrent.known
  · intro r hr
    rw [hunfinished r hr]
    exact hcurrent.starting hworker
  · intro hnone
    rw [hrun] at hnone
    cases hnone
  · intro run' hrun'
    rw [hrun] at hrun'
    cases hrun'
    refine ⟨hcurrent.live, hcurrent.known, hcurrent.reported,
      fun st he => hcurrent.settled st (hstatus _ st he),
      fun hp => List.mem_append_left _ (hcurrent.passed hp), fun _ => hunfinished, ?_, ?_⟩
    · nofun
    · exact not_awaiting (by nofun)

/-- The thread ends, and what it leaves behind accounts for an unfinished run. -/
theorem ended (h : Good s) (hrun : s.run = some run) {recovery : Option Recovery}
    {active cleanupIncomplete : Bool}
    (hnamed : ∀ r, Unfinished s r → recovery.map Recovery.runId = some r)
    (hwritten : ∀ r, recovery.map Recovery.runId = some r → s.recovery.map Recovery.runId = some r)
    (hblocked : ∀ r, Unfinished s r → active = true ∨ cleanupIncomplete = true) :
    Good { s with
      recovery := recovery
      cleanupIncomplete := cleanupIncomplete
      active := active
      worker := .ended } := by
  have hcurrent := h.current run hrun
  refine ⟨h.sound, h.fresh, h.settled, hnamed, ?_, fun _ => hblocked, ?_, nofun, ?_⟩
  · intro value hvalue
    have hvalue : recovery = some value := hvalue
    have hid : s.recovery.map Recovery.runId = some value.runId := by
      apply hwritten
      rw [hvalue]
      rfl
    obtain ⟨old, hold, heq⟩ := Option.map_eq_some_iff.mp hid
    rw [← heq]
    exact h.written old hold
  · intro hnone
    rw [hrun] at hnone
    cases hnone
  · intro run' hrun'
    rw [hrun] at hrun'
    cases hrun'
    refine ⟨hcurrent.live, hcurrent.known, hcurrent.reported, hcurrent.settled, hcurrent.passed,
      ?_, ?_, ?_⟩
    · nofun
    · nofun
    · exact not_awaiting (by nofun)

/-- The worker is done: the recovery file is removed, marked or left as it is. -/
theorem close (h : Good s) (hrun : s.run = some run) (hworker : s.worker = .closing) {ok : Bool} :
    Good (s.close run ok) := by
  have hcurrent := h.current run hrun
  have hbusy : s.worker.busy = true := by rw [hworker]; rfl
  unfold State.close
  dsimp only
  split
  · next hpassed =>
      -- the worker's own run was the only one left
      have hnone : ∀ r, ¬Unfinished s r := by
        intro r hr
        have heq := hcurrent.alone hbusy r hr
        rw [heq] at hr
        exact hr.2 (hcurrent.passed hpassed)
      split
      · exact h.ended hrun h.named (fun r hr => hr) fun _ _ => .inl (h.busy hbusy)
      · refine h.ended hrun (fun r hr => absurd hr (hnone r)) ?_ fun r hr => absurd hr (hnone r)
        intro r hr
        split at hr
        · cases hr
        · exact hr
  · next hopen =>
      split
      · exact h.ended hrun h.named (fun r hr => hr) fun _ _ => .inr rfl
      · have hsame : ∀ names : Bool, Option.map Recovery.runId (if names then
            s.recovery.map fun r => { r with status := "unresolved" } else s.recovery) =
              s.recovery.map Recovery.runId := by
          intro names
          cases names with
          | false => rfl
          | true =>
            rw [if_pos rfl, Option.map_map]
            rfl
        refine h.ended hrun ?_ ?_ fun _ _ => .inr rfl
        · intro r hr
          rw [hsame]
          exact h.named r hr
        · intro r hr
          rw [hsame] at hr
          exact hr

/-- A step of the worker, by what it is doing. -/
theorem work (h : Good s) (hrun : s.run = some run) (hcareful : Careful s move)
    (hwork : s.work run move = some s') : Good s' := by
  have hcurrent := h.current run hrun
  cases hworker : s.worker with
  | idle =>
    rw [State.work.eq_def, hworker] at hwork
    cases hwork
  | starting =>
    rw [State.work.eq_def, hworker] at hwork
    cases move with
    | launch ok =>
      cases hok : ok with
      | true =>
        rw [hok] at hwork
        cases hwork
        exact h.launch hrun hworker
      | false =>
        rw [hok] at hcareful
        cases hcareful
    | _ => cases hwork
  | working =>
    rw [State.work.eq_def, hworker] at hwork
    exact h.call hrun hworker hcareful (by cases move <;> exact hwork)
  | awaiting checkpointId number =>
    have hbusy : s.worker.busy = true := by rw [hworker]; rfl
    rw [State.work.eq_def, hworker] at hwork
    cases move with
    | resume =>
      dsimp only at hwork
      split at hwork
      · next hcontinued =>
          cases hwork
          have hnumber := (hcurrent.awaiting checkpointId number hworker).2 hcontinued
          have hsound : Sound (s.log ++ [.consumed run.runId s.acceptedAt number]) := by
            apply h.sound.concat (by nofun) ?_ (by nofun)
            intro r accepted await heq
            cases heq
            exact hnumber
          refine h.put hrun ?_ (fun _ => hbusy) ?_ (not_awaiting ?_)
          · refine .quiet h hrun rfl rfl rfl hsound ?_
            intro e he
            rw [List.mem_singleton.mp he]
            exact ⟨rfl, by nofun, by nofun⟩
          · nofun
          · nofun
      · cases hwork
    | awaitCanceled =>
      dsimp only at hwork
      split at hwork
      · cases hwork
        exact h.goes hrun (fun _ => hbusy) (by nofun) (not_awaiting (by nofun))
      · cases hwork
    | awaitTimeout =>
      dsimp only at hwork
      split at hwork
      · cases hwork
        exact h.goes hrun (fun _ => hbusy) (by nofun) (not_awaiting (by nofun))
      · cases hwork
    | _ => cases hwork
  | resuming checkpointId =>
    have hbusy : s.worker.busy = true := by rw [hworker]; rfl
    rw [State.work.eq_def, hworker] at hwork
    cases move with
    | resumed ok =>
      dsimp only at hwork
      unfold Careful State.careful at hcareful
      simp only [hrun, Option.all_some] at hcareful
      cases hmade : run.transition .running checkpointId none with
      | none =>
        rw [hmade] at hwork
        cases hwork
        exact h.goes hrun (fun _ => hbusy) (by nofun) (not_awaiting (by nofun))
      | some run' =>
        rw [hmade] at hwork
        cases hwork
        exact h.transition hrun hmade hcareful (fun _ => hbusy) (by nofun)
          (not_awaiting (by nofun))
    | _ => cases hwork
  | raised error =>
    have hbusy : s.worker.busy = true := by rw [hworker]; rfl
    rw [State.work.eq_def, hworker] at hwork
    cases move with
    | contain ok =>
      dsimp only at hwork
      unfold Careful State.careful at hcareful
      simp only [hrun, Option.all_some, hworker] at hcareful
      cases hmade : run.finish (containment error) with
      | none =>
        rw [hmade] at hwork
        cases hwork
        exact h.goes hrun (fun _ => hbusy) (by nofun) (not_awaiting (by nofun))
      | some run' =>
        rw [hmade] at hwork
        cases hwork
        exact h.finish hrun hmade hcareful (fun _ => hbusy) (by nofun) (by nofun)
    | _ => cases hwork
  | closing =>
    rw [State.work.eq_def, hworker] at hwork
    cases move with
    | close ok =>
      cases hwork
      exact h.close hrun hworker
    | _ => cases hwork
  | ended =>
    rw [State.work.eq_def, hworker] at hwork
    cases hwork

/-! ## The calls of the control service -/

/-- `continueRun` and `cancel`. -/
theorem control (h : Good s) (hrun : s.run = some run) (hcontrol : s.control run move = some s') :
    Good s' := by
  have hcurrent := h.current run hrun
  unfold State.control at hcontrol
  cases move with
  | continueRun runId checkpointId =>
    dsimp only at hcontrol
    split at hcontrol
    · cases hcontrol
      exact h
    · next run' hmade =>
        cases hcontrol
        have hcontinue : run.continueRun checkpointId = some run' := by
          split at hmade
          · exact hmade
          · cases hmade
        obtain ⟨hstatus, heq⟩ := DiagnosticRun.continueRun_eq_some hcontinue
        have hput : Good (State.put { s with
            shows := s.shows, shownAt := s.shownAt, acceptedAt := s.shownAt } run' false []
            s.worker) := by
          refine h.put hrun ?_ (fun hb => hb) (fun hs => hs) ?_
          · rw [heq]
            refine .quiet h hrun rfl rfl rfl ?_ fun e he => absurd he List.not_mem_nil
            rw [List.append_nil]
            exact h.sound
          · intro id number hworker
            have hshown := (hcurrent.awaiting id number hworker).1 hstatus
            exact ⟨fun _ => hshown, fun _ => hshown⟩
        unfold State.put at hput
        rw [List.append_nil] at hput
        exact hput
  | cancel runId ok =>
    dsimp only at hcontrol
    split at hcontrol
    · cases hcontrol
      exact h
    · next run' hmade =>
        cases hcontrol
        have hcancel : run.cancel = some run' := by
          split at hmade
          · exact hmade
          · cases hmade
        obtain ⟨hopen, hid, hstatus, hcleanup, hcontinued⟩ := DiagnosticRun.cancel_eq_some hcancel
        have hallows : s.allows run .cleaning ok = true := by
          unfold State.allows
          rw [hopen, Bool.and_eq_true, Bool.or_eq_true]
          exact ⟨.inr rfl, rfl⟩
        refine h.put hrun (.status h hrun hid hallows hstatus ?_ ?_) (fun hb => hb)
          (fun hs => hs) ?_
        · intro e he
          split at he
          · exact .inl (List.mem_singleton.mp he)
          · cases he
        · intro hpassed
          rw [hcleanup] at hpassed
          exact List.mem_append_left _ (hcurrent.passed hpassed)
        · intro id number hworker
          refine ⟨fun hs => ?_, fun hc => ?_⟩
          · rw [hstatus] at hs
            cases hs
          · rw [hcontinued] at hc
            exact (hcurrent.awaiting id number hworker).2 hc
  | _ => cases hcontrol

/-! ## The process and the files -/

/-- A `start` that is refused. -/
theorem refused (h : Good s) : Good s.refused := by
  have hlog : s.refused.log = s.log ++ [.startRaised false] := rfl
  have hold : ∀ {e : Event} {r : Nat}, e.about = some r → e ∈ s.refused.log → e ∈ s.log := by
    intro e r hr he
    rw [hlog] at he
    rcases List.mem_append.mp he with he | he
    · exact he
    · rw [List.mem_singleton.mp he] at hr
      cases hr
  have hunfinished : ∀ r, Unfinished s.refused r → Unfinished s r := fun r hr =>
    ⟨hold rfl hr.1, fun hc => hr.2 (List.mem_append_left _ hc)⟩
  refine ⟨?_, fun e he r hr => h.fresh e (hold hr he) r hr,
    fun r st he => h.settled r st (hold rfl he),
    fun r hr => h.named r (hunfinished r hr), h.written,
    fun hlive r hr => h.blocked hlive r (hunfinished r hr), h.gone, h.busy, ?_⟩
  · exact h.sound.concat (by nofun) (by nofun) (by nofun)
  · intro run hrun
    have hcurrent := h.current run hrun
    exact ⟨hcurrent.live, hcurrent.known, hcurrent.reported,
      fun st he => hcurrent.settled st (hold rfl he),
      fun hp => List.mem_append_left _ (hcurrent.passed hp),
      fun hb r hr => hcurrent.alone hb r (hunfinished r hr), hcurrent.starting, hcurrent.awaiting⟩

/-- A `start` that is accepted. -/
theorem start (h : Good s) (hlive : s.live = true) {test : String} {began : Began}
    (hbegan : began ≠ .recoveryFails) : Good (s.start test began) := by
  unfold State.start
  split
  · exact h.refused
  · split
    · exact h.refused
    · next hfree =>
        rw [Bool.or_eq_true, not_or] at hfree
        have hnone : ∀ r, ¬Unfinished s r := by
          intro r hr
          rcases h.blocked hlive r hr with hactive | hcleanup
          · exact hfree.2 hactive
          · exact hfree.1 hcleanup
        -- no event is about the new run
        have hnew : ∀ e ∈ s.log, e.about ≠ some s.nextRun := by
          intro e he hr
          exact Nat.lt_irrefl _ (h.fresh e he _ hr)
        dsimp only
        cases began with
        | runFails => exact h.refused
        | recoveryFails => exact absurd rfl hbegan
        | writes =>
          have hunfinished : ∀ r log, log = s.log ++ [Event.status s.nextRun .created] →
              ¬(Event.started r ∈ log ∧ Event.cleanupPassed r ∉ log) := by
            intro r log hlog hr
            rw [hlog] at hr
            refine hnone r ⟨?_, fun hc => hr.2 (List.mem_append_left _ hc)⟩
            rcases List.mem_append.mp hr.1 with hin | hin
            · exact hin
            · cases List.mem_singleton.mp hin
          refine ⟨?_, ?_, ?_, fun r hr => absurd hr (hunfinished r _ rfl), ?_,
            fun _ _ _ => .inl rfl, nofun, fun _ => rfl, ?_⟩
          · apply h.sound.status
            · exact fun st he => absurd rfl (hnew _ he)
            · exact fun hc => absurd rfl (hnew _ hc)
          · intro e he r hr
            rcases List.mem_append.mp he with he | he
            · exact Nat.lt_succ_of_lt (h.fresh e he r hr)
            · rw [List.mem_singleton.mp he] at hr
              cases hr
              exact Nat.lt_succ_self _
          · intro r st he hterminal
            rcases List.mem_append.mp he with he | he
            · have hne : r ≠ s.nextRun := Nat.ne_of_lt (h.fresh _ he r rfl)
              obtain ⟨report, hreport, hstatus⟩ := h.settled r st he hterminal
              exact ⟨report, (Dict.get?_set_of_ne _ _ hne).trans hreport, hstatus⟩
            · cases List.mem_singleton.mp he
              cases hterminal
          · intro recovery hrecovery
            cases hrecovery
            exact ⟨Nat.lt_succ_self _, _, Dict.get?_set_self _ _ _⟩
          · intro run hrun
            cases hrun
            refine ⟨hlive, Nat.lt_succ_self _, ⟨_, Dict.get?_set_self _ _ _, .of_eq rfl⟩, ?_, nofun,
              fun _ r hr => absurd hr (hunfinished r _ rfl), fun _ => rfl, nofun⟩
            intro st he hterminal
            rcases List.mem_append.mp he with he | he
            · exact absurd rfl (hnew _ he)
            · cases List.mem_singleton.mp he
              cases hterminal

theorem crash (h : Good s) :
    Good { s with
      live := false
      run := none
      active := false
      worker := .idle
      cleanupIncomplete := false } := by
  refine ⟨h.sound, h.fresh, h.settled, h.named, h.written, ?_, fun _ => ⟨rfl, rfl⟩, ?_, ?_⟩
  · intro hlive
    cases hlive
  · intro hbusy
    cases hbusy
  · intro run hrun
    cases hrun

/-- The recovery file names the same run as before. -/
theorem renamed (h : Good s) {recovery : Option Recovery}
    (hsame : recovery.map Recovery.runId = s.recovery.map Recovery.runId) :
    Good { s with recovery := recovery } := by
  refine ⟨h.sound, h.fresh, h.settled, ?_, ?_, h.blocked, h.gone, h.busy, ?_⟩
  · intro r hr
    rw [hsame]
    exact h.named r hr
  · intro value hvalue
    have hvalue : recovery = some value := hvalue
    rw [hvalue, Option.map_some, eq_comm, Option.map_eq_some_iff] at hsame
    obtain ⟨old, hold, heq⟩ := hsame
    rw [← heq]
    exact h.written old hold
  · intro run hrun
    have hcurrent := h.current run hrun
    refine ⟨hcurrent.live, hcurrent.known, hcurrent.reported, hcurrent.settled, hcurrent.passed,
      hcurrent.alone, ?_, hcurrent.awaiting⟩
    intro hs
    rw [hsame]
    exact hcurrent.starting hs

/-- The constructor is done. -/
theorem goesLive (h : Good s) (hdown : s.live = false) {cleanupIncomplete : Bool}
    (hblocked : ∀ r, Unfinished s r → cleanupIncomplete = true) :
    Good { s with live := true, cleanupIncomplete := cleanupIncomplete } := by
  refine ⟨h.sound, h.fresh, h.settled, h.named, h.written, fun _ r hr => .inr (hblocked r hr),
    h.gone, h.busy, ?_⟩
  intro run hrun
  have hlive := (h.current run hrun).live
  rw [hdown] at hlive
  cases hlive

/-- The report that the recovery file names is written again while there is no run: an open one
becomes `failed`, or the status stays and the cleanup passed. -/
theorem rewrites (h : Good s) (hrun : s.run = none) {recovery : Recovery}
    (hrecovery : s.recovery = some recovery) {report report' : Record}
    (hreport : s.reports.get? recovery.runId = some report) {e : Event}
    (he : e = .status recovery.runId .failed ∧ report.status.terminal = false ∧
        report'.status = .failed ∨
      e = .cleanupPassed recovery.runId ∧ report'.status = report.status) :
    Good { s with
      reports := s.reports.set recovery.runId report'
      log := s.log ++ [e] } := by
  have habout : e.about = some recovery.runId := by
    rcases he with ⟨rfl, -⟩ | ⟨rfl, -⟩
    · rfl
    · rfl
  have hstarted : ∀ r, Event.started r ∉ [e] := by
    intro r hr
    have heq := List.mem_singleton.mp hr
    rcases he with ⟨rfl, -⟩ | ⟨rfl, -⟩
    · cases heq
    · cases heq
  have hunfinished : ∀ r, Unfinished { s with
      reports := s.reports.set recovery.runId report'
      log := s.log ++ [e] } r → Unfinished s r := fun r hr =>
    (Unfinished.of_append (s := s) rfl hstarted hr).1
  refine ⟨?_, ?_, ?_, fun r hr => h.named r (hunfinished r hr), ?_,
    fun hlive r hr => h.blocked hlive r (hunfinished r hr), h.gone, h.busy, ?_⟩
  · rcases he with ⟨rfl, hopen, -⟩ | ⟨rfl, -⟩
    · apply h.sound.status
      · intro st hst hterminal
        obtain ⟨report₀, hreport₀, hstatus⟩ := h.settled _ st hst hterminal
        rw [hreport] at hreport₀
        cases hreport₀
        exact (hstatus.eq_failed hterminal hopen).symm
      · intro _
        exact ⟨by nofun, by nofun, by nofun⟩
    · exact h.sound.concat (by nofun) (by nofun) (by nofun)
  · intro e' he' r hr
    rcases List.mem_append.mp he' with he' | he'
    · exact h.fresh e' he' r hr
    · rw [List.mem_singleton.mp he', habout] at hr
      cases hr
      exact (h.written recovery hrecovery).1
  · intro r st hst hterminal
    rcases List.mem_append.mp hst with hst | hst
    · obtain ⟨old, hold, hstatus⟩ := h.settled r st hst hterminal
      by_cases hr : r = recovery.runId
      · rw [hr, hreport] at hold
        cases hold
        rw [hr]
        refine ⟨report', Dict.get?_set_self _ _ _, ?_⟩
        rcases he with ⟨-, hopen, hfailed⟩ | ⟨-, hsame⟩
        · exact .inl (hfailed.trans (hstatus.eq_failed hterminal hopen).symm)
        · unfold Kept
          rw [hsame]
          exact hstatus
      · exact ⟨old, (Dict.get?_set_of_ne _ _ hr).trans hold, hstatus⟩
    · have heq := List.mem_singleton.mp hst
      rcases he with ⟨rfl, -, hfailed⟩ | ⟨rfl, -⟩
      · cases heq
        exact ⟨report', Dict.get?_set_self _ _ _, .inl hfailed⟩
      · cases heq
  · intro value hvalue
    obtain ⟨hknown, old, hold⟩ := h.written value hvalue
    refine ⟨hknown, ?_⟩
    by_cases hr : value.runId = recovery.runId
    · rw [hr]
      exact ⟨report', Dict.get?_set_self _ _ _⟩
    · exact ⟨old, (Dict.get?_set_of_ne _ _ hr).trans hold⟩
  · intro run hnone
    rw [hrun] at hnone
    cases hnone

/-- A new process on what the last one left. -/
theorem boot (h : Good s) (hdown : s.live = false) {ok : Bool} : Good (s.boot ok) := by
  have hrun : s.run = none := by
    cases hrun : s.run with
    | none => rfl
    | some run =>
      have hlive := (h.current run hrun).live
      rw [hdown] at hlive
      cases hlive
  unfold State.boot
  cases hrecovery : s.recovery with
  | none =>
    dsimp only
    rw [← hrecovery]
    apply h.goesLive hdown
    intro r hr
    have hnamed := h.named r hr
    rw [hrecovery] at hnamed
    cases hnamed
  | some recovery =>
    obtain ⟨-, report, hreport⟩ := h.written recovery hrecovery
    dsimp only
    rw [hreport, ← hrecovery]
    dsimp only
    split
    · exact h.goesLive hdown fun _ _ => rfl
    · next hopen =>
        split
        · have hwritten := fun report' hfailed => @rewrites s h hrun recovery hrecovery report
            report' hreport _ (.inl ⟨rfl, Bool.eq_false_iff.mpr hopen, hfailed⟩)
          exact (hwritten _ rfl).goesLive hdown fun _ _ => rfl
        · exact h

/-- The recovery file is gone after the last unfinished run. -/
theorem forgets (h : Good s) (hrun : s.run = none) (hnone : ∀ r, ¬Unfinished s r) :
    Good { s with recovery := none, cleanupIncomplete := false } := by
  refine ⟨h.sound, h.fresh, h.settled, fun r hr => absurd hr (hnone r), ?_,
    fun _ r hr => absurd hr (hnone r), h.gone, h.busy, ?_⟩
  · intro recovery hrecovery
    cases hrecovery
  · intro run hsome
    rw [hrun] at hsome
    cases hsome

theorem completeRecovery (h : Good s) (hrun : s.run = none) {recovery : Recovery}
    (hrecovery : s.recovery = some recovery) {evidence : String} {writes unlinks : Bool} :
    Good (s.completeRecovery recovery evidence writes unlinks) := by
  obtain ⟨-, report, hreport⟩ := h.written recovery hrecovery
  unfold State.completeRecovery
  rw [hreport]
  dsimp only
  split
  · exact h
  · have hwritten := fun report' hsame => @rewrites s h hrun recovery hrecovery report report'
      hreport _ (.inr ⟨rfl, hsame⟩)
    split
    · refine (hwritten _ ?_).forgets hrun ?_
      · rfl
      -- the recovery file named the only unfinished run
      intro r hr
      have hr' : Unfinished s r := by
        refine ⟨?_, fun hc => hr.2 (List.mem_append_left _ hc)⟩
        rcases List.mem_append.mp hr.1 with hin | hin
        · exact hin
        · cases List.mem_singleton.mp hin
      have hnamed := h.named r hr'
      rw [hrecovery] at hnamed
      cases hnamed
      exact hr.2 (List.mem_append_right _ List.mem_cons_self)
    · exact hwritten _ rfl

end Good

/-- One case per move. -/
theorem Good.step {s s' : State} {move : Move} (h : Good s) (hcareful : Careful s move)
    (hstep : s.step move = some s') : Good s' := by
  unfold State.step at hstep
  cases move with
  | boot ok =>
    dsimp only at hstep
    split at hstep
    · cases hstep
    · next hdown =>
        cases hstep
        exact h.boot (Bool.eq_false_iff.mpr hdown)
  | crash =>
    dsimp only at hstep
    split at hstep
    · cases hstep
      exact h.crash
    · cases hstep
  | start test began =>
    dsimp only at hstep
    split at hstep
    · next hlive =>
        cases hstep
        exact h.start hlive (of_decide_eq_true hcareful)
    · cases hstep
  | updateRecovery runId status ok =>
    dsimp only at hstep
    split at hstep
    · split at hstep
      · cases hstep
        refine h.renamed ?_
        rw [Option.map_map]
        rfl
      · cases hstep
        exact h
    · cases hstep
  | completeRecovery evidence writes unlinks =>
    dsimp only at hstep
    split at hstep
    · next recovery hrun hrecovery =>
        split at hstep
        · cases hstep
          exact h.completeRecovery hrun hrecovery
        · cases hstep
    · cases hstep
  | failRecovery message ok =>
    dsimp only at hstep
    split at hstep
    · split at hstep
      · split at hstep
        · cases hstep
          refine h.renamed ?_
          rw [Option.map_map]
          rfl
        · cases hstep
          exact h
      · cases hstep
    · cases hstep
  | continueRun runId checkpointId =>
    dsimp only at hstep
    split at hstep
    · cases hrun : s.run with
      | none =>
        rw [hrun] at hstep
        cases hstep
        exact h
      | some run =>
        rw [hrun] at hstep
        exact h.control hrun hstep
    · cases hstep
  | cancel runId ok =>
    dsimp only at hstep
    split at hstep
    · cases hrun : s.run with
      | none =>
        rw [hrun] at hstep
        cases hstep
        exact h
      | some run =>
        rw [hrun] at hstep
        exact h.control hrun hstep
    · cases hstep
  | _ =>
    dsimp only at hstep
    cases hrun : s.run with
    | none =>
      rw [hrun] at hstep
      cases hstep
    | some run =>
      rw [hrun] at hstep
      exact h.work hrun hcareful hstep

/-- In every state of a run whose moves are careful. -/
theorem careful_lifecycle {s : State} (h : diagnostics.Reachable Careful s) : Lifecycle s := by
  apply Good.lifecycle
  apply h.invariant
  · intro s₀ hinit
    rw [hinit]
    exact good_init
  · intro s₁ move s₂ hgood hcareful hnext
    exact hgood.step hcareful hnext

/-- A run is continued and then canceled; the process ends in the next run, and its successor
recovers. -/
def carefulMoves : List Move :=
  [.boot true, .start "room_detection" .writes, .launch true,
    .transition .preflight "preflight" none true, .await ⟨"open_switch_room", "Open a room."⟩ true,
    .continueRun 0 "open_switch_room", .resume, .resumed true, .cancel 0 true,
    .transition .cleaning "cleanup" none true,
    .finish { status := .canceled, code := some "DIAG_CANCELED" } true, .workerReturns, .close true,
    .start "automated" .writes, .launch true, .crash, .boot true,
    .completeRecovery "\x7b\x7d" true true]

theorem careful_lifecycle_recovered : ∃ s, diagnostics.Reachable Careful s ∧ Lifecycle s ∧
    s.log = [.status 0 .created, .started 0, .status 0 .preflight, .status 0 .awaitingUser,
      .consumed 0 1 1, .status 0 .running, .status 0 .cleaning, .canceled 0, .status 0 .cleaning,
      .status 0 .canceled, .cleanupPassed 0, .status 1 .created, .started 1, .status 1 .failed,
      .cleanupPassed 1] := by
  have hplay : ∃ s, System.play State.step Careful {} carefulMoves = some s ∧
    s.log = [.status 0 .created, .started 0, .status 0 .preflight, .status 0 .awaitingUser,
      .consumed 0 1 1, .status 0 .running, .status 0 .cleaning, .canceled 0, .status 0 .cleaning,
      .status 0 .canceled, .cleanupPassed 0, .status 1 .created, .started 1, .status 1 .failed,
      .cleanupPassed 1] := ⟨_, rfl, rfl⟩
  obtain ⟨s, hplay, hlog⟩ := hplay
  have hreachable : diagnostics.Reachable Careful s :=
    (System.Reachable.init rfl).run (System.run_of_play hplay)
  exact ⟨s, hreachable, careful_lifecycle hreachable, hlog⟩

/-! ## Runs that are not careful -/

theorem reachable_of_play {moves : List Move} {s : State}
    (h : System.play State.step System.Free {} moves = some s) :
    diagnostics.Reachable System.Free s :=
  (System.Reachable.init rfl).run (System.run_of_play h)

/-- A cancellation during the preflight, after which the worker goes on to `running` and `passed`,
and then raises. -/
def canceledMoves : List Move :=
  [.boot true, .start "automated" .writes, .launch true,
    .transition .preflight "preflight" none true, .cancel 0 true,
    .transition .running "relay" none true, .finish { status := .passed } true,
    .workerRaises (.inr "OSError"), .contain true]

/-- A checkpoint is continued twice before the worker goes on, and shown again later. -/
def continuedMoves : List Move :=
  [.boot true, .start "room_detection" .writes, .launch true, .await ⟨"open_switch_room", ""⟩ true,
    .continueRun 0 "open_switch_room", .resume, .continueRun 0 "open_switch_room", .resumed true,
    .await ⟨"open_switch_room", ""⟩ true, .resume]

theorem lifecycle_broken :
    (∃ s, diagnostics.Reachable System.Free s ∧ s.log = [.status 0 .created, .started 0,
      .status 0 .preflight, .status 0 .cleaning, .canceled 0, .status 0 .running, .status 0 .passed,
      .cleanupPassed 0, .status 0 .failed]) ∧
    (∃ s, diagnostics.Reachable System.Free s ∧ Event.consumed 0 1 2 ∈ s.log) ∧
    (∃ s, diagnostics.Reachable System.Free s ∧ Event.startRaised true ∈ s.log ∧
      s.worker = .idle ∧ ∀ test began, s.start test began = s.refused) ∧
    ¬∀ s, diagnostics.Reachable System.Free s → Lifecycle s := by
  have hcanceled : ∃ s, System.play State.step System.Free {} canceledMoves = some s ∧
      s.log = [.status 0 .created, .started 0, .status 0 .preflight, .status 0 .cleaning,
        .canceled 0, .status 0 .running, .status 0 .passed, .cleanupPassed 0, .status 0 .failed] :=
    ⟨_, rfl, rfl⟩
  have hcontinued : ∃ s, System.play State.step System.Free {} continuedMoves = some s ∧
      s.log = [.status 0 .created, .started 0, .status 0 .awaitingUser, .consumed 0 1 1,
        .status 0 .running, .status 0 .awaitingUser, .consumed 0 1 2] := ⟨_, rfl, rfl⟩
  have hstarted : ∃ s, System.play State.step System.Free {}
      [.boot true, .start "automated" .recoveryFails] = some s ∧
      s.log = [.status 0 .created, .startRaised true] ∧ s.worker = .idle ∧ s.active = true :=
    ⟨_, rfl, rfl, rfl, rfl⟩
  obtain ⟨s₁, hplay₁, hlog₁⟩ := hcanceled
  obtain ⟨s₂, hplay₂, hlog₂⟩ := hcontinued
  obtain ⟨s₃, hplay₃, hlog₃, hworker, hactive⟩ := hstarted
  refine ⟨⟨s₁, reachable_of_play hplay₁, hlog₁⟩, ⟨s₂, reachable_of_play hplay₂, ?_⟩,
    ⟨s₃, reachable_of_play hplay₃, ?_, hworker, ?_⟩, ?_⟩
  · rw [hlog₂]
    decide
  · rw [hlog₃]
    decide
  · intro test began
    unfold State.start
    rw [hactive, Bool.or_true, if_pos rfl, ite_self]
  · intro hall
    apply (hall s₃ (reachable_of_play hplay₃)).inactive
    rw [hlog₃]
    decide

end SwitchTrade.Diagnostics

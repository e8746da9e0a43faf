import SwitchTrade.Service.History
import SwitchTrade.Service.Settled

/-!
# The state machine of the connection service

Over every sequence of commands, worker events, watchdog firings, stops and starts the
revisions of the published projections never decrease and stand for one projection each,
and a command is carried out once as long as the history keeps it. The first failure of a
run stays, and a run that is terminal with verified cleanup keeps its outcome, in every
run of the host in which no startup recovery writes over a failure and nothing that
arrives at a settled run has something new to say: `_recover_startup` replaces the
functional result without looking at it. Every write of the state file that a step makes
succeeds; a process that ends may have lost the last ones.
-/

namespace SwitchTrade.Service

open Transition

variable {py : Stdlib}

/-! ## The runs of the host -/

/-- A startup recovery that verifies the cleanup meets no failure of another kind, and what
arrives at a settled run has nothing new to say. -/
def Orderly (h : Host) (i : Label) : Prop :=
  ∀ r, h.current = some r →
    match i with
    | .boot cleanupVerified _ =>
      cleanupVerified = true → r.phase ≠ terminalPhase →
        r.functional.failure ∈ [none, some (interruption r.currentGate)]
    | .call c _ => r.Settled → c.Timely r
    | .crashDuring c _ _ => r.Settled → c.Timely r
    | _ => True

/-- The run is one there has been, and as long as the host holds its record, its outcome
has the property. -/
structure Since (runId : String) (P : Outcome → Prop) (h : Host) : Prop where
  known : runId ∈ h.drawn
  holds : ∀ r, h.current = some r → r.runId = runId → P r.outcome

theorem Since.moves {runId : String} {P : Outcome → Prop} {h t : Host} {i : Label}
    (hs : Since runId P h) (hm : Moves h i t)
    (hkeep : ∀ r, h.current = some r → P r.outcome → P (i.outcomeOn r)) : Since runId P t where
  known := hm.drawn runId hs.known
  holds := by
    intro r' hr' hid
    have hon := (hm.advance r' hr').onward
    cases hcur : h.current with
    | none =>
      rw [hcur] at hon
      cases hon with
      | start _ hnew => exact absurd (hid ▸ hs.known) (hm.fresh _ hnew.symm)
    | some r =>
      rw [hcur] at hon
      cases hon with
      | same hp =>
        rw [project_outcome hp]
        exact hs.holds r hcur ((project_runId hp).symm.trans hid)
      | run _ hrun ho =>
        rw [ho]
        exact hkeep r hcur (hs.holds r hcur (hrun.symm.trans hid))
      | start _ hnew => exact absurd (hid ▸ hs.known) (hm.fresh _ hnew.symm)

/-- What holds of the outcome of a run and is kept by every step of a guarded run holds
whenever the host holds the record of the run again. -/
theorem run_since {G : Host → Label → Prop} {P : Outcome → Prop} {h t : Host} {r r' : Record}
    (hkeep : ∀ u i a, G u i → u.current = some a → P a.outcome → P (i.outcomeOn a))
    (hr : (system py).Reachable System.Free h) (hrun : (system py).Run G h t)
    (hcur : h.current = some r) (hP : P r.outcome) (hcur' : t.current = some r')
    (hid : r'.runId = r.runId) : P r'.outcome := by
  have hreg := reachable_regular hr
  have hsince : Since r.runId P h := by
    refine ⟨hreg.sound.known r hcur, ?_⟩
    intro a ha _
    rw [hcur] at ha
    cases ha
    exact hP
  have hboth : Sound t ∧ Since r.runId P t := by
    apply hrun.keeps (P := fun u => Sound u ∧ Since r.runId P u)
    · rintro u i v ⟨hu, hsu⟩ hg hn
      obtain ⟨hm, hv⟩ := step_moves hu hn
      exact ⟨hv, hsu.moves hm fun a ha hPa => hkeep u i a hg ha hPa⟩
    · exact ⟨hreg.sound, hsince⟩
  exact hboth.2.holds r' hcur' hid

/-! ## The first failure stays -/

theorem onEvent_failure {r r' : Record} {value : Event} {f : Failure}
    (h : r.onEvent value = .ok r') (hf : r.functional.failure = some f) :
    r'.functional.failure = some f := by
  unfold Record.onEvent at h
  split at h
  case h_5 =>
    split at h
    · cases h
    · cases h
      exact hf
  case h_8 =>
    rw [if_neg (by rw [hf]; simp)] at h
    cases h
    exact hf
  all_goals
    cases h
    exact hf

/-- No command takes a failure from a run. -/
theorem outcomeOn_failure {r : Record} {c : Command} {f : Failure}
    (hf : r.functional.failure = some f) : (c.outcomeOn r).functional.failure = some f := by
  cases c with
  | event runId value =>
    show (if r.runId = runId then _ else _ : Outcome).functional.failure = some f
    split
    · cases hev : r.onEvent value with
      | ok r' => exact onEvent_failure hev hf
      | error e => exact hf
    · exact hf
  | finished runId report failure =>
    show (if r.runId = runId then _ else _ : Outcome).functional.failure = some f
    split
    · show endFailure r.functional.failure (Report.orEmpty report) failure = some f
      rw [hf]
      rfl
    · exact hf
  | start commandId expectedRevision request => exact hf
  | command commandId runId expectedRevision action checkpoint switchRole => exact hf
  | retry commandId runId expectedRevision => exact hf
  | shutdown commandId runId expectedRevision => exact hf

theorem orderly_failure {h : Host} {i : Label} {r : Record} {f : Failure} (hg : Orderly h i)
    (hcur : h.current = some r) (hf : r.functional.failure = some f) :
    (i.outcomeOn r).functional.failure = some f := by
  have hi := hg r hcur
  cases i with
  | boot cleanupVerified utc =>
    show (if r.phase = terminalPhase then _ else _ : Outcome).functional.failure = some f
    by_cases hp : r.phase = terminalPhase
    · rw [if_pos hp]
      exact hf
    · rw [if_neg hp]
      cases cleanupVerified with
      | false => exact hf
      | true =>
        have hmem := hi rfl hp
        rw [hf] at hmem
        rcases List.mem_cons.mp hmem with hnone | hmem
        · cases hnone
        · exact (List.mem_singleton.mp hmem).symm
  | call c w => exact outcomeOn_failure hf
  | crashDuring c w skipped => exact outcomeOn_failure hf
  | control runId op => exact hf
  | crash => exact hf

/-! ## A settled run keeps its outcome -/

theorem settled_of_outcome {r r₀ : Record} (hs : r₀.Settled) (ho : r.outcome = r₀.outcome) :
    r.Settled := by
  obtain ⟨hp, hst, hv⟩ := hs
  have hc : r.cleanup = r₀.cleanup := congrArg Outcome.cleanup ho
  refine ⟨(congrArg Outcome.phase ho).trans hp, ?_, ?_⟩
  · rw [hc]
    exact hst
  · rw [hc]
    exact hv

theorem orderly_settled {h : Host} {i : Label} {r : Record} (hg : Orderly h i)
    (hcur : h.current = some r) (hs : r.Settled) : i.outcomeOn r = r.outcome := by
  have hi := hg r hcur
  cases i with
  | boot cleanupVerified utc =>
    show (if r.phase = terminalPhase then _ else _) = r.outcome
    rw [if_pos hs.1]
  | call c w => exact (timely_iff hs).mpr (hi hs)
  | crashDuring c w skipped => exact (timely_iff hs).mpr (hi hs)
  | control runId op => rfl
  | crash => rfl

/-! ## The state machine -/

/-- Over every run: projections with one revision are equal, snapshots have growing
revisions, what a command gives back is shown, and a command that is executed again while
the history keeps its entry gives the same result, or a conflict if its content is
another, and changes nothing. Over every orderly run: the failure of a run stays, and so
does the outcome of a settled one. In these runs no write of the state file raises. -/
theorem connection_service_state_machine (py : Stdlib) {h : Host}
    (hr : (system py).Reachable System.Free h) :
    (∀ t p q, (system py).Run System.Free h t → h.Shows p → t.Shows q →
      p.revision = q.revision → p = q) ∧
    (∀ t a b p q, (system py).Run System.Free h t → h.snapshot a = some p →
      t.snapshot b = some q → p.revision ≤ q.revision) ∧
    (∀ s c w p t, h.service = some s → w.runId ∉ h.drawn →
      h.call py s c w = (.ok (.projection p), t) → t.Shows p ∧
      ∀ id payload, c.key py = some id → c.payload = some payload → ∀ u v c' w' payload',
        (system py).Run (fun u _ => u.Recalls id) t u → u.Recalls id → u.service = some v →
        c'.key py = some id → c'.payload = some payload' →
        u.call py v c' w' = (replayed py ⟨py.fingerprint payload, p⟩ payload', u)) ∧
    (∀ r f, h.current = some r → r.functional.failure = some f → ∀ t r',
      (system py).Run Orderly h t → t.current = some r' → r'.runId = r.runId →
      r'.functional.failure = some f) ∧
    ∀ r, h.current = some r → r.Settled → ∀ t r', (system py).Run Orderly h t →
      t.current = some r' → r'.runId = r.runId → r'.outcome = r.outcome := by
  refine ⟨?_, ?_, ?_, ?_, ?_⟩
  · intro t p q hrun hp hq heq
    exact shows_same_revision hr hrun hp hq heq
  · intro t a b p q hrun hp hq
    exact snapshot_revision_le hr hrun hp hq
  · intro s c w p t hup hfresh hcall
    refine ⟨call_shows hcall, ?_⟩
    intro id payload hkey hpayload u v c' w' payload' hrun hrec hv hkey' hpayload'
    have hn : (system py).next h (.call c w) t := by
      show h.step py (.call c w) = some t
      simp only [Host.step, hup]
      rw [if_neg hfresh, hcall]
    have ht : (system py).Reachable System.Free t := hr.step trivial hn
    obtain ⟨id', hid', hfound⟩ := call_found hpayload hcall
    rw [hkey] at hid'
    cases hid'
    have hu : Sound u := (reachable_regular (ht.run (hrun.mono fun _ _ _ => trivial))).sound
    exact call_again hu hv hpayload' hkey' (run_found ht hrun hrec hfound)
  · intro r f hcur hf t r' hrun hcur' hid
    apply run_since (P := fun o => o.functional.failure = some f) _ hr hrun hcur hf hcur' hid
    intro u i a hg ha hfa
    exact orderly_failure hg ha hfa
  · intro r hcur hs t r' hrun hcur' hid
    apply run_since (P := fun o => o = r.outcome) _ hr hrun hcur rfl hcur' hid
    intro u i a hg ha hoa
    rw [orderly_settled hg ha (settled_of_outcome hs hoa)]
    exact hoa

/-! ## A late watchdog, and a recovery that forgets the failure -/

/-- A library on which the runs below can be evaluated. -/
def sampleStdlib : Stdlib where
  uuid text := if text.length = 36 then some text else none
  fingerprint
    | .start _ _ => "start"
    | .command _ _ _ _ _ => "command"
    | .retry _ _ => "retry"
    | .shutdown _ _ => "shutdown"
  retryRun := id

def sampleRun : String := "00000000-0000-4000-8000-000000000001"

def sampleOutside (runId : String) : Outside :=
  ⟨runId, "2026-01-01T00:00:00Z", "2026-01-01T00:00:01Z", none⟩

def sampleStart : Command :=
  .start "00000000-0000-4000-8000-00000000000a" 0 (some ⟨some "create", none, none, ""⟩)

/-- What a worker of the run submits. -/
def submit (c : Command) : Label :=
  .call c (sampleOutside "00000000-0000-4000-8000-000000000002")

def startedRun : List Label :=
  [.boot false "2026-01-01T00:00:00Z", .call sampleStart (sampleOutside sampleRun),
    submit (.event sampleRun (.phase (some "running") (some "C2") none none))]

/-- The executor's report arrives before the watchdog that was about to fire. -/
def passedRun : List Label :=
  startedRun ++
    [submit (.finished sampleRun (some ⟨none, some "passed", some "verified", none⟩) none)]

def lateWatchdog : List Label := [submit (.event sampleRun watchdogFired)]

theorem passedRun_plays : ∃ h r t r',
    System.play (Host.step sampleStdlib) System.Free Host.empty passedRun = some h ∧
    h.current = some r ∧ r.Settled ∧ r.functional.failure = none ∧
    System.play (Host.step sampleStdlib) System.Free h lateWatchdog = some t ∧
    t.current = some r' ∧ r'.runId = r.runId ∧ r'.functional.failure.isSome = true := by
  exact ⟨_, _, _, _, rfl, rfl, by decide, rfl, rfl, rfl, rfl, rfl⟩

/-- The watchdog fires in time, the process ends, and the next start verifies the cleanup. -/
def firedRun : List Label := startedRun ++ [submit (.event sampleRun watchdogFired)]

def recovered : List Label := [.crash, .boot true "2026-01-01T00:01:00Z"]

theorem firedRun_plays : ∃ h r f t r' f',
    System.play (Host.step sampleStdlib) System.Free Host.empty firedRun = some h ∧
    h.current = some r ∧ r.functional.failure = some f ∧
    f.code = "ENDPOINT_HEARTBEAT_TIMEOUT" ∧
    System.play (Host.step sampleStdlib) System.Free h recovered = some t ∧
    t.current = some r' ∧ r'.runId = r.runId ∧ r'.functional.failure = some f' ∧
    f'.code = "CONNECTION_RUN_INTERRUPTED" := by
  exact ⟨_, _, _, _, _, _, rfl, rfl, rfl, rfl, rfl, rfl, rfl, rfl, rfl⟩

/-- A watchdog that fires behind the finish puts a failure on a run that passed, and a start
that verifies the cleanup replaces the failure of the run it finds. -/
theorem settled_run_and_failure_overwritten :
    (¬ ∀ (py : Stdlib) (h : Host), (system py).Reachable System.Free h → ∀ r,
      h.current = some r → r.Settled → ∀ t r', (system py).Run System.Free h t →
      t.current = some r' → r'.runId = r.runId → r'.outcome = r.outcome) ∧
    ¬ ∀ (py : Stdlib) (h : Host), (system py).Reachable System.Free h → ∀ r f,
      h.current = some r → r.functional.failure = some f → ∀ t r',
      (system py).Run System.Free h t → t.current = some r' → r'.runId = r.runId →
      r'.functional.failure = some f := by
  constructor
  · intro hall
    obtain ⟨h, r, t, r', hplay, hcur, hs, hnone, hplay', hcur', hid, hsome⟩ := passedRun_plays
    have hr : (system sampleStdlib).Reachable System.Free h :=
      (System.Reachable.init rfl).run (System.run_of_play hplay)
    have ho := hall sampleStdlib h hr r hcur hs t r' (System.run_of_play hplay') hcur' hid
    have hf : r'.functional.failure = r.functional.failure :=
      congrArg (fun o => o.functional.failure) ho
    rw [hf, hnone] at hsome
    cases hsome
  · intro hall
    obtain ⟨h, r, f, t, r', f', hplay, hcur, hf, hcode, hplay', hcur', hid, hf', hcode'⟩ :=
      firedRun_plays
    have hr : (system sampleStdlib).Reachable System.Free h :=
      (System.Reachable.init rfl).run (System.run_of_play hplay)
    have hsame := hall sampleStdlib h hr r f hcur hf t r' (System.run_of_play hplay') hcur' hid
    rw [hsame] at hf'
    cases hf'
    rw [hcode] at hcode'
    exact absurd hcode' (by decide)

theorem sampleStart_plays : ∃ h s t v p e,
    System.play (Host.step sampleStdlib) System.Free Host.empty
      [.boot false "2026-01-01T00:00:00Z"] = some h ∧ h.service = some s ∧
    (sampleOutside sampleRun).runId ∉ h.drawn ∧
    h.call sampleStdlib s sampleStart (sampleOutside sampleRun) = (.ok (.projection p), t) ∧
    found t.current "00000000-0000-4000-8000-00000000000a" = some e ∧ t.service = some v := by
  exact ⟨_, _, _, _, _, _, rfl, rfl, by decide, rfl, rfl, rfl⟩

/-- The run that passed keeps its outcome over every orderly run, and a `start` that is sent
again gives the result of the first and starts nothing. -/
theorem connection_service_state_machine_passed :
    (∃ h r, h.current = some r ∧ r.Settled ∧
      ∀ t r', (system sampleStdlib).Run Orderly h t → t.current = some r' →
        r'.runId = r.runId → r'.outcome = r.outcome) ∧
    ∃ (t : Host) (v : ConnectionRunService) (p : Projection), t.Shows p ∧
      t.call sampleStdlib v sampleStart (sampleOutside "00000000-0000-4000-8000-000000000002") =
        (.ok (.projection p), t) := by
  constructor
  · obtain ⟨h, r, -, -, hplay, hcur, hs, -, -⟩ := passedRun_plays
    have hr : (system sampleStdlib).Reachable System.Free h :=
      (System.Reachable.init rfl).run (System.run_of_play hplay)
    obtain ⟨-, -, -, -, hsettled⟩ := connection_service_state_machine sampleStdlib hr
    exact ⟨h, r, hcur, hs, hsettled r hcur hs⟩
  · obtain ⟨h, s, t, v, p, e, hplay, hs, hfresh, hcall, hfound, hv⟩ := sampleStart_plays
    have hr : (system sampleStdlib).Reachable System.Free h :=
      (System.Reachable.init rfl).run (System.run_of_play hplay)
    obtain ⟨-, -, honce, -, -⟩ := connection_service_state_machine sampleStdlib hr
    obtain ⟨hshows, hagain⟩ := honce s _ _ p t hs hfresh hcall
    have hreplay := hagain _ _ rfl rfl t v sampleStart
      (sampleOutside "00000000-0000-4000-8000-000000000002") _ .refl ⟨e, hfound⟩ hv rfl rfl
    refine ⟨t, v, p, hshows, hreplay.trans ?_⟩
    unfold replayed
    rw [if_pos rfl]

end SwitchTrade.Service

import SwitchTrade.Acknowledge.Exchange

/-!
# One measurement, one payload, one command id

Once the state of a run is on disk, no call measures again, and every request of the run is
the one the state names. A measurement is repeated only where nothing was written of the
earlier one. A call returns only if the relay had the payload recorded, by an answer to
this request or to an earlier one with the same command id.
-/

namespace SwitchTrade.Acknowledge

open Fallible Transition
open Authority (Store Op)
open Coordinator (Record)
open Closing (Json)
open Release (PyValue)

/-! ## The trace of a run -/

/-- Measurements that no state was left of. -/
def lostOnes (n : Nat) : List Event := (List.replicate n [Event.probed, .lost]).flatten

/-- The event is the request, or the report of a call that made it. -/
def Event.Repeats (request : Request) (e : Event) : Prop := e.request? = some request

/-- Measurements that were lost; then at most one that was kept, and from its first write on
the same request and its reports. -/
inductive Replayed : List Event → Prop
  | idle (n : Nat) : Replayed (lostOnes n)
  | probing (n : Nat) : Replayed (lostOnes n ++ [.probed])
  | kept (n : Nat) (state : D5State) (later : List Event)
      (repeats : ∀ e ∈ later, e.Repeats state.request) :
      Replayed (lostOnes n ++ .probed :: .persisted state :: later)

theorem lostOnes_succ (n : Nat) : lostOnes (n + 1) = lostOnes n ++ [.probed, .lost] := by
  rw [lostOnes, List.replicate_succ', List.flatten_append, List.flatten_singleton]
  rfl

theorem count_lostOnes (n : Nat) :
    (lostOnes n).count .probed = n ∧ (lostOnes n).count .lost = n := by
  induction n with
  | zero => exact ⟨rfl, rfl⟩
  | succ n ih =>
    rw [lostOnes_succ, List.count_append, List.count_append, ih.1, ih.2]
    exact ⟨rfl, rfl⟩

theorem mem_lostOnes {e : Event} {n : Nat} (h : e ∈ lostOnes n) : e = .probed ∨ e = .lost := by
  obtain ⟨pair, hpair, he⟩ := List.mem_flatten.mp h
  rw [List.eq_of_mem_replicate hpair] at he
  simpa using he

/-- A measurement is repeated only after one that was lost. -/
theorem Replayed.measurements {trace : List Event} (h : Replayed trace) :
    trace.count .probed ≤ trace.count .lost + 1 := by
  cases h with
  | idle n =>
    rw [(count_lostOnes n).1, (count_lostOnes n).2]
    omega
  | probing n =>
    rw [List.count_append, List.count_append, (count_lostOnes n).1, (count_lostOnes n).2]
    simp
  | kept n state later repeats =>
    have hnone : later.count .probed = 0 := by
      refine List.count_eq_zero.mpr fun hmem => ?_
      cases repeats _ hmem
    rw [List.count_append, List.count_append, (count_lostOnes n).1, (count_lostOnes n).2]
    simp only [List.count_cons, hnone]
    simp

/-- Two requests of a run are one. -/
theorem Replayed.request_eq {trace : List Event} (h : Replayed trace) {e e' : Event}
    (he : e ∈ trace) (he' : e' ∈ trace) {r r' : Request} (hr : e.request? = some r)
    (hr' : e'.request? = some r') : r = r' := by
  have hlost : ∀ {n : Nat} {e : Event} {r : Request}, e ∈ lostOnes n → e.request? ≠ some r := by
    intro n e r hmem
    rcases mem_lostOnes hmem with rfl | rfl <;> simp [Event.request?]
  cases h with
  | idle n => exact absurd hr (hlost he)
  | probing n =>
    rcases List.mem_append.mp he with he | he
    · exact absurd hr (hlost he)
    · rw [List.mem_singleton.mp he] at hr
      cases hr
  | kept n state later repeats =>
    have hkept : ∀ {e : Event} {r : Request},
        e ∈ lostOnes n ++ .probed :: .persisted state :: later → e.request? = some r →
          r = state.request := by
      intro e r hmem hr
      rcases List.mem_append.mp hmem with hmem | hmem
      · exact absurd hr (hlost hmem)
      · rcases List.mem_cons.mp hmem with rfl | hmem
        · cases hr
        · rcases List.mem_cons.mp hmem with rfl | hmem
          · cases hr
          · exact (Option.some.inj ((repeats e hmem).symm.trans hr)).symm
    exact (hkept he hr).trans (hkept he' hr').symm

/-! ## The process keeps to the state on disk -/

/-- The stage is of a process that works on the request. -/
def Stage.On (request : Request) : Stage → Prop
  | .idle => True
  | .persisting _ _ => False
  | .submitting _ state _ | .refreshing _ state _ | .saving _ state _ => state.request = request

/-- The stage is of a process that has read its state back. -/
def Stage.Works : Stage → Prop
  | .idle | .persisting _ _ => False
  | .submitting _ _ _ | .refreshing _ _ _ | .saving _ _ _ => True

/-- What the trace, the file and the stage of a world have to do with one another. -/
inductive World.Sound (w : World) : Prop
  | idle (n : Nat) (file : w.file = none) (stage : w.stage = .idle)
      (trace : w.trace = lostOnes n)
  | probing (n : Nat) {bearer : Authority.Token} {state : D5State} (file : w.file = none)
      (stage : w.stage = .persisting bearer state) (trace : w.trace = lostOnes n ++ [.probed])
  | kept (n : Nat) {first current : D5State} {later : List Event} (file : w.file = some current)
      (same : current.request = first.request) (stage : w.stage.On first.request)
      (trace : w.trace = lostOnes n ++ .probed :: .persisted first :: later)
      (repeats : ∀ e ∈ later, e.Repeats first.request)

theorem World.Sound.replayed {w : World} (h : w.Sound) : Replayed w.trace := by
  cases h with
  | idle n _ _ trace => exact trace ▸ .idle n
  | probing n _ _ trace => exact trace ▸ .probing n
  | kept n _ _ _ trace repeats => exact trace ▸ .kept n _ _ repeats

section Steps

variable {py : Release.Library} {number : String → Nat} {w w' : World}

/-- A kept run goes on with events that repeat its request, on a stage of it. -/
theorem World.Sound.going {n : Nat} {first current : D5State} {later events : List Event}
    (file : w'.file = some current) (same : current.request = first.request)
    (stage : w'.stage.On first.request)
    (trace : w'.trace = lostOnes n ++ .probed :: .persisted first :: (later ++ events))
    (repeats : ∀ e ∈ later, e.Repeats first.request)
    (more : ∀ e ∈ events, e.Repeats first.request) : w'.Sound := by
  refine .kept n file same stage trace fun e he => ?_
  rcases List.mem_append.mp he with he | he
  · exact repeats e he
  · exact more e he

theorem World.Sound.begin (h : w.Sound) (hidle : w.stage = .idle) (c : Call) :
    (w.begin py c).Sound := by
  unfold World.begin
  cases h with
  | idle n file stage trace =>
    simp only [file]
    split
    · exact .idle n file stage trace
    · split
      · exact .probing n rfl rfl (by rw [trace])
      · refine .idle (n + 1) rfl stage ?_
        rw [lostOnes_succ, trace]
  | probing n file stage trace =>
    rw [hidle] at stage
    cases stage
  | kept n file same stage trace repeats =>
    simp only [file]
    split
    · rename_i state hstate
      obtain rfl := loaded_eq py hstate
      exact .kept n rfl same same trace repeats
    · exact .kept n file same stage trace repeats

/-- An answer leaves the stage on the request and at most its report. -/
theorem answered_on {bearer : Authority.Token} {s : D5State} {attempt : Nat}
    (answer : Except Authority.Exn Authority.Response) :
    (answered bearer s attempt answer).1.On s.request ∧
      ∀ e ∈ (answered bearer s attempt answer).2, e.Repeats s.request := by
  cases answer with
  | ok response =>
    refine ⟨trivial, fun e he => ?_⟩
    rw [List.mem_singleton.mp he]
    rfl
  | error e =>
    unfold answered
    simp only
    split
    · exact ⟨rfl, fun _ he => absurd he List.not_mem_nil⟩
    · exact ⟨trivial, fun _ he => absurd he List.not_mem_nil⟩

/-- A world that works on a request keeps it in its file. -/
theorem World.Sound.working (h : w.Sound) {stage : Stage} (hstage : w.stage = stage)
    (hworks : stage.Works) :
    ∃ n first current later, w.file = some current ∧ current.request = first.request ∧
      stage.On first.request ∧
      w.trace = lostOnes n ++ .probed :: .persisted first :: later ∧
      ∀ e ∈ later, e.Repeats first.request := by
  subst hstage
  cases h with
  | idle n file stage trace => exact absurd hworks (by rw [stage]; exact id)
  | probing n file stage trace => exact absurd hworks (by rw [stage]; exact id)
  | kept n file same stage trace repeats =>
    exact ⟨n, _, _, _, file, same, stage, trace, repeats⟩

theorem World.Sound.submit (h : w.Sound) {bearer : Authority.Token} {s : D5State} {attempt : Nat}
    (hstage : w.stage = .submitting bearer s attempt) (now : Authority.Time)
    (arrives returns : Bool) : (w.submit number now bearer s attempt arrives returns).Sound := by
  obtain ⟨n, first, current, later, file, same, stage, trace, repeats⟩ :=
    h.working hstage trivial
  have hs : s.request = first.request := stage
  have hsent : ∀ e ∈ [Event.requested s.request], e.Repeats first.request := by
    intro e he
    rw [List.mem_singleton.mp he]
    exact congrArg some hs
  have htrace : w.trace ++ [Event.requested s.request] =
      lostOnes n ++ .probed :: .persisted first :: (later ++ [.requested s.request]) := by
    rw [trace]
    simp
  unfold World.submit
  cases arrives with
  | false => exact .going file same trivial htrace repeats hsent
  | true =>
    cases returns with
    | false => exact .going file same trivial htrace repeats hsent
    | true =>
      obtain ⟨hon, hrepeats⟩ :=
        @answered_on bearer s attempt (send number w.relay now bearer s).1
      rw [hs] at hon hrepeats
      have hmore : ∀ e ∈ Event.requested s.request ::
          (answered bearer s attempt (send number w.relay now bearer s).1).2,
          e.Repeats first.request := by
        intro e he
        rcases List.mem_cons.mp he with rfl | he
        · exact congrArg some hs
        · exact hrepeats e he
      refine @World.Sound.going _ n first current later _ file same hon ?_ repeats hmore
      show w.trace ++ [Event.requested s.request] ++ _ = _
      rw [htrace, List.append_assoc]
      simp only [List.cons_append, List.append_assoc, List.nil_append]
      rfl

theorem World.Sound.refresh (h : w.Sound) {bearer : Authority.Token} {s : D5State} {attempt : Nat}
    (hstage : w.stage = .refreshing bearer s attempt) (now : Authority.Time) (returns : Bool) :
    (w.refresh number now bearer s attempt returns).Sound := by
  obtain ⟨n, first, current, later, file, same, stage, trace, repeats⟩ :=
    h.working hstage trivial
  unfold World.refresh
  simp only
  split
  · exact .kept n file same stage trace repeats
  · exact .kept n file same trivial trace repeats

theorem World.Sound.stop (h : w.Sound) : w.stop.Sound := by
  unfold World.stop
  cases h with
  | idle n file stage trace =>
    simp only [stage]
    exact .idle n file rfl trace
  | probing n file stage trace =>
    simp only [stage]
    refine .idle (n + 1) file rfl ?_
    rw [lostOnes_succ, trace]
    simp
  | kept n file same stage trace repeats =>
    split
    · rename_i hpersisting
      rw [hpersisting] at stage
      exact stage.elim
    · exact .kept n file same trivial trace repeats

theorem World.Sound.step (h : w.Sound) {l : Label} (hw : w.step py number l = some w') :
    w'.Sound := by
  unfold World.step at hw
  cases l with
  | call c =>
    simp only at hw
    split at hw
    · rename_i hidle
      cases hw
      exact h.begin hidle c
    · cases hw
  | persist =>
    simp only at hw
    split at hw
    · rename_i bearer state hstage
      cases hw
      cases h with
      | idle n file stage trace =>
        rw [hstage] at stage
        cases stage
      | probing n file stage trace =>
        rw [hstage] at stage
        cases stage
        refine @World.Sound.kept _ n state state [] rfl rfl rfl ?_ fun e he =>
          absurd he List.not_mem_nil
        rw [trace]
        simp
      | kept n file same stage trace repeats =>
        rw [hstage] at stage
        exact stage.elim
    · cases hw
  | submit now arrives returns =>
    simp only at hw
    split at hw
    · rename_i bearer state attempt hstage
      cases hw
      exact h.submit hstage now arrives returns
    · cases hw
  | refresh now returns =>
    simp only at hw
    split at hw
    · rename_i bearer state attempt hstage
      cases hw
      exact h.refresh hstage now returns
    · cases hw
  | save =>
    simp only at hw
    split at hw
    · rename_i bearer state attempt hstage
      cases hw
      obtain ⟨n, first, current, later, file, same, stage, trace, repeats⟩ :=
        h.working hstage trivial
      exact .kept n rfl stage stage trace repeats
    · cases hw
  | stop =>
    cases hw
    exact h.stop
  | other op =>
    cases hw
    cases h with
    | idle n file stage trace => exact .idle n file stage trace
    | probing n file stage trace => exact .probing n file stage trace
    | kept n file same stage trace repeats => exact .kept n file same stage trace repeats

theorem sound_of_reachable {G : World → Label → Prop} (h : (exchange py number).Reachable G w) :
    w.Sound := by
  refine h.invariant (P := World.Sound) (fun w hw => ?_) fun w l w' hs _ hw => hs.step hw
  obtain rfl : w = World.initial := hw
  exact .idle 0 rfl rfl rfl

/-! ## What a report rests on -/

/-- Somewhere on a run to the world the relay had the request's payload recorded. -/
def Recorded (py : Release.Library) (number : String → Nat) (r : Request) (w : World) : Prop :=
  ∃ v, (exchange py number).Reachable Unshared v ∧ (exchange py number).Run Unshared v w ∧
    v.Holds number r.roomId r.attemptId r.payload

theorem Recorded.step {r : Request} {l : Label} (h : Recorded py number r w) (hl : Unshared w l)
    (hw : w.step py number l = some w') : Recorded py number r w' := by
  obtain ⟨v, hv, hrun, hholds⟩ := h
  exact ⟨v, hv, hrun.trans (System.Run.step hl hw), hholds⟩

/-- An acknowledgement in the commands table with the run's command id was recorded, and so
was every payload a call reported. -/
structure World.Backed (py : Release.Library) (number : String → Nat) (w : World) : Prop where
  remembered : ∀ s, w.own = some s → ∀ row ∈ w.relay.db.commands, row.commandId = s.commandId →
    ∀ attemptId, row.scope.quiescentOn attemptId → Recorded py number s.request w
  reported : ∀ control, .reported control ∈ w.trace → Recorded py number control.request w

theorem measured_commandId {c : Call} {a : Admitted} {state : D5State}
    (h : measured c a = .ok (some state)) : state.commandId = c.commandId := by
  unfold measured at h
  simp only at h
  split at h
  · simp only [bind_eq_ok, pure_eq_ok, Option.map_eq_some_iff] at h
    obtain ⟨interfaces, -, absent, -, rfl⟩ := h
    rfl
  · simp only [pure_eq_ok, reduceCtorEq] at h

/-- What a step has to show where it leaves the state of the run, forgets what the relay
remembers and reports nothing. -/
theorem World.Backed.quiet (h : w.Backed py number) {l : Label} (hl : Unshared w l)
    (hw : w.step py number l = some w')
    (own : ∀ s', w'.own = some s' → ∃ s, w.own = some s ∧ s.request = s'.request)
    (forgets : Authority.Forgets w.relay.db w'.relay.db)
    (silent : ∀ control, .reported control ∈ w'.trace → .reported control ∈ w.trace) :
    w'.Backed py number where
  remembered := by
    intro s' hs' row hrow hid attemptId hscope
    obtain ⟨s, hs, hsame⟩ := own s' hs'
    have hid' : row.commandId = s.commandId :=
      hid.trans (congrArg Request.commandId hsame).symm
    exact hsame ▸ (h.remembered s hs row (forgets row hrow) hid' attemptId hscope).step hl hw
  reported := fun control hmem => (h.reported control (silent control hmem)).step hl hw

theorem own_of_file {w : World} {file : D5State} (h : w.file = some file) : w.own = some file := by
  unfold World.own
  rw [h]

theorem begin_own {c : Call} (hidle : w.stage = .idle) {s' : D5State}
    (h : (w.begin py c).own = some s') :
    w.own = some s' ∨ s'.commandId = c.commandId := by
  unfold World.begin at h
  cases hfile : w.file with
  | some file =>
    refine .inl ?_
    rw [own_of_file hfile]
    simp only [hfile] at h
    split at h
    · exact h
    · rwa [own_of_file hfile] at h
  | none =>
    have hnone : ∀ trace, (⟨w.relay, none, .idle, trace⟩ : World).own = none := fun _ => rfl
    simp only [hfile] at h
    split at h
    · exact .inl h
    · split at h
      · rename_i state hmeasured
        refine .inr ?_
        obtain rfl : state = s' := Option.some.inj h
        exact measured_commandId hmeasured
      · rw [hidle, hnone] at h
        cases h

/-- What a request leaves: a row is new only where the request was answered, and where it was
answered before, or is, its payload was recorded. -/
theorem send_recorded {now : Authority.Time} {bearer : Authority.Token} {s : D5State}
    (relay : Store) :
    (∀ row ∈ (send number relay now bearer s).2.db.commands,
      row ∈ relay.db.commands ∨ ∃ response, (send number relay now bearer s).1 = .ok response) ∧
    ∀ response, (send number relay now bearer s).1 = .ok response →
      (∃ row ∈ relay.db.commands, row.scope.quiescentOn (number s.attemptId) ∧
        row.commandId = s.commandId) ∨
      (send number relay now bearer s).2.Records (number s.roomId) (number s.attemptId)
        (wire number s.payload) :=
  ⟨fun _ => Authority.acknowledge_rows, fun _ => Authority.acknowledge_recorded⟩

/-- A call returns only on an answer. -/
theorem answered_reported {bearer : Authority.Token} {s control : D5State} {attempt : Nat}
    {answer : Except Authority.Exn Authority.Response}
    (h : .reported control ∈ (answered bearer s attempt answer).2) :
    control = s ∧ ∃ response, answer = .ok response := by
  cases answer with
  | ok response => exact ⟨Event.reported.inj (List.mem_singleton.mp h), response, rfl⟩
  | error e =>
    unfold answered at h
    simp only at h
    split at h
    · exact absurd h List.not_mem_nil
    · exact absurd h List.not_mem_nil

theorem submit_own {bearer : Authority.Token} {s : D5State} {attempt : Nat} {now : Authority.Time}
    {arrives returns : Bool} {file : D5State} (hfile : w.file = some file) :
    (w.submit number now bearer s attempt arrives returns).own = some file := by
  refine own_of_file ?_
  unfold World.submit
  cases arrives with
  | false => exact hfile
  | true =>
    cases returns with
    | false => exact hfile
    | true => exact hfile

theorem World.Backed.submit (h : w.Backed py number)
    (hreach : (exchange py number).Reachable Unshared w)
    {bearer : Authority.Token} {s : D5State} {attempt : Nat}
    (hstage : w.stage = .submitting bearer s attempt) (now : Authority.Time)
    (arrives returns : Bool) :
    (w.submit number now bearer s attempt arrives returns).Backed py number := by
  have hw : w.step py number (.submit now arrives returns) =
      some (w.submit number now bearer s attempt arrives returns) := by
    simp only [World.step, hstage]
  obtain ⟨file, hfile, hsame⟩ : ∃ file, w.file = some file ∧ file.request = s.request := by
    obtain ⟨n, first, current, later, file, same, stage, trace, repeats⟩ :=
      (sound_of_reachable hreach).working hstage trivial
    exact ⟨_, file, same.trans (Eq.symm stage)⟩
  have hown := own_of_file hfile
  have hown' := @submit_own number w bearer s attempt now arrives returns file hfile
  cases arrives with
  | false =>
    refine h.quiet (l := .submit now false returns) trivial hw ?_ (.refl _) ?_
    · intro s' hs'
      rw [hown'] at hs'
      exact ⟨file, hown, congrArg D5State.request (Option.some.inj hs')⟩
    · intro control hmem
      rcases List.mem_append.mp hmem with hmem | hmem
      · exact hmem
      · simp at hmem
  | true =>
    obtain ⟨hrows, hanswered⟩ := @send_recorded number now bearer s w.relay
    have hid : file.commandId = s.commandId := congrArg Request.commandId hsame
    have hrelay : (w.submit number now bearer s attempt true returns).relay =
        (send number w.relay now bearer s).2 := by
      cases returns <;> rfl
    have hstep : Unshared w (.submit now true returns) := trivial
    have hold : ∀ row ∈ w.relay.db.commands, row.commandId = s.commandId →
        ∀ attemptId, row.scope.quiescentOn attemptId → Recorded py number file.request
          (w.submit number now bearer s attempt true returns) := by
      intro row hrow hrowId attemptId hscope
      exact (h.remembered file hown row hrow (hrowId.trans hid.symm) attemptId hscope).step hstep hw
    have hnow : ∀ response, (send number w.relay now bearer s).1 = .ok response →
        Recorded py number file.request (w.submit number now bearer s attempt true returns) := by
      intro response hok
      rcases hanswered response hok with ⟨row, hrow, hscope, hrowId⟩ | hrecords
      · exact hold row hrow hrowId _ hscope
      · refine ⟨_, hreach.step hstep hw, .refl, ?_⟩
        show Store.Records _ (number file.request.roomId) (number file.request.attemptId)
          (wire number file.request.payload)
        rw [hsame, hrelay]
        exact hrecords
    refine ⟨fun s' hs' row hrow hrowId attemptId hscope => ?_, fun control hmem => ?_⟩
    · rw [hown'] at hs'
      obtain rfl := Option.some.inj hs'
      rw [hrelay] at hrow
      rcases hrows row hrow with hrow | ⟨response, hok⟩
      · exact hold row hrow (hrowId.trans hid) attemptId hscope
      · exact hnow response hok
    · have htrace : .reported control ∈ w.trace ∨
          .reported control ∈
            (answered bearer s attempt (send number w.relay now bearer s).1).2 := by
        cases returns with
        | false =>
          rcases List.mem_append.mp hmem with hmem | hmem
          · exact .inl hmem
          · simp at hmem
        | true =>
          rcases List.mem_append.mp hmem with hmem | hmem
          · rcases List.mem_append.mp hmem with hmem | hmem
            · exact .inl hmem
            · simp at hmem
          · exact .inr hmem
      rcases htrace with hmem | hmem
      · exact (h.reported control hmem).step hstep hw
      · obtain ⟨rfl, response, hok⟩ := answered_reported hmem
        exact hsame ▸ hnow response hok

theorem begin_relay (c : Call) : (w.begin py c).relay = w.relay := by
  unfold World.begin
  split
  · split <;> rfl
  · split
    · rfl
    · split <;> rfl

theorem begin_reported {c : Call} {control : D5State}
    (h : .reported control ∈ (w.begin py c).trace) : .reported control ∈ w.trace := by
  unfold World.begin at h
  split at h
  · split at h <;> exact h
  · split at h
    · exact h
    · split at h
      · simpa using h
      · simpa using h

theorem World.Backed.begin (h : w.Backed py number) (hidle : w.stage = .idle) {c : Call}
    (hl : Unshared w (.call c)) (hw : w.step py number (.call c) = some (w.begin py c)) :
    (w.begin py c).Backed py number where
  remembered := by
    intro s' hs' row hrow hid attemptId hscope
    rw [begin_relay] at hrow
    rcases begin_own hidle hs' with hown | hdrawn
    · exact (h.remembered s' hown row hrow hid attemptId hscope).step hl hw
    · obtain ⟨id, hscope⟩ := hscope
      have hother : row.scope.isQuiescent = false := hl row hrow (hid.trans hdrawn)
      rw [hscope] at hother
      cases hother
  reported := fun control hmem => (h.reported control (begin_reported hmem)).step hl hw

/-- A call of anybody else remembers no acknowledgement with the command id of the run. -/
theorem World.Backed.other (h : w.Backed py number) {op : Op} (hl : Unshared w (.other op))
    (hw : w.step py number (.other op) = some { w with relay := w.relay.step op }) :
    World.Backed py number { w with relay := w.relay.step op } where
  remembered := by
    intro s' hs' row hrow hid attemptId hscope
    have hown : w.own = some s' := hs'
    rcases Authority.step_quiescent_rows hscope hrow with hold | ⟨now, roomId, bearer, payload,
      version, rfl⟩
    · exact (h.remembered s' hown row hold hid attemptId hscope).step hl hw
    · exact absurd (congrArg some hid) (hl s' hown)
  reported := fun control hmem => (h.reported control hmem).step hl hw

theorem stop_own {s : D5State} (h : w.stop.own = some s) : w.own = some s := by
  have hfile : w.stop.file = w.file := by
    unfold World.stop
    split <;> rfl
  have hstage : w.stop.stage = .idle := by
    unfold World.stop
    split <;> rfl
  cases hw : w.file with
  | some file =>
    rw [own_of_file (hfile.trans hw)] at h
    rw [own_of_file hw, h]
  | none =>
    unfold World.own at h
    rw [hfile, hw, hstage] at h
    cases h

theorem World.Backed.step (h : w.Backed py number)
    (hreach : (exchange py number).Reachable Unshared w) {l : Label} (hl : Unshared w l)
    (hw : w.step py number l = some w') : w'.Backed py number := by
  have hstep := hw
  unfold World.step at hw
  cases l with
  | call c =>
    simp only at hw
    split at hw
    · rename_i hidle
      cases hw
      exact h.begin hidle hl hstep
    · cases hw
  | persist =>
    simp only at hw
    split at hw
    · rename_i bearer state hstage
      cases hw
      refine h.quiet hl hstep (fun s' hs' => ?_) (.refl _) fun control hmem => ?_
      · refine ⟨state, ?_, congrArg D5State.request (Option.some.inj hs')⟩
        cases sound_of_reachable hreach with
        | idle n file stage trace =>
          rw [hstage] at stage
          cases stage
        | probing n file stage trace =>
          unfold World.own
          rw [file, hstage]
        | kept n file same stage trace repeats =>
          rw [hstage] at stage
          exact stage.elim
      · simpa using hmem
    · cases hw
  | submit now arrives returns =>
    simp only at hw
    split at hw
    · rename_i bearer state attempt hstage
      cases hw
      exact h.submit hreach hstage now arrives returns
    · cases hw
  | refresh now returns =>
    simp only at hw
    split at hw
    · rename_i bearer state attempt hstage
      cases hw
      have hrelay : (w.refresh number now bearer state attempt returns).relay =
          (w.relay.snapshot now (number state.roomId) bearer).2 := by
        unfold World.refresh
        simp only
        split <;> rfl
      have hfile : (w.refresh number now bearer state attempt returns).file = w.file := by
        unfold World.refresh
        simp only
        split <;> rfl
      have htrace : (w.refresh number now bearer state attempt returns).trace = w.trace := by
        unfold World.refresh
        simp only
        split <;> rfl
      refine h.quiet hl hstep (fun s' hs' => ?_) ?_ fun control hmem => htrace ▸ hmem
      · obtain ⟨n, first, current, later, file, same, stage, trace, repeats⟩ :=
          (sound_of_reachable hreach).working hstage trivial
        rw [own_of_file (hfile.trans file)] at hs'
        exact ⟨_, own_of_file file, congrArg D5State.request (Option.some.inj hs')⟩
      · rw [hrelay]
        exact Authority.snapshot_forgets _ _ _ _
    · cases hw
  | save =>
    simp only at hw
    split at hw
    · rename_i bearer state attempt hstage
      cases hw
      refine h.quiet hl hstep (fun s' hs' => ?_) (.refl _) fun control hmem => hmem
      obtain ⟨n, first, current, later, file, same, stage, trace, repeats⟩ :=
        (sound_of_reachable hreach).working hstage trivial
      obtain rfl := Option.some.inj hs'
      exact ⟨_, own_of_file file, same.trans (Eq.symm stage)⟩
    · cases hw
  | stop =>
    cases hw
    refine h.quiet hl hstep (fun s' hs' => ⟨s', stop_own hs', rfl⟩) ?_ fun control hmem => ?_
    · unfold World.stop
      split <;> exact .refl _
    · unfold World.stop at hmem
      split at hmem
      · simpa using hmem
      · exact hmem
  | other op =>
    cases hw
    exact h.other hl hstep

theorem backed_of_reachable (h : (exchange py number).Reachable Unshared w) :
    w.Backed py number := by
  have hinv : (exchange py number).Reachable Unshared w ∧ w.Backed py number := by
    refine h.invariant (P := fun w => (exchange py number).Reachable Unshared w ∧
      w.Backed py number) (fun w hw => ⟨.init hw, ?_⟩) fun w l w' hs hl hw =>
        ⟨hs.1.step hl hw, hs.2.step hs.1 hl hw⟩
    obtain rfl : w = World.initial := hw
    exact ⟨fun s hs => (by cases hs), fun control hmem => absurd hmem List.not_mem_nil⟩
  exact hinv.2

end Steps

/-- Over every run of the D5 control against the relay, with processes that die and writes
that fail at any step, requests and answers that are lost, version conflicts and any other
calls: all requests are one, the evidence is measured once more than measurements were lost
before anything was written of them, and nothing is measured once a state is written. Where
no other acknowledgement comes with the command id of the run, a call that returned had its
payload recorded by the relay. -/
theorem acknowledged_once (py : Release.Library) (number : String → Nat) (w : World) :
    ((exchange py number).Reachable System.Free w →
      Replayed w.trace ∧ w.trace.count .probed ≤ w.trace.count .lost + 1 ∧
        ∀ r ∈ w.requests, ∀ r' ∈ w.requests, r = r') ∧
    ((exchange py number).Reachable Unshared w →
      ∀ control, .reported control ∈ w.trace → Recorded py number control.request w) := by
  refine ⟨fun h => ?_, fun h => (backed_of_reachable h).reported⟩
  have hreplayed := (sound_of_reachable h).replayed
  refine ⟨hreplayed, hreplayed.measurements, fun r hr r' hr' => ?_⟩
  obtain ⟨e, he, hr⟩ := List.mem_filterMap.mp hr
  obtain ⟨e', he', hr'⟩ := List.mem_filterMap.mp hr'
  exact hreplayed.request_eq he he' hr hr'

/-! ## A lost measurement, a version conflict and a lost answer -/

def sampleRunId : String := "0190a000-0000-7000-8000-000000000000"

def sampleLaunch : String := String.ofList (List.replicate 64 '0')

/-- The canceled run of the first member, with the launch it was made for. -/
def canceledRun : Record :=
  { Coordinator.startRecord "0.3.0" .normal none none sampleRunId "t" with
    phase := .cleaning
    functional := ⟨.canceled, some "CONNECTION_CANCELED", none⟩
    ownership := ⟨true, true, true, true, 1, 1⟩
    identity :=
      { Coordinator.startIdentity "0.3.0" .normal none none with
        bound
          | .roomId => some (.text "room")
          | .attemptId => some (.text "attempt")
          | .authoritySeat => some (.text "member_a")
          | .launchNonce => some (.text "nonce")
          | .endpointPid => some (.int 7)
          | .endpointStartTicks => some (.int 9)
          | _ => none } }

def endpointReportItems : List (String × Json) :=
  [("contract_version", .text "d-endpoint-stage.v1"), ("run_id", .text sampleRunId),
    ("attempt_id", .text "attempt"), ("activation_generation", .int 1),
    ("source_seat", .text "member_a"), ("stage_generation", .int 1),
    ("launch_identity_sha256", .text sampleLaunch), ("outcome", .text "canceled"),
    ("primary_failure_code", .null), ("last_passed_gate", .text "D4_LDN_TEARDOWN"),
    ("status", .text "passed"), ("forced", .bool false),
    ("evidence", .dict (Closing.endpointEvidenceFields.map fun key => (key, .bool true))),
    ("drain", .dict (Closing.drainFields.map fun key => (key, .int 0))),
    ("failures", .list []), ("elapsed_ms", .int 5)]

def closingState : Authority.DState :=
  { activationGeneration := 1, intentGeneration := 1, outcome := .canceled
    primaryFailureCode := none, lastPassedGate := "C1", initiatedBySeat := .memberA
    startedAt := 1, deadlineAt := 31, sides := ⟨none, none⟩
    barrierStatus := .waitingForSides, cleanupStatus := .pending
    secondaryFailureCode := none, terminalizedAt := none }

def sampleCall (version : Nat) (commandId : String) : Call :=
  { room := ⟨⟨"room", some ⟨"attempt", .closing, some closingState⟩⟩, version⟩
    run := some canceledRun
    memberToken := 3
    stableSamples := 2
    report := some ⟨endpointReportItems, sampleLaunch⟩
    stateReadable := true
    process := [⟨.ticks 9, false⟩, ⟨.absent, false⟩]
    radio := some (List.replicate 2
      ⟨.dict [(.text "status", .text "quiescent"), (.text "owned_interfaces", .int 0)], false⟩)
    commandId := commandId }

def sampleLibrary : Release.Library := ⟨⟨some, id⟩, fun _ _ _ _ => some sampleLaunch⟩

def sampleNumber (text : String) : Nat :=
  if text = "room" then 0 else if text = "attempt" then 15 else 99

def sampleLabels : List Label :=
  (Authority.startedCalls ++ [Authority.closingCall .canceled]).map .other ++
    [.call (sampleCall 5 "0190a000-0000-7000-8000-000000000001"), .stop,
      .call (sampleCall 5 "0190a000-0000-7000-8000-000000000002"), .persist,
      .other (.mutate 5 0 8 "h" .heartbeat {} none),
      .submit 6 true true, .refresh 7 true, .save, .submit 8 true false,
      .call (sampleCall 6 "0190a000-0000-7000-8000-000000000003"), .submit 9 true true]


def sampleState : D5State :=
  { runId := sampleRunId, roomId := "room", attemptId := "attempt", expectedRoomVersion := 5
    commandId := "0190a000-0000-7000-8000-000000000002"
    endpointReportSha256 := sampleLaunch, measurement := ⟨true, true⟩
    payload :=
      ⟨"attempt", 1, .memberA, sampleRunId, 1, sampleLaunch,
        ⟨true, true, true, true, true, false⟩⟩ }

/-- The first measurement is lost with its process. The second one's state is sent three
times: it meets a version conflict, its answer is lost, and the next process is told that
it was recorded. -/
theorem acknowledged_once_lost_answer :
    ∃ w, (exchange sampleLibrary sampleNumber).Reachable Unshared w ∧
      w.trace = [.probed, .lost, .probed, .persisted sampleState, .requested sampleState.request,
        .requested sampleState.request, .requested sampleState.request,
        .reported (sampleState.expecting 6)] ∧
      (Replayed w.trace ∧ w.trace.count .probed ≤ w.trace.count .lost + 1 ∧
        ∀ r ∈ w.requests, ∀ r' ∈ w.requests, r = r') ∧
      Recorded sampleLibrary sampleNumber sampleState.request w := by
  have hplay : ((System.play (World.step sampleLibrary sampleNumber) Unshared World.initial
      sampleLabels).any fun w => w.trace = [.probed, .lost, .probed, .persisted sampleState,
        .requested sampleState.request, .requested sampleState.request,
        .requested sampleState.request, .reported (sampleState.expecting 6)]) = true := by
    decide +kernel
  obtain ⟨w, hw, htrace⟩ := (Option.any_eq_true _ _).mp hplay
  have htrace := of_decide_eq_true htrace
  have hreach : (exchange sampleLibrary sampleNumber).Reachable Unshared w :=
    ⟨_, rfl, System.run_of_play hw⟩
  obtain ⟨hreplayed, hrecorded⟩ := acknowledged_once sampleLibrary sampleNumber w
  refine ⟨w, hreach, htrace, hreplayed (hreach.mono fun _ _ _ => trivial), ?_⟩
  exact hrecorded hreach (sampleState.expecting 6) (by rw [htrace]; simp)

end SwitchTrade.Acknowledge

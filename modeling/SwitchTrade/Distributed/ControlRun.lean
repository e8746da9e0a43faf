import SwitchTrade.Distributed.ControlFile

/-!
# Runs in which no command is overtaken

A command is overtaken if the runner publishes between the moment its call read the state and
the moment the runner takes it. `Undisturbed` names the steps at which that does harm; a command
that was accepted and overtaken may still be discarded when the cleanup begins. In a
run without them the command in the file, wherever its call stands, is settled at most once
(`Once`), and the runner takes only what is current (`Sound`).
-/

namespace SwitchTrade.Distributed

open Transition

/-! ## The condition on the steps -/

/-- The command in the file, if there is one, is not one that `submit` has accepted. -/
def NothingAccepted (s : Files) : Prop :=
  ∀ command ∈ s.file, (s.calls command.commandId).isAccepted = false

/-- The command in the file, if there is one, was linked for the state as it is published. -/
def NothingLate (s : Files) : Prop :=
  ∀ command ∈ s.file, command.stateSequence = s.control.sequence

/-- The command in the file, if there is one, is a cancel. -/
def NoContinue (s : Files) : Prop := ∀ command ∈ s.file, command.action = .cancel

def Consumed (s : Files) (k : Nat) : Prop :=
  ∃ e ∈ s.log, e.isConsumed = true ∧ e.command.commandId = k

/-- The cleanup, which discards what is in the file, has begun. -/
def Over (phase : Phase) : Prop := phase = .cleaning ∨ phase = .terminal

/-- The steps that do no harm: none leaves an accepted command that nothing settles any more, reads
one that is late, or takes a file for what it is not. -/
def Undisturbed (s : Files) : Label → Prop
  | .runner (.publish p) => Over p.phase → NothingAccepted s
  | .runner (.await _ runId) => runId ≠ none ∨ s.control.runId = none
  | .runner .publishCleaning => NothingAccepted s
  | .runner .poll => s.localCancel = false → NothingLate s ∧ NoContinue s
  | .runner .look => s.localCancel = false → NothingLate s
  | .call k .recheck => s.file ≠ none → ¬ Consumed s k
  | .call k .withdraw => ∀ stored ∈ s.file, stored.commandId = k
  | _ => True

instance (s : Files) : Decidable (NothingAccepted s) :=
  inferInstanceAs (Decidable (∀ command ∈ s.file, _))

instance (s : Files) : Decidable (NothingLate s) :=
  inferInstanceAs (Decidable (∀ command ∈ s.file, _))

instance (s : Files) : Decidable (NoContinue s) :=
  inferInstanceAs (Decidable (∀ command ∈ s.file, _))

instance (s : Files) (k : Nat) : Decidable (Consumed s k) :=
  inferInstanceAs (Decidable (∃ e ∈ s.log, _))

instance (phase : Phase) : Decidable (Over phase) := inferInstanceAs (Decidable (_ ∨ _))

instance (s : Files) (label : Label) : Decidable (Undisturbed s label) := by
  unfold Undisturbed
  split <;> infer_instance

/-! ## What holds of the calls -/

/-- The command is one `submit` may build from the state. -/
def Fits (state : ControlState) (command : Command) : Prop :=
  command.testId = state.testId ∧ command.runId = state.runId ∧
    (command.action = .proceed →
      state.phase = .awaitingUser ∧ command.checkpoint = state.checkpoint)

structure CommandOf (s : Files) (k : Nat) (request : Request) (command : Command) : Prop where
  commandId : command.commandId = k
  action : command.action = request.action
  le : command.stateSequence ≤ s.control.sequence
  fits : command.stateSequence = s.control.sequence → Fits s.control command

/-- How often a command of the call was taken or discarded. -/
def settled (s : Files) (k : Nat) : Nat :=
  s.log.countP fun e => e.command.commandId = k

def InFile (s : Files) (k : Nat) : Prop := ∃ command, s.file = some command ∧ command.commandId = k

/-- The call has linked nothing. -/
def Unlinked (s : Files) (k : Nat) : Prop := ¬ InFile s k ∧ settled s k = 0

/-- The command lies in the file, or it was settled once and is gone. -/
def Once (s : Files) (k : Nat) (command : Command) : Prop :=
  (s.file = some command ∧ settled s k = 0) ∨
    (¬ InFile s k ∧ settled s k = 1 ∧
      ∀ e ∈ s.log, e.command.commandId = k → e.command = command)

def CallSound (s : Files) (k : Nat) : Progress → Prop
  | .idle => Unlinked s k
  | .refusing => Unlinked s k
  | .read _ state => Unlinked s k ∧ state.sequence ≤ s.control.sequence ∧
      (state.sequence = s.control.sequence → state = s.control)
  | .checked request command => Unlinked s k ∧ CommandOf s k request command
  | .linked request command => CommandOf s k request command ∧ Once s k command
  | .moved request command _ => CommandOf s k request command ∧ Once s k command ∧
      command.stateSequence < s.control.sequence
  | .present request command _ => CommandOf s k request command ∧ Once s k command ∧
      command.stateSequence < s.control.sequence ∧ ¬ Consumed s k
  | .own request command _ => CommandOf s k request command ∧ Once s k command ∧
      command.stateSequence < s.control.sequence ∧ ¬ Consumed s k
  | .accepted request command => CommandOf s k request command ∧ Once s k command ∧
      (InFile s k → command.stateSequence = s.control.sequence ∨ ¬ Over s.control.phase)
  | .rejected _ _ => ¬ InFile s k ∧ ¬ Consumed s k

/-- What `_consume` holds in its hands. -/
def RunnerSound (s : Files) : Runner → Prop
  | .looking look => ∃ command, s.file = some command ∧ matches_ s.control look command ∧
      (command.action = .proceed → look.awaiting = true)
  | .matched look command => s.file = some command ∧ matches_ s.control look command ∧
      (command.action = .proceed → look.awaiting = true)
  | .awaiting checkpoint runId => s.control.phase = .awaitingUser ∧
      s.control.checkpoint = some checkpoint ∧ s.control.runId = runId
  | _ => True

structure Sound (s : Files) : Prop where
  calls : ∀ k, CallSound s k (s.calls k)
  runner : RunnerSound s s.runner
  taken : ∀ command look sequence, Settlement.consumed command look sequence ∈ s.log →
    command.stateSequence = sequence ∧
      (command.action = .proceed → command.checkpoint = look.checkpoint ∧ look.awaiting = true)
  raised : s.raised = []

/-! ## Frames -/

theorem settled_zero {s : Files} {k : Nat} (h : settled s k = 0) :
    ∀ e ∈ s.log, e.command.commandId ≠ k := by
  intro e hmem hid
  exact List.countP_eq_zero.mp h e hmem (decide_eq_true hid)

theorem Unlinked.not_consumed {s : Files} {k : Nat} (h : Unlinked s k) : ¬ Consumed s k := by
  rintro ⟨e, hmem, -, hid⟩
  exact settled_zero h.2 e hmem hid

/-- A call's facts are about the state, the file and the log, and nothing else. -/
theorem CallSound.congr {s t : Files} {k : Nat} {p : Progress} (h : CallSound s k p)
    (hc : t.control = s.control) (hf : t.file = s.file) (hl : t.log = s.log) : CallSound t k p := by
  have hcommand : ∀ {request command}, CommandOf s k request command →
      CommandOf t k request command := by
    intro request command h
    exact ⟨h.commandId, h.action, by rw [hc]; exact h.le, by rw [hc]; exact h.fits⟩
  have hin : InFile t k ↔ InFile s k := by
    unfold InFile
    rw [hf]
  have hsettled : settled t k = settled s k := by
    unfold settled
    rw [hl]
  have hconsumed : Consumed t k ↔ Consumed s k := by
    unfold Consumed
    rw [hl]
  have honce : ∀ {command}, Once s k command → Once t k command := by
    intro command h
    unfold Once
    rw [hf, hin, hsettled, hl]
    exact h
  have hunlinked : Unlinked s k → Unlinked t k := by
    intro h
    unfold Unlinked
    rw [hin, hsettled]
    exact h
  cases p with
  | idle => exact hunlinked h
  | refusing => exact hunlinked h
  | read request state =>
    refine ⟨hunlinked h.1, ?_⟩
    rw [hc]
    exact h.2
  | checked request command => exact ⟨hunlinked h.1, hcommand h.2⟩
  | linked request command => exact ⟨hcommand h.1, honce h.2⟩
  | moved request command phase =>
    refine ⟨hcommand h.1, honce h.2.1, ?_⟩
    rw [hc]
    exact h.2.2
  | present request command phase =>
    refine ⟨hcommand h.1, honce h.2.1, ?_⟩
    rw [hc, hconsumed]
    exact h.2.2
  | own request command phase =>
    refine ⟨hcommand h.1, honce h.2.1, ?_⟩
    rw [hc, hconsumed]
    exact h.2.2
  | accepted request command =>
    refine ⟨hcommand h.1, honce h.2.1, ?_⟩
    rw [hc, hin]
    exact h.2.2
  | rejected command code =>
    show ¬ InFile t k ∧ ¬ Consumed t k
    rw [hin, hconsumed]
    exact h

theorem RunnerSound.congr {s t : Files} {r : Runner} (h : RunnerSound s r)
    (hc : t.control = s.control) (hf : t.file = s.file) : RunnerSound t r := by
  cases r with
  | looking look =>
    unfold RunnerSound
    rw [hc, hf]
    exact h
  | matched look command =>
    unfold RunnerSound
    rw [hc, hf]
    exact h
  | awaiting checkpoint runId =>
    unfold RunnerSound
    rw [hc]
    exact h
  | idle => trivial
  | continued runId => trivial
  | cleaning runId => trivial

/-- The runner moves on and leaves the files alone. -/
theorem Sound.move {s : Files} (h : Sound s) (r : Runner) (localCancel : Bool)
    (hr : RunnerSound s r) : Sound { s with runner := r, localCancel := localCancel } where
  calls := fun k => (h.calls k).congr rfl rfl rfl
  runner := hr.congr rfl rfl
  taken := h.taken
  raised := h.raised

/-- One call moves on and leaves the files alone. -/
theorem Sound.advance {s : Files} (h : Sound s) {k : Nat} {p : Progress} (hp : CallSound s k p) :
    Sound (advance s k p) where
  calls := by
    intro j
    show CallSound _ j (Function.update s.calls k p j)
    by_cases hj : j = k
    · subst hj
      rw [Function.update_self]
      exact hp.congr rfl rfl rfl
    · rw [Function.update_of_ne hj]
      exact (h.calls j).congr rfl rfl rfl
  runner := h.runner.congr rfl rfl
  taken := h.taken
  raised := h.raised

/-- The command in the file is the one its call has linked. -/
theorem Sound.holder {s : Files} (h : Sound s) {command : Command} (hf : s.file = some command) :
    settled s command.commandId = 0 ∧
      command.stateSequence ≤ s.control.sequence ∧
      (command.stateSequence = s.control.sequence → Fits s.control command) := by
  have hin : InFile s command.commandId := ⟨command, hf, rfl⟩
  have honce : ∀ {request own}, CommandOf s command.commandId request own →
      Once s command.commandId own → settled s command.commandId = 0 ∧
        command.stateSequence ≤ s.control.sequence ∧
        (command.stateSequence = s.control.sequence → Fits s.control command) := by
    intro request own hof honce
    rcases honce with ⟨hown, hzero⟩ | ⟨hnot, -⟩
    · rw [hf] at hown
      cases hown
      exact ⟨hzero, hof.le, hof.fits⟩
    · exact absurd hin hnot
  have hcall := h.calls command.commandId
  cases hp : s.calls command.commandId with
  | idle => rw [hp] at hcall; exact absurd hin hcall.1
  | refusing => rw [hp] at hcall; exact absurd hin hcall.1
  | read request state => rw [hp] at hcall; exact absurd hin hcall.1.1
  | checked request own => rw [hp] at hcall; exact absurd hin hcall.1.1
  | linked request own => rw [hp] at hcall; exact honce hcall.1 hcall.2
  | moved request own phase => rw [hp] at hcall; exact honce hcall.1 hcall.2.1
  | present request own phase => rw [hp] at hcall; exact honce hcall.1 hcall.2.1
  | own request own phase => rw [hp] at hcall; exact honce hcall.1 hcall.2.1
  | accepted request own => rw [hp] at hcall; exact honce hcall.1 hcall.2.1
  | rejected own code => rw [hp] at hcall; exact absurd hin hcall.1

/-! ## Publications -/

theorem CommandOf.publish {s : Files} {k : Nat} {request : Request} {command : Command}
    (h : CommandOf s k request command) (p : Publication) :
    CommandOf (publish s p) k request command := by
  refine ⟨h.commandId, h.action, Nat.le_succ_of_le h.le, ?_⟩
  intro heq
  have hle := h.le
  have hnext : command.stateSequence = s.control.sequence + 1 := heq
  omega

theorem CallSound.publish {s : Files} {k : Nat} (p : Publication) {q : Progress}
    (h : CallSound s k q) (hq : s.calls k = q) (hnone : Over p.phase → NothingAccepted s) :
    CallSound (publish s p) k q := by
  cases q with
  | idle => exact h
  | refusing => exact h
  | read request state =>
    refine ⟨h.1, Nat.le_succ_of_le h.2.1, ?_⟩
    intro heq
    have hle := h.2.1
    have hnext : state.sequence = s.control.sequence + 1 := heq
    omega
  | checked request command => exact ⟨h.1, h.2.publish p⟩
  | linked request command => exact ⟨h.1.publish p, h.2⟩
  | moved request command phase =>
    exact ⟨h.1.publish p, h.2.1, Nat.lt_succ_of_lt h.2.2⟩
  | present request command phase =>
    exact ⟨h.1.publish p, h.2.1, Nat.lt_succ_of_lt h.2.2.1, h.2.2.2⟩
  | own request command phase =>
    exact ⟨h.1.publish p, h.2.1, Nat.lt_succ_of_lt h.2.2.1, h.2.2.2⟩
  | accepted request command =>
    refine ⟨h.1.publish p, h.2.1, ?_⟩
    intro hin
    rcases h.2.1 with ⟨hf, -⟩ | ⟨hnot, -⟩
    · refine .inr fun hover => ?_
      have hnot := hnone hover command hf
      rw [h.1.commandId, hq] at hnot
      cases hnot
    · exact absurd hin hnot
  | rejected command code => exact h

theorem Sound.publish {s : Files} (h : Sound s) {p : Publication}
    (hnone : Over p.phase → NothingAccepted s) (r : Runner) (hr : RunnerSound (publish s p) r) :
    Sound { publish s p with runner := r } where
  calls := fun k => ((h.calls k).publish p rfl hnone).congr rfl rfl rfl
  runner := hr.congr rfl rfl
  taken := h.taken
  raised := h.raised

/-! ## The command in the file is settled -/

/-- The command leaves the file, and the log says how. -/
def settle (s : Files) (e : Settlement) : Files := { s with file := none, log := e :: s.log }

theorem settle_not_inFile (s : Files) (e : Settlement) (k : Nat) : ¬ InFile (settle s e) k := by
  rintro ⟨command, hf, -⟩
  cases hf

theorem settled_settle (s : Files) (e : Settlement) (k : Nat) :
    settled (settle s e) k = settled s k + if e.command.commandId = k then 1 else 0 := by
  show List.countP _ (e :: s.log) = _
  rw [List.countP_cons]
  simp [settled]

/-- What a discarded command or another call's adds to the log is no consumption of this call. -/
theorem consumed_settle {s : Files} {e : Settlement} {k : Nat} (h : Consumed (settle s e) k) :
    Consumed s k ∨ (e.isConsumed = true ∧ e.command.commandId = k) := by
  obtain ⟨e', hmem, hconsumed, hid⟩ := h
  rcases List.mem_cons.mp hmem with heq | hmem
  · rw [heq] at hconsumed hid
    exact .inr ⟨hconsumed, hid⟩
  · exact .inl ⟨e', hmem, hconsumed, hid⟩

theorem Unlinked.settle {s : Files} {k : Nat} {e : Settlement} (h : Unlinked s k)
    (hf : s.file = some e.command) : Unlinked (settle s e) k := by
  refine ⟨settle_not_inFile s e k, ?_⟩
  rw [settled_settle, if_neg, h.2]
  intro hid
  exact h.1 ⟨e.command, hf, hid⟩

theorem Once.settle {s : Files} {k : Nat} {command : Command} {e : Settlement}
    (h : Once s k command) (hid : command.commandId = k) (hf : s.file = some e.command) :
    Once (settle s e) k command := by
  right
  refine ⟨settle_not_inFile s e k, ?_⟩
  rw [settled_settle]
  rcases h with ⟨hown, hnone⟩ | ⟨hnot, hone, hall⟩
  · rw [hf] at hown
    cases hown
    rw [if_pos hid, hnone]
    refine ⟨rfl, ?_⟩
    intro e' hmem hid'
    rcases List.mem_cons.mp hmem with heq | hmem
    · rw [heq]
    · exact absurd hid' (settled_zero hnone e' hmem)
  · have hother : e.command.commandId ≠ k := fun hk => hnot ⟨e.command, hf, hk⟩
    rw [if_neg hother, hone]
    refine ⟨rfl, ?_⟩
    intro e' hmem hid'
    rcases List.mem_cons.mp hmem with heq | hmem
    · rw [heq] at hid'
      exact absurd hid' hother
    · exact hall e' hmem hid'

/-- Only a command for the published state is taken; any may be discarded. -/
def Timely (s : Files) (e : Settlement) : Prop :=
  e.isConsumed = true → e.command.stateSequence = s.control.sequence

theorem CallSound.settle {s : Files} {k : Nat} {p : Progress} {e : Settlement}
    (h : CallSound s k p) (hf : s.file = some e.command) (htimely : Timely s e) :
    CallSound (settle s e) k p := by
  have hgone := settle_not_inFile s e k
  -- a call that is late keeps its command from being taken
  have hlate : ∀ {request command}, CommandOf s k request command → Once s k command →
      command.stateSequence < s.control.sequence → ¬ Consumed s k →
      ¬ Consumed (Distributed.settle s e) k := by
    intro request command hof honce hlt hnot hconsumed
    rcases consumed_settle hconsumed with hc | ⟨he, hid⟩
    · exact hnot hc
    · have hcurrent := htimely he
      rcases honce with ⟨hown, -⟩ | ⟨hout, -⟩
      · rw [hf] at hown
        cases hown
        omega
      · exact hout ⟨e.command, hf, hid⟩
  cases p with
  | idle => exact Unlinked.settle h hf
  | refusing => exact Unlinked.settle h hf
  | read request state => exact ⟨h.1.settle hf, h.2⟩
  | checked request command => exact ⟨h.1.settle hf, { h.2 with }⟩
  | linked request command =>
    exact ⟨{ h.1 with }, h.2.settle h.1.commandId hf⟩
  | moved request command phase =>
    exact ⟨{ h.1 with }, h.2.1.settle h.1.commandId hf, h.2.2⟩
  | present request command phase =>
    obtain ⟨hof, honce, hlt, hnot⟩ := h
    exact ⟨{ hof with }, honce.settle hof.commandId hf, hlt,
      hlate hof honce hlt hnot⟩
  | own request command phase =>
    obtain ⟨hof, honce, hlt, hnot⟩ := h
    exact ⟨{ hof with }, honce.settle hof.commandId hf, hlt,
      hlate hof honce hlt hnot⟩
  | accepted request command =>
    refine ⟨{ h.1 with }, h.2.1.settle h.1.commandId hf, ?_⟩
    intro hin
    exact absurd hin hgone
  | rejected command code =>
    refine ⟨hgone, ?_⟩
    intro hconsumed
    rcases consumed_settle hconsumed with hc | ⟨-, hid⟩
    · exact h.2 hc
    · exact h.1 ⟨e.command, hf, hid⟩

theorem Sound.settle {s : Files} (h : Sound s) {e : Settlement} (hf : s.file = some e.command)
    (htimely : Timely s e)
    (htaken : ∀ look sequence, e = .consumed e.command look sequence →
      s.control.sequence = sequence ∧ (e.command.action = .proceed →
        e.command.checkpoint = look.checkpoint ∧ look.awaiting = true))
    (r : Runner) (localCancel : Bool) (hr : RunnerSound (settle s e) r) :
    Sound { settle s e with runner := r, localCancel := localCancel } where
  calls := fun k => ((h.calls k).settle hf htimely).congr rfl rfl rfl
  runner := hr.congr rfl rfl
  taken := by
    intro command look sequence hmem
    rcases List.mem_cons.mp hmem with heq | hmem
    · rw [← heq] at htimely htaken
      obtain ⟨hsequence, haction⟩ := htaken look sequence rfl
      exact ⟨(htimely rfl).trans hsequence, haction⟩
    · exact h.taken command look sequence hmem
  raised := h.raised

/-! ## A command is linked, and withdrawn -/

theorem CallSound.link_other {s : Files} {j : Nat} {p : Progress} {command : Command}
    (h : CallSound s j p) (hfile : s.file = none) (hj : command.commandId ≠ j) :
    CallSound { s with file := some command } j p := by
  have hin : ∀ {t : Files}, t.file = none → ¬ InFile t j := by
    rintro t hnone ⟨c, hc, -⟩
    rw [hnone] at hc
    cases hc
  have hnot : ¬ InFile { s with file := some command } j := by
    rintro ⟨c, hc, hid⟩
    cases hc
    exact hj hid
  have hunlinked : Unlinked s j → Unlinked { s with file := some command } j :=
    fun h => ⟨hnot, h.2⟩
  have honce : ∀ {own}, Once s j own → Once { s with file := some command } j own := by
    rintro own (⟨hown, -⟩ | ⟨-, hrest⟩)
    · rw [hfile] at hown
      cases hown
    · exact .inr ⟨hnot, hrest⟩
  cases p with
  | idle => exact hunlinked h
  | refusing => exact hunlinked h
  | read request state => exact ⟨hunlinked h.1, h.2⟩
  | checked request own => exact ⟨hunlinked h.1, { h.2 with }⟩
  | linked request own => exact ⟨{ h.1 with }, honce h.2⟩
  | moved request own phase => exact ⟨{ h.1 with }, honce h.2.1, h.2.2⟩
  | present request own phase => exact ⟨{ h.1 with }, honce h.2.1, h.2.2⟩
  | own request own phase => exact ⟨{ h.1 with }, honce h.2.1, h.2.2⟩
  | accepted request own => exact ⟨{ h.1 with }, honce h.2.1, fun hc => absurd hc hnot⟩
  | rejected own code => exact ⟨hnot, h.2⟩

/-- With no command in the file the runner holds none. -/
theorem RunnerSound.of_empty {s t : Files} {r : Runner} (h : RunnerSound s r)
    (hfile : s.file = none) (hc : t.control = s.control) : RunnerSound t r := by
  cases r with
  | looking look =>
    obtain ⟨command, hf, -⟩ := h
    rw [hfile] at hf
    cases hf
  | matched look command =>
    have hf := h.1
    rw [hfile] at hf
    cases hf
  | awaiting checkpoint runId =>
    unfold RunnerSound
    rw [hc]
    exact h
  | idle => trivial
  | continued runId => trivial
  | cleaning runId => trivial

theorem Sound.link {s : Files} (h : Sound s) {k : Nat} {request : Request} {command : Command}
    (hk : s.calls k = .checked request command) (hfile : s.file = none) :
    Sound { Distributed.advance s k (.linked request command) with file := some command } := by
  have hcall := h.calls k
  rw [hk] at hcall
  obtain ⟨hunlinked, hof⟩ := hcall
  constructor
  · intro j
    show CallSound _ j (Function.update s.calls k (.linked request command) j)
    by_cases hj : j = k
    · subst hj
      rw [Function.update_self]
      exact ⟨{ hof with }, .inl ⟨rfl, hunlinked.2⟩⟩
    · rw [Function.update_of_ne hj]
      have hid : command.commandId ≠ j := by
        rw [hof.commandId]
        exact fun hc => hj hc.symm
      exact ((h.calls j).link_other hfile hid).congr rfl rfl rfl
  · exact h.runner.of_empty hfile rfl
  · exact h.taken
  · exact h.raised

theorem CallSound.withdraw_other {s : Files} {j k : Nat} {p : Progress} (h : CallSound s j p)
    (hfile : ∀ stored, s.file = some stored → stored.commandId = k) (hj : j ≠ k) :
    CallSound { s with file := none } j p := by
  have hbefore : ¬ InFile s j := by
    rintro ⟨c, hc, hid⟩
    exact hj (hid.symm.trans (hfile c hc))
  have hnot : ¬ InFile { s with file := none } j := by
    rintro ⟨c, hc, -⟩
    cases hc
  have hunlinked : Unlinked s j → Unlinked { s with file := none } j := fun h => ⟨hnot, h.2⟩
  have honce : ∀ {request own}, CommandOf s j request own → Once s j own →
      Once { s with file := none } j own := by
    rintro request own hof (⟨hown, -⟩ | ⟨-, hrest⟩)
    · exact absurd ⟨own, hown, hof.commandId⟩ hbefore
    · exact .inr ⟨hnot, hrest⟩
  cases p with
  | idle => exact hunlinked h
  | refusing => exact hunlinked h
  | read request state => exact ⟨hunlinked h.1, h.2⟩
  | checked request own => exact ⟨hunlinked h.1, { h.2 with }⟩
  | linked request own => exact ⟨{ h.1 with }, honce h.1 h.2⟩
  | moved request own phase => exact ⟨{ h.1 with }, honce h.1 h.2.1, h.2.2⟩
  | present request own phase => exact ⟨{ h.1 with }, honce h.1 h.2.1, h.2.2⟩
  | own request own phase => exact ⟨{ h.1 with }, honce h.1 h.2.1, h.2.2⟩
  | accepted request own => exact ⟨{ h.1 with }, honce h.1 h.2.1, fun hc => absurd hc hnot⟩
  | rejected own code => exact ⟨hnot, h.2⟩

theorem Sound.withdraw {s : Files} (h : Sound s) {k : Nat} {request : Request}
    {command : Command} {phase : Phase} (hk : s.calls k = .own request command phase)
    (hfile : ∀ stored, s.file = some stored → stored.commandId = k) (code : String) :
    Sound { Distributed.advance s k (.rejected (some command) code) with file := none } := by
  have hcall := h.calls k
  rw [hk] at hcall
  obtain ⟨hof, honce, hlt, hnot⟩ := hcall
  constructor
  · intro j
    show CallSound _ j (Function.update s.calls k (.rejected (some command) code) j)
    by_cases hj : j = k
    · subst hj
      rw [Function.update_self]
      refine ⟨?_, hnot⟩
      rintro ⟨c, hc, -⟩
      cases hc
    · rw [Function.update_of_ne hj]
      exact ((h.calls j).withdraw_other hfile hj).congr rfl rfl rfl
  · -- the runner holds only a command for the published state, and this one is late
    have hrunner := h.runner
    cases hfile' : s.file with
    | none => exact h.runner.of_empty hfile' rfl
    | some stored =>
      have hown : stored = command := by
        rcases honce with ⟨hf, -⟩ | ⟨hout, -⟩
        · rw [hfile'] at hf
          exact Option.some.inj hf
        · exact absurd ⟨stored, hfile', hfile stored hfile'⟩ hout
      show RunnerSound _ s.runner
      cases hr : s.runner with
      | looking look =>
        rw [hr] at hrunner
        obtain ⟨c, hf, hmatch, -⟩ := hrunner
        rw [hfile'] at hf
        cases hf
        have hcurrent := hmatch.2.2.1
        rw [hown] at hcurrent
        omega
      | matched look c =>
        rw [hr] at hrunner
        obtain ⟨hf, hmatch, -⟩ := hrunner
        rw [hfile'] at hf
        cases hf
        have hcurrent := hmatch.2.2.1
        rw [hown] at hcurrent
        omega
      | awaiting checkpoint runId =>
        rw [hr] at hrunner
        exact hrunner
      | idle => trivial
      | continued runId => trivial
      | cleaning runId => trivial
  · exact h.taken
  · exact h.raised

end SwitchTrade.Distributed

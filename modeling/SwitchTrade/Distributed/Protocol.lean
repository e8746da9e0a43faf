import SwitchTrade.Distributed.ControlRun

/-!
# The control file protocol

Every step of an undisturbed run keeps `Sound`, so in every state of such a run a rejected
command was not taken, an accepted one is in the file or was settled once, a continue was
taken only at the publication it was submitted for, and `_consume` has raised nothing
(`control_file_protocol`). A cancel accepted between the runner's last look and its next
publication ends the run in the mismatch instead (`accepted_cancel_overtaken`).
-/

namespace SwitchTrade.Distributed

open Transition

/-! ## The steps of the runner -/

theorem publish_sound {s : Files} (h : Sound s) {p : Publication}
    (hnone : Over p.phase → NothingAccepted s) (hr : s.runner = .idle) :
    Sound (publish s p) := by
  have hs := h.publish hnone .idle trivial
  have heq : ({ publish s p with runner := .idle } : Files) = publish s p := by
    unfold publish
    rw [← hr]
  rw [heq] at hs
  exact hs

theorem returnNothing_sound {s : Files} {look : Look}
    (h : look.awaiting = true → ∀ checkpoint, look.checkpoint = some checkpoint →
      RunnerSound s (.awaiting checkpoint look.runId)) : RunnerSound s (returnNothing look) := by
  unfold returnNothing
  split
  next checkpoint hawaiting hcheckpoint => exact h hawaiting checkpoint hcheckpoint
  next => trivial

/-- A look that may take what it will find, if it comes to read it and there is anything. -/
theorem beginConsume_sound {s : Files} (h : Sound s) {look : Look}
    (hreturn : look.awaiting = true → ∀ checkpoint, look.checkpoint = some checkpoint →
      RunnerSound s (.awaiting checkpoint look.runId))
    (hfound : s.localCancel = false → ∀ command, s.file = some command →
      RunnerSound s (.looking look)) :
    Sound (beginConsume s look) := by
  unfold beginConsume
  split
  · exact h.move .idle s.localCancel trivial
  next hcancel =>
    split
    · exact h.move (returnNothing look) s.localCancel (returnNothing_sound hreturn)
    next hfile =>
      cases hf : s.file with
      | none => exact absurd hf hfile
      | some command =>
        have hs := h.move (.looking look) s.localCancel
          (hfound (Bool.eq_false_iff.mpr hcancel) command hf)
        rw [hf] at hs
        exact hs

theorem poll_sound {s : Files} (h : Sound s)
    (hg : s.localCancel = false → NothingLate s ∧ NoContinue s) :
    Sound (beginConsume s (pollLook s)) := by
  apply beginConsume_sound h
  · intro hawaiting
    cases hawaiting
  intro hno command hf
  obtain ⟨hlate, hcancel⟩ := hg hno
  obtain ⟨-, -, hfits⟩ := h.holder hf
  obtain ⟨htest, hrun, -⟩ := hfits (hlate command hf)
  have haction := hcancel command hf
  refine ⟨command, hf, ⟨htest, hrun, hlate command hf, ?_⟩, ?_⟩
  · intro hproceed
    rw [haction] at hproceed
    cases hproceed
  · intro hproceed
    rw [haction] at hproceed
    cases hproceed

theorem await_sound {s : Files} (h : Sound s) {checkpoint : Checkpoint}
    {runId : Option Uuid} (hrun : runId ≠ none ∨ s.control.runId = none) :
    Sound { publish s ⟨.awaitingUser, runId, some checkpoint, true, none, none⟩ with
      runner := .awaiting checkpoint runId } := by
  apply h.publish (by simp [Over])
  refine ⟨rfl, rfl, ?_⟩
  show (runId.orElse fun _ => s.control.runId) = runId
  cases runId with
  | some id => rfl
  | none =>
    rcases hrun with hrun | hrun
    · exact absurd rfl hrun
    · exact hrun

theorem look_sound {s : Files} (h : Sound s) (hg : s.localCancel = false → NothingLate s)
    {checkpoint : Checkpoint} {runId : Option Uuid} (hr : s.runner = .awaiting checkpoint runId) :
    Sound (beginConsume s ⟨runId, some checkpoint, true⟩) := by
  have hawaiting := h.runner
  rw [hr] at hawaiting
  apply beginConsume_sound h
  · intro _ checkpoint' hcheckpoint
    cases hcheckpoint
    exact hawaiting
  intro hno command hf
  have hlate := hg hno
  obtain ⟨-, hpublished, hrunId⟩ := hawaiting
  obtain ⟨-, -, hfits⟩ := h.holder hf
  obtain ⟨htest, hrun, hproceed⟩ := hfits (hlate command hf)
  refine ⟨command, hf, ⟨htest, hrun.trans hrunId, hlate command hf, ?_⟩, fun _ => rfl⟩
  intro haction
  exact (hproceed haction).2.trans hpublished

theorem readCommand_sound {s : Files} (h : Sound s) {look : Look}
    (hr : s.runner = .looking look) : Sound (readCommand s look) := by
  have hlooking := h.runner
  rw [hr] at hlooking
  obtain ⟨command, hf, hmatch, haction⟩ := hlooking
  unfold readCommand
  rw [hf]
  show Sound (if matches_ s.control look command then _ else _)
  rw [if_pos hmatch]
  have hs := h.move (.matched look command) s.localCancel ⟨hf, hmatch, haction⟩
  rw [hf] at hs
  exact hs

theorem takeCommand_sound {s : Files} (h : Sound s) {look : Look} {command : Command}
    (hr : s.runner = .matched look command) : Sound (takeCommand s look command) := by
  have hmatched := h.runner
  rw [hr] at hmatched
  obtain ⟨hf, ⟨-, -, hsequence, hcheckpoint⟩, hawaiting⟩ := hmatched
  unfold takeCommand
  rw [if_neg (by rw [hf]; exact Option.some_ne_none command)]
  have hs := h.settle (e := .consumed command look s.control.sequence) hf
    (fun _ => hsequence) ?_
    (if look.awaiting = true ∧ command.action = .proceed then .continued look.runId else .idle)
    (s.localCancel || decide (command.action = .cancel)) ?_
  · exact hs
  · intro look' sequence heq
    cases heq
    exact ⟨rfl, fun haction => ⟨hcheckpoint haction, hawaiting haction⟩⟩
  · split <;> trivial

theorem clearCommand_sound {s : Files} (h : Sound s) (runId : Option Uuid) :
    Sound (clearCommand s runId) := by
  cases hf : s.file with
  | none =>
    have hs := h.move (.cleaning runId) false trivial
    unfold clearCommand
    rw [hf]
    rw [hf] at hs
    exact hs
  | some command =>
    have hs := h.settle (e := .discarded command) hf (fun hc => by cases hc)
      (fun _ _ heq => by cases heq) (.cleaning runId) false trivial
    unfold clearCommand
    rw [hf]
    exact hs

/-- A step of the runner, one case per step. -/
theorem runnerStep_sound {s t : Files} {a : RunnerStep} (h : Sound s)
    (hg : Undisturbed s (.runner a)) (hn : runnerStep s a = some t) : Sound t := by
  cases a with
  | publish p =>
    simp only [runnerStep] at hn
    split at hn
    next hr =>
      cases hn
      exact publish_sound h hg hr
    next => cases hn
  | poll =>
    simp only [runnerStep] at hn
    split at hn
    next =>
      cases hn
      exact poll_sound h hg
    next => cases hn
  | await checkpoint runId =>
    simp only [runnerStep] at hn
    split at hn
    next =>
      cases hn
      exact await_sound h hg
    next => cases hn
  | look =>
    cases hr : s.runner with
    | awaiting checkpoint runId =>
      simp only [runnerStep, hr] at hn
      cases hn
      exact look_sound h hg hr
    | _ => simp [runnerStep, hr] at hn
  | leave =>
    cases hr : s.runner with
    | awaiting checkpoint runId =>
      simp only [runnerStep, hr] at hn
      cases hn
      exact h.move .idle s.localCancel trivial
    | _ => simp [runnerStep, hr] at hn
  | read =>
    cases hr : s.runner with
    | looking look =>
      simp only [runnerStep, hr] at hn
      cases hn
      exact readCommand_sound h hr
    | _ => simp [runnerStep, hr] at hn
  | take =>
    cases hr : s.runner with
    | matched look command =>
      simp only [runnerStep, hr] at hn
      cases hn
      exact takeCommand_sound h hr
    | _ => simp [runnerStep, hr] at hn
  | publishRunning =>
    cases hr : s.runner with
    | continued runId =>
      simp only [runnerStep, hr] at hn
      cases hn
      exact h.publish (by simp [Over, plain]) .idle trivial
    | _ => simp [runnerStep, hr] at hn
  | beginCleanup runId =>
    simp only [runnerStep] at hn
    split at hn
    next =>
      cases hn
      exact clearCommand_sound h runId
    next => cases hn
  | publishCleaning =>
    cases hr : s.runner with
    | cleaning runId =>
      simp only [runnerStep, hr] at hn
      cases hn
      exact h.publish (fun _ => hg) .idle trivial
    | _ => simp [runnerStep, hr] at hn
  | requestLocalCancel =>
    simp only [runnerStep] at hn
    split at hn
    next =>
      cases hn
      exact h
    next =>
      cases hn
      exact h.move s.runner true h.runner

/-! ## The steps of a call -/

theorem checkRequest_sound {s : Files} {k : Nat} {request : Request} {state : ControlState}
    (h : CallSound s k (.read request state)) (pending : Bool) :
    CallSound s k (checkRequest k state request pending) := by
  obtain ⟨hunlinked, hle, hcurrent⟩ := h
  unfold checkRequest
  split
  · split
    · exact hunlinked
    split
    · exact ⟨hunlinked.1, hunlinked.not_consumed⟩
    next hallowed =>
      refine ⟨hunlinked, rfl, rfl, hle, ?_⟩
      intro hsequence
      rw [← hcurrent hsequence]
      refine ⟨rfl, rfl, ?_⟩
      intro hproceed
      have hproceed' : request.action = .proceed := hproceed
      unfold actionRefused at hallowed
      split at hallowed
      next => cases hallowed
      next hfits =>
        constructor
        · by_contra hphase
          exact hfits ⟨hproceed', .inl hphase⟩
        · by_contra hcheckpoint
          exact hfits ⟨hproceed', .inr (.inr hcheckpoint)⟩
  · exact ⟨hunlinked.1, hunlinked.not_consumed⟩

theorem readStored_sound {s : Files} (h : Sound s) {k : Nat} {request : Request}
    {command : Command} {phase : Phase} (hk : s.calls k = .present request command phase)
    (hout : ∀ stored, s.file = some stored → stored.commandId ≠ command.commandId) (code : String) :
    Sound (advance s k (.rejected (some command) code)) := by
  have hcall := h.calls k
  rw [hk] at hcall
  obtain ⟨hof, -, -, hnot⟩ := hcall
  apply h.advance
  refine ⟨?_, hnot⟩
  rintro ⟨stored, hf, hid⟩
  exact hout stored hf (hid.trans hof.commandId.symm)

/-- A step of a control call, one case per step. -/
theorem callStep_sound {s t : Files} {k : Nat} {a : CallStep} (h : Sound s)
    (hg : Undisturbed s (.call k a)) (hn : callStep s k a = some t) : Sound t := by
  have hcall := h.calls k
  cases a with
  | begin request =>
    cases hk : s.calls k with
    | idle =>
      simp only [callStep, hk] at hn
      cases hn
      rw [hk] at hcall
      exact h.advance ⟨hcall, Nat.le_refl _, fun _ => rfl⟩
    | _ => simp [callStep, hk] at hn
  | check =>
    cases hk : s.calls k with
    | read request state =>
      simp only [callStep, hk] at hn
      cases hn
      rw [hk] at hcall
      exact h.advance (checkRequest_sound hcall _)
    | _ => simp [callStep, hk] at hn
  | refuse =>
    cases hk : s.calls k with
    | refusing =>
      simp only [callStep, hk] at hn
      cases hn
      rw [hk] at hcall
      have hunlinked : Unlinked s k := hcall
      exact h.advance ⟨hunlinked.1, hunlinked.not_consumed⟩
    | _ => simp [callStep, hk] at hn
  | link fails =>
    cases hk : s.calls k with
    | checked request command =>
      rw [hk] at hcall
      have hrejected : ∀ code, Sound (advance s k (.rejected none code)) :=
        fun code => h.advance ⟨hcall.1.1, hcall.1.not_consumed⟩
      simp only [callStep, hk] at hn
      split at hn
      · cases hn
        exact hrejected _
      split at hn
      · cases hn
        exact hrejected _
      next hfile =>
        cases hn
        exact h.link hk (Classical.not_not.mp hfile)
    | _ => simp [callStep, hk] at hn
  | reread =>
    cases hk : s.calls k with
    | linked request command =>
      rw [hk] at hcall
      simp only [callStep, hk] at hn
      split at hn
      next hsequence =>
        cases hn
        exact h.advance ⟨hcall.1, hcall.2, fun _ => .inl hsequence.symm⟩
      next hsequence =>
        cases hn
        have hle := hcall.1.le
        exact h.advance ⟨hcall.1, hcall.2, by omega⟩
    | _ => simp [callStep, hk] at hn
  | recheck =>
    cases hk : s.calls k with
    | moved request command phase =>
      rw [hk] at hcall
      obtain ⟨hof, honce, hlt⟩ := hcall
      simp only [callStep, hk] at hn
      split at hn
      next hfile =>
        cases hn
        refine h.advance ⟨hof, honce, ?_⟩
        rintro ⟨stored, hf, -⟩
        rw [hfile] at hf
        cases hf
      next hfile =>
        cases hn
        exact h.advance ⟨hof, honce, hlt, hg hfile⟩
    | _ => simp [callStep, hk] at hn
  | readStored =>
    cases hk : s.calls k with
    | present request command phase =>
      rw [hk] at hcall
      simp only [callStep, hk] at hn
      split at hn
      next hfile =>
        cases hn
        apply readStored_sound h hk
        intro stored hf
        rw [hfile] at hf
        cases hf
      next stored hfile =>
        split at hn
        next =>
          cases hn
          exact h.advance hcall
        next hother =>
          cases hn
          apply readStored_sound h hk
          intro stored' hf
          rw [hfile] at hf
          cases hf
          exact hother
    | _ => simp [callStep, hk] at hn
  | withdraw =>
    cases hk : s.calls k with
    | own request command phase =>
      simp only [callStep, hk] at hn
      cases hn
      exact h.withdraw hk hg _
    | _ => simp [callStep, hk] at hn

/-! ## The protocol -/

theorem init_sound {s : Files} (h : Init s) : Sound s := by
  obtain ⟨testId, rfl⟩ := h
  constructor
  · intro k
    refine ⟨?_, rfl⟩
    rintro ⟨command, hf, -⟩
    cases hf
  · trivial
  · intro command look sequence hmem
    cases hmem
  · rfl

theorem sound_of_reachable {s : Files} (h : protocol.Reachable Undisturbed s) : Sound s := by
  refine h.invariant (fun _ => init_sound) ?_
  intro s label t hs hg hn
  cases label with
  | runner a => exact runnerStep_sound hs hg hn
  | call k a => exact callStep_sound hs hg hn

/-- In every state of an undisturbed run: `_consume` has raised nothing; the command of a
rejected call is not in the file and was not taken; the command of an accepted call is the
requested one, and either it is in the file, for the published state or with the cleanup still to
come, or it was taken or discarded once; and a continue was taken at the publication it was
submitted for. -/
theorem control_file_protocol {s : Files} (h : protocol.Reachable Undisturbed s) :
    s.raised = [] ∧
    (∀ k command code, s.calls k = .rejected command code → ¬ InFile s k ∧ ¬ Consumed s k) ∧
    (∀ k request command, s.calls k = .accepted request command →
      command.commandId = k ∧ command.action = request.action ∧
        ((s.file = some command ∧ settled s k = 0 ∧
            (command.stateSequence = s.control.sequence ∨ ¬ Over s.control.phase)) ∨
          (¬ InFile s k ∧ settled s k = 1 ∧
            ∀ e ∈ s.log, e.command.commandId = k → e.command = command))) ∧
    ∀ command look sequence, Settlement.consumed command look sequence ∈ s.log →
      command.action = .proceed → command.stateSequence = sequence ∧
        command.checkpoint = look.checkpoint ∧ look.awaiting = true := by
  have hs := sound_of_reachable h
  refine ⟨hs.raised, ?_, ?_, ?_⟩
  · intro k command code hk
    have hcall := hs.calls k
    rw [hk] at hcall
    exact hcall
  · intro k request command hk
    have hcall := hs.calls k
    rw [hk] at hcall
    obtain ⟨hof, honce, hcurrent⟩ := hcall
    refine ⟨hof.commandId, hof.action, ?_⟩
    rcases honce with ⟨hf, hzero⟩ | hgone
    · exact .inl ⟨hf, hzero, hcurrent ⟨command, hf, hof.commandId⟩⟩
    · exact .inr hgone
  · intro command look sequence hmem haction
    obtain ⟨hsequence, hproceed⟩ := hs.taken command look sequence hmem
    exact ⟨hsequence, hproceed haction⟩

/-! ## Two runs -/

def created : Files where
  control := ⟨7, none, .created, none, false, false, none, none, 1⟩
  localCancel := false
  runner := .idle
  file := none
  calls := fun _ => .idle
  log := []
  raised := []

def request (action : Action) (checkpoint : Option Checkpoint) : Request :=
  ⟨action, some 7, some none, checkpoint⟩

/-- `confirm_pairing`, continued by the operator. -/
def pairingContinued : List Label :=
  [.runner (.publish (plain .pairing none)), .runner .poll,
    .runner (.await .pairingConfirmed none), .runner .look,
    .call 0 (.begin (request .proceed (some .pairingConfirmed))), .call 0 .check,
    .call 0 (.link false), .runner .look, .call 0 .reread, .runner .read, .runner .take,
    .runner .publishRunning]

theorem control_file_protocol_continued :
    ∃ s command, protocol.Reachable Undisturbed s ∧ s.control.phase = .running ∧
      s.calls 0 = .accepted (request .proceed (some .pairingConfirmed)) command ∧
      command.action = .proceed ∧ settled s 0 = 1 := by
  obtain ⟨s, hs, hphase, hcall, hfile⟩ : ∃ s, System.play step Undisturbed created
      pairingContinued = some s ∧ s.control.phase = .running ∧
      s.calls 0 = .accepted (request .proceed (some .pairingConfirmed))
        ⟨0, .proceed, 7, none, some .pairingConfirmed, 3⟩ ∧ s.file = none :=
    ⟨_, rfl, rfl, rfl, rfl⟩
  have hreach : protocol.Reachable Undisturbed s := ⟨created, ⟨7, rfl⟩, System.run_of_play hs⟩
  obtain ⟨-, -, haccepted, -⟩ := control_file_protocol hreach
  obtain ⟨-, haction, hplace⟩ := haccepted 0 _ _ hcall
  rcases hplace with ⟨hin, -⟩ | ⟨-, hone, -⟩
  · rw [hfile] at hin
    cases hin
  · exact ⟨s, _, hreach, hphase, hcall, haction, hone⟩

/-- The cancel is accepted after the runner has polled for it and before it publishes. -/
def cancelOvertaken : List Label :=
  [.runner (.publish (plain .pairing none)), .runner .poll,
    .call 0 (.begin (request .cancel none)), .call 0 .check, .call 0 (.link false),
    .call 0 .reread, .runner (.await .pairingConfirmed none), .runner .look, .runner .read]

theorem accepted_cancel_overtaken :
    ∃ s command, protocol.Reachable System.Free s ∧
      s.calls 0 = .accepted (request .cancel none) command ∧
      s.raised = ["DISTRIBUTED_CONTROL_IDENTITY_MISMATCH"] ∧ settled s 0 = 0 := by
  obtain ⟨s, hs, hcall, hraised, hsettled⟩ : ∃ s, System.play step System.Free created
      cancelOvertaken = some s ∧
      s.calls 0 = .accepted (request .cancel none) ⟨0, .cancel, 7, none, none, 2⟩ ∧
      s.raised = ["DISTRIBUTED_CONTROL_IDENTITY_MISMATCH"] ∧ settled s 0 = 0 :=
    ⟨_, rfl, rfl, rfl, rfl⟩
  exact ⟨s, _, ⟨created, ⟨7, rfl⟩, System.run_of_play hs⟩, hcall, hraised, hsettled⟩

end SwitchTrade.Distributed

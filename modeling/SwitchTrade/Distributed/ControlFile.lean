import SwitchTrade.Transition.Run
import Mathlib.Logic.Function.Basic

/-!
# The control files of a qualification run

The runner publishes its state in one file and looks for a command in another. Any number
of `submit` calls read the state, link a command file if there is none, and look at the
state again. Each step below is one access to a file; between two of them anything may
happen. A call of `submit` is named by a number, which also stands for the identifier
`uuid4` draws for its command.
-/

namespace SwitchTrade.Distributed

open Transition

abbrev Uuid := BitVec 128

inductive Phase where
  | created
  | pairing
  | preflight
  | running
  | awaitingUser
  | cleaning
  | terminal
deriving DecidableEq, Repr

inductive Checkpoint where
  | pairingConfirmed
  | createSwitchRoom
  | joinSwitchGroup
  | dActionConfirmed
  | roomFinalizationConfirmed
  | recoveryFinalizationConfirmed
deriving DecidableEq, Repr

inductive Terminal where
  | passed
  | failed
  | canceled
deriving DecidableEq, Repr

inductive Action where
  | proceed
  | cancel
deriving DecidableEq, Repr

/-- The published state; the fields that never change (source, release, role) are left out. -/
structure ControlState where
  testId : Uuid
  runId : Option Uuid
  phase : Phase
  checkpoint : Option Checkpoint
  canContinue : Bool
  cancelRequested : Bool
  terminalStatus : Option Terminal
  cleanupVerified : Option Bool
  sequence : Nat
deriving DecidableEq, Repr

structure Command where
  commandId : Nat
  action : Action
  testId : Uuid
  runId : Option Uuid
  checkpoint : Option Checkpoint
  stateSequence : Nat
deriving DecidableEq, Repr

/-! ## `submit` -/

/-- The arguments of `submit`; an identifier is `none` if its text is not a UUID. -/
structure Request where
  action : Action
  testId : Option Uuid
  runId : Option (Option Uuid)
  checkpoint : Option Checkpoint
deriving DecidableEq, Repr

/-- How far a call of `submit` has come. -/
inductive Progress where
  | idle
  | read (request : Request) (state : ControlState)
  /-- The call is refused; whether a command is there decides what it says. -/
  | refusing
  | checked (request : Request) (command : Command)
  | linked (request : Request) (command : Command)
  /-- The state was read again and has another sequence. -/
  | moved (request : Request) (command : Command) (phase : Phase)
  /-- ... and a command file was there. -/
  | present (request : Request) (command : Command) (phase : Phase)
  /-- ... and it held this call's command. -/
  | own (request : Request) (command : Command) (phase : Phase)
  | accepted (request : Request) (command : Command)
  | rejected (command : Option Command) (code : String)
deriving DecidableEq, Repr

def Progress.isAccepted : Progress → Bool
  | .accepted _ _ => true
  | _ => false

def finalization (checkpoint : Option Checkpoint) : Bool :=
  checkpoint = some .roomFinalizationConfirmed || checkpoint = some .recoveryFinalizationConfirmed

/-- The checks of `submit` on the action, in its order. -/
def actionRefused (state : ControlState) (request : Request) : Option String :=
  if request.action = .proceed ∧
      (state.phase ≠ .awaitingUser ∨ state.canContinue = false ∨
        request.checkpoint ≠ state.checkpoint) then
    some "DISTRIBUTED_CONTROL_CHECKPOINT_MISMATCH"
  else if request.action = .cancel ∧ request.checkpoint ≠ none then
    some "DISTRIBUTED_CONTROL_CHECKPOINT_MISMATCH"
  else if request.action = .cancel ∧ (state.phase = .cleaning ∨ finalization state.checkpoint) then
    some "DISTRIBUTED_CLEANUP_IN_PROGRESS"
  else none

/-- The command `submit` builds. -/
def buildCommand (k : Nat) (state : ControlState) (request : Request) : Command where
  commandId := k
  action := request.action
  testId := state.testId
  runId := state.runId
  checkpoint := request.checkpoint
  stateSequence := state.sequence

/-- The checks of `submit` before it links; `pending` says whether a command file is there. -/
def checkRequest (k : Nat) (state : ControlState) (request : Request) (pending : Bool) :
    Progress :=
  match request.testId, request.runId with
  | some testId, some runId =>
    if state.phase = .terminal ∨ state.testId ≠ testId ∨ state.runId ≠ runId ∨
        pending = true then .refusing
    else
      match actionRefused state request with
      | some code => .rejected none code
      | none => .checked request (buildCommand k state request)
  | _, _ => .rejected none "DISTRIBUTED_CONTROL_IDENTITY_MISMATCH"

/-- What `submit` says of a command that came too late. -/
def lateCode (phase : Phase) : String :=
  if phase = .cleaning then "DISTRIBUTED_CLEANUP_IN_PROGRESS"
  else "DISTRIBUTED_CONTROL_CHECKPOINT_MISMATCH"

/-! ## The runner -/

/-- The arguments of one `_consume`. -/
structure Look where
  runId : Option Uuid
  checkpoint : Option Checkpoint
  /-- It is made by `await_continue`, and not by a poll for a cancel. -/
  awaiting : Bool
deriving DecidableEq, Repr

/-- Where the runner is. -/
inductive Runner where
  | idle
  /-- In the loop of `await_continue`. -/
  | awaiting (checkpoint : Checkpoint) (runId : Option Uuid)
  /-- In `_consume`: a command file was there. -/
  | looking (look : Look)
  /-- In `_consume`: the command read is the one it may take. -/
  | matched (look : Look) (command : Command)
  /-- In `await_continue`: a continue was taken. -/
  | continued (runId : Option Uuid)
  /-- In `begin_cleanup`: the command file is removed. -/
  | cleaning (runId : Option Uuid)
deriving DecidableEq, Repr

/-- What became of a command. -/
inductive Settlement where
  | consumed (command : Command) (look : Look) (sequence : Nat)
  | discarded (command : Command)
deriving DecidableEq, Repr

def Settlement.command : Settlement → Command
  | .consumed command _ _ => command
  | .discarded command => command

def Settlement.isConsumed : Settlement → Bool
  | .consumed _ _ _ => true
  | .discarded _ => false

@[simp] theorem Settlement.command_consumed (command : Command) (look : Look) (sequence : Nat) :
    (Settlement.consumed command look sequence).command = command := rfl

@[simp] theorem Settlement.command_discarded (command : Command) :
    (Settlement.discarded command).command = command := rfl

structure Files where
  control : ControlState
  localCancel : Bool
  runner : Runner
  file : Option Command
  calls : Nat → Progress
  /-- What became of the commands, newest first. -/
  log : List Settlement
  /-- What `_consume` raised, newest first. -/
  raised : List String

/-- The arguments of `publish`. -/
structure Publication where
  phase : Phase
  runId : Option Uuid
  checkpoint : Option Checkpoint
  canContinue : Bool
  terminalStatus : Option Terminal
  cleanupVerified : Option Bool
deriving DecidableEq, Repr

def plain (phase : Phase) (runId : Option Uuid) : Publication :=
  ⟨phase, runId, none, false, none, none⟩

/-- `publish`. -/
def publish (s : Files) (p : Publication) : Files :=
  { s with
    control := {
      testId := s.control.testId
      runId := p.runId.orElse fun _ => s.control.runId
      phase := p.phase
      checkpoint := p.checkpoint
      canContinue := p.canContinue
      cancelRequested := s.localCancel
      terminalStatus := p.terminalStatus
      cleanupVerified := p.cleanupVerified
      sequence := s.control.sequence + 1 } }

/-- What `_consume` requires of a command. -/
def matches_ (control : ControlState) (look : Look) (command : Command) : Prop :=
  command.testId = control.testId ∧ command.runId = look.runId ∧
    command.stateSequence = control.sequence ∧
    (command.action = .proceed → command.checkpoint = look.checkpoint)

instance (control : ControlState) (look : Look) (command : Command) :
    Decidable (matches_ control look command) := by
  unfold matches_
  infer_instance

/-- `_consume` has nothing to take. -/
def returnNothing (look : Look) : Runner :=
  match look.awaiting, look.checkpoint with
  | true, some checkpoint => .awaiting checkpoint look.runId
  | _, _ => .idle

/-- The first step of `_consume`: a local cancel ends it, and so does an empty place. -/
def beginConsume (s : Files) (look : Look) : Files :=
  if s.localCancel then { s with runner := .idle }
  else if s.file = none then { s with runner := returnNothing look }
  else { s with runner := .looking look }

/-- The command is read. -/
def readCommand (s : Files) (look : Look) : Files :=
  match s.file with
  | none =>
    { s with
      runner := .idle
      raised := "DISTRIBUTED_CONTROL_COMMAND_INVALID" :: s.raised }
  | some command =>
    if matches_ s.control look command then { s with runner := .matched look command }
    else
      { s with
        runner := .idle
        raised := "DISTRIBUTED_CONTROL_IDENTITY_MISMATCH" :: s.raised }

/-- The file is removed, whatever it holds by now, and the command takes effect. -/
def takeCommand (s : Files) (look : Look) (command : Command) : Files :=
  if s.file = none then { s with runner := .idle, raised := "FileNotFoundError" :: s.raised }
  else
    { s with
      file := none
      log := .consumed command look s.control.sequence :: s.log
      localCancel := s.localCancel || decide (command.action = .cancel)
      runner :=
        if look.awaiting = true ∧ command.action = .proceed then .continued look.runId
        else .idle }

/-- `begin_cleanup` up to its publication. -/
def clearCommand (s : Files) (runId : Option Uuid) : Files :=
  { s with
    localCancel := false
    file := none
    log := (s.file.toList.map .discarded) ++ s.log
    runner := .cleaning runId }

/-! ## The steps -/

inductive RunnerStep where
  | publish (publication : Publication)
  | poll
  | await (checkpoint : Checkpoint) (runId : Option Uuid)
  | look
  /-- `await_continue` is left: its time is up, or its heartbeat raised. -/
  | leave
  | read
  | take
  | publishRunning
  | beginCleanup (runId : Option Uuid)
  | publishCleaning
  | requestLocalCancel
deriving DecidableEq, Repr

inductive CallStep where
  | begin (request : Request)
  | check
  | refuse
  /-- `os.link`; `fails` if it raises anything but `FileExistsError`. -/
  | link (fails : Bool)
  | reread
  | recheck
  | readStored
  | withdraw
deriving DecidableEq, Repr

inductive Label where
  | runner (step : RunnerStep)
  | call (k : Nat) (step : CallStep)
deriving DecidableEq, Repr

def pollLook (s : Files) : Look := ⟨s.control.runId, none, false⟩

def runnerStep (s : Files) : RunnerStep → Option Files
  | .publish p => if s.runner = .idle then some (publish s p) else none
  | .poll => if s.runner = .idle then some (beginConsume s (pollLook s)) else none
  | .await checkpoint runId =>
    if s.runner = .idle then
      some { publish s ⟨.awaitingUser, runId, some checkpoint, true, none, none⟩ with
        runner := .awaiting checkpoint runId }
    else none
  | .look =>
    match s.runner with
    | .awaiting checkpoint runId => some (beginConsume s ⟨runId, some checkpoint, true⟩)
    | _ => none
  | .leave =>
    match s.runner with
    | .awaiting _ _ => some { s with runner := .idle }
    | _ => none
  | .read =>
    match s.runner with
    | .looking look => some (readCommand s look)
    | _ => none
  | .take =>
    match s.runner with
    | .matched look command => some (takeCommand s look command)
    | _ => none
  | .publishRunning =>
    match s.runner with
    | .continued runId => some { publish s (plain .running runId) with runner := .idle }
    | _ => none
  | .beginCleanup runId => if s.runner = .idle then some (clearCommand s runId) else none
  | .publishCleaning =>
    match s.runner with
    | .cleaning runId => some { publish s (plain .cleaning runId) with runner := .idle }
    | _ => none
  | .requestLocalCancel =>
    if s.control.phase = .cleaning ∨ finalization s.control.checkpoint then some s
    else some { s with localCancel := true }

/-- The call `k` comes that far. -/
def advance (s : Files) (k : Nat) (progress : Progress) : Files :=
  { s with calls := Function.update s.calls k progress }

def callStep (s : Files) (k : Nat) : CallStep → Option Files
  | .begin request =>
    match s.calls k with
    | .idle => some (advance s k (.read request s.control))
    | _ => none
  | .check =>
    match s.calls k with
    | .read request state => some (advance s k (checkRequest k state request s.file.isSome))
    | _ => none
  | .refuse =>
    match s.calls k with
    | .refusing =>
      some (advance s k (.rejected none
        (if s.file = none then "DISTRIBUTED_CONTROL_IDENTITY_MISMATCH"
          else "DISTRIBUTED_CONTROL_COMMAND_PENDING")))
    | _ => none
  | .link fails =>
    match s.calls k with
    | .checked request command =>
      if fails then
        some (advance s k (.rejected none "DISTRIBUTED_CONTROL_WRITE_FAILED"))
      else if s.file ≠ none then
        some (advance s k (.rejected none "DISTRIBUTED_CONTROL_COMMAND_PENDING"))
      else
        some { advance s k (.linked request command) with file := some command }
    | _ => none
  | .reread =>
    match s.calls k with
    | .linked request command =>
      if s.control.sequence = command.stateSequence then
        some (advance s k (.accepted request command))
      else some (advance s k (.moved request command s.control.phase))
    | _ => none
  | .recheck =>
    match s.calls k with
    | .moved request command phase =>
      if s.file = none then some (advance s k (.accepted request command))
      else some (advance s k (.present request command phase))
    | _ => none
  | .readStored =>
    match s.calls k with
    | .present request command phase =>
      match s.file with
      | none => some (advance s k (.rejected (some command) "DISTRIBUTED_CONTROL_COMMAND_INVALID"))
      | some stored =>
        if stored.commandId = command.commandId then
          some (advance s k (.own request command phase))
        else some (advance s k (.rejected (some command) (lateCode phase)))
    | _ => none
  | .withdraw =>
    match s.calls k with
    | .own _ command phase =>
      some { advance s k (.rejected (some command) (lateCode phase)) with file := none }
    | _ => none

def step (s : Files) : Label → Option Files
  | .runner a => runnerStep s a
  | .call k a => callStep s k a

/-- A new runner has published `created`. -/
def Init (s : Files) : Prop :=
  ∃ testId, s = {
    control := ⟨testId, none, .created, none, false, false, none, none, 1⟩
    localCancel := false
    runner := .idle
    file := none
    calls := fun _ => .idle
    log := []
    raised := [] }

def protocol : System Files Label := System.ofStep Init step

end SwitchTrade.Distributed

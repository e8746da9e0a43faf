import Mathlib.Logic.Function.Basic
import SwitchTrade.Service.Record
import SwitchTrade.Transition.InPlace

/-!
# The commands of the connection service

One thread takes the commands of the user interface, the events of the workers and the
firings of the watchdogs from one queue and runs their handlers one after the other. A
handler works on the record in memory in place and writes the state file with `_persist`,
up to three times; `written` collects what it wrote, newest first, so that a crash between
two writes can be told.
-/

namespace SwitchTrade.Service

open InPlace

/-! ## The command channel of a run -/

/-- `RunControl`, as far as the commands read it. -/
structure RunControl where
  checkpoint : Option String
  continued : List String
  termination : Option String
  role : Option String
  cleanup : Bool
  deriving DecidableEq, Repr

namespace RunControl

def new : RunControl := ⟨none, [], none, none, false⟩

def chooseRole (c : RunControl) (role : String) : Except ConnectionRunServiceError RunControl :=
  if role ∉ ["a_room_joiner", "b_ap_host"] then
    .error ⟨"ROLE_INVALID", "Switch role is invalid"⟩
  else if c.role ≠ none ∧ c.role ≠ some role then
    .error ⟨"ROLE_LOCKED", "Switch role is already selected"⟩
  else .ok { c with role := some role }

/-- `await_user` up to its wait. -/
def awaitUser (c : RunControl) (checkpoint : String) : RunControl :=
  { c with checkpoint := some checkpoint }

/-- `await_user` once the checkpoint was continued. -/
def resume (c : RunControl) (checkpoint : String) : RunControl :=
  { c with checkpoint := none, continued := c.continued.filter (· ≠ checkpoint) }

def continueCheckpoint (c : RunControl) (checkpoint : String) :
    Except ConnectionRunServiceError RunControl :=
  if c.checkpoint ≠ some checkpoint then
    .error ⟨"CHECKPOINT_STALE", "the user checkpoint is no longer active"⟩
  else .ok { c with continued := c.continued.insert checkpoint }

def requestTermination (c : RunControl) (action : String) :
    Except ConnectionRunServiceError RunControl :=
  if action ∉ ["stop", "end", "leave", "close"] then
    .error ⟨"COMMAND_INVALID", "unsupported connection action"⟩
  else if c.cleanup = true then
    .error ⟨"CLEANUP_IN_PROGRESS", "connection cleanup is already in progress"⟩
  else if c.termination ≠ none ∧ c.termination ≠ some action then
    .error ⟨"COMMAND_CONFLICT", "a different terminal action is already pending"⟩
  else .ok { c with termination := some action }

def beginCleanup (c : RunControl) : RunControl := { c with cleanup := true, checkpoint := none }

end RunControl

/-! ## The service a handler works on -/

/-- `_record` and `_controls`. -/
structure ConnectionRunService where
  record : Option Record
  controls : String → Option RunControl

/-- The service while a handler runs, with what the handler has written to the state file. -/
structure Working extends ConnectionRunService where
  written : List Record

abbrev Handler := EStateM ConnectionRunServiceError Working

/-- What a handler takes from outside: `uuid.uuid4`, the two readings of `_utc`, and what
`release_authority` of the runner does, if the runner has one. -/
structure Outside where
  runId : String
  createdUtc : String
  updatedUtc : String
  release : Option (Except ConnectionRunServiceError Unit)

/-- The fields of a command that its fingerprint covers. -/
inductive Payload where
  | start (request : Option Request) (expectedRevision : Int)
  | command (runId action : String) (checkpoint switchRole : Option String)
      (expectedRevision : Int)
  | retry (runId : String) (expectedRevision : Int)
  | shutdown (runId : Option String) (expectedRevision : Int)
  deriving DecidableEq, Repr

/-- The library functions the service calls: `str(uuid.UUID(text))`, where it does not
raise, `_fingerprint`, and the `uuid.uuid5` under which a retry starts its run. -/
structure Stdlib where
  uuid : String → Option String
  fingerprint : Payload → String
  retryRun : String → String

variable (py : Stdlib)

/-- `_uuid`. -/
def uuidOf (value name : String) : Except ConnectionRunServiceError String :=
  match py.uuid value with
  | some text => .ok text
  | none => .error ⟨"COMMAND_ID_INVALID", name ++ " must be a UUID"⟩

def runNotFound : ConnectionRunServiceError := ⟨"RUN_NOT_FOUND", "connection run was not found"⟩

def revisionStale : ConnectionRunServiceError := ⟨"REVISION_STALE", "the UI revision is stale"⟩

def runNotActive : ConnectionRunServiceError :=
  ⟨"RUN_NOT_ACTIVE", "connection run is not active"⟩

def commandIdConflict : ConnectionRunServiceError :=
  ⟨"COMMAND_ID_CONFLICT", "command ID was reused with different content"⟩

/-- `_idempotent`: the result of a command that is still in the history. -/
def recalled (record : Option Record) (commandId : String) (payload : Payload) :
    Except ConnectionRunServiceError (Option Projection) :=
  match uuidOf py commandId "command_id" with
  | .error e => .error e
  | .ok id =>
    match record.bind fun r => r.commands.get? id with
    | none => .ok none
    | some existing =>
      if existing.fingerprint = py.fingerprint payload then .ok (some existing.result)
      else .error commandIdConflict

def idempotent (commandId : String) (payload : Payload) : Handler (Option Projection) := do
  let s ← get
  check (recalled py s.record commandId payload)

/-- `_persist`: the record replaces the state file. -/
def Working.persist (s : Working) : Working :=
  match s.record with
  | some r => { s with written := r :: s.written }
  | none => s

/-- The number of commands the history keeps. -/
def retained : Nat := 128

/-- `_remember` on the record: the newest entry last, the oldest dropped. -/
def Record.remember (r : Record) (id fingerprint : String) (result : Projection) : Record :=
  { r with commands := (r.commands.set id ⟨fingerprint, result⟩).keep retained }

theorem remember_commands (r : Record) (id fingerprint : String) (result : Projection) :
    (r.remember id fingerprint result).commands =
      (r.commands.set id ⟨fingerprint, result⟩).keep retained := by
  unfold Record.remember
  rfl

/-- The history is no part of the projection. -/
@[simp] theorem project_remember (r : Record) (id fingerprint : String) (result : Projection) :
    project (r.remember id fingerprint result) = project r := by
  unfold project Record.allowedActions Record.remember
  rfl

/-- `_remember`. -/
def remember (commandId : String) (payload : Payload) (result : Projection) :
    Handler PUnit := do
  let id ← check (uuidOf py commandId "command_id")
  modify fun s => { s with record := s.record.map (·.remember id (py.fingerprint payload) result) }
  modify Working.persist

/-- `_require`. -/
def require (record : Option Record) (runId : String) (expectedRevision : Int) :
    Except ConnectionRunServiceError Record :=
  match record with
  | none => .error runNotFound
  | some r =>
    match uuidOf py runId "run_id" with
    | .error e => .error e
    | .ok id =>
      if r.runId ≠ id then .error runNotFound
      else if r.revision ≠ expectedRevision then .error revisionStale
      else .ok r

/-- `_validate_request`. -/
def validateRequest : Option Request → Except ConnectionRunServiceError Request
  | none => .error ⟨"REQUEST_INVALID", "connection request is invalid"⟩
  | some request =>
    if request.kind ∉ [some "create", some "join", some "public_join", some "resume"] ∨
        request.switchRole ∉ [none, some "a_room_joiner", some "b_ap_host"] then
      .error ⟨"REQUEST_INVALID", "connection request is invalid"⟩
    else .ok request

/-- The record `_cmd_start` makes. -/
def startRecord (prior : Dict String Recorded) (w : Outside) (expectedRevision : Int)
    (request : Request) : Record where
  runId := w.runId
  revision := expectedRevision + 1
  phase := "created"
  currentGate := none
  lastPassedGate := none
  localRole := request.switchRole
  peerState := "waiting"
  userCheckpoint := none
  request := request
  functional := ⟨"pending", none⟩
  cleanup := ⟨"pending", false, []⟩
  createdUtc := w.createdUtc
  updatedUtc := w.updatedUtc
  commands := prior
  endpoint := none
  room := none

/-- The revision `_cmd_start` expects. -/
def revisionOf : Option Record → Int
  | none => 0
  | some r => r.revision

/-- The record stands in the way of another run. -/
def Record.Busy (r : Record) : Prop := r.phase ≠ terminalPhase ∨ r.cleanup.status ≠ "verified"

instance (r : Record) : Decidable r.Busy := inferInstanceAs (Decidable (_ ∨ _))

/-- The end all commands share: `_persist`, the projection, `_remember`. -/
def publish (commandId : String) (payload : Payload) (r : Record) : Handler Projection := do
  modify fun s => { s with record := some r }
  modify Working.persist
  remember py commandId payload (project r)
  return project r

def cmdStart (w : Outside) (commandId : String) (expectedRevision : Int)
    (request : Option Request) : Handler Projection := do
  let payload := Payload.start request expectedRevision
  match ← idempotent py commandId payload with
  | some cached => return cached
  | none =>
    let s ← get
    raiseIf (∃ r ∈ s.record, r.Busy)
      ⟨"CONNECTION_RUN_ACTIVE", "another run or unresolved cleanup owns the service"⟩
    raiseIf (expectedRevision ≠ revisionOf s.record) revisionStale
    let normalized ← check (validateRequest request)
    let prior := (s.record.map Record.commands).getD .empty
    modify fun s => { s with controls := Function.update s.controls w.runId (some .new) }
    publish py commandId payload (startRecord prior w expectedRevision normalized)

/-- The part of `_cmd_command` between its checks and the new revision: the record the
action leaves, and the run's control. -/
def act (w : Outside) (r : Record) (control : Option RunControl) (action : String)
    (checkpoint switchRole : Option String) :
    Except ConnectionRunServiceError (Record × Option RunControl) :=
  if r.phase = terminalPhase ∧ action ∈ ["leave", "close"] then
    match w.release with
    | none => .error ⟨"AUTHORITY_RELEASE_UNAVAILABLE", "room authority cannot be released"⟩
    | some (.error e) => .error e
    | some (.ok ()) => .ok ({ r with room := none }, control)
  else
    match control with
    | none => .error runNotActive
    | some c =>
      if action = "continue" then
        if orElse checkpoint "" = "" ∨ r.userCheckpoint = none then
          .error ⟨"CHECKPOINT_STALE", "no user checkpoint is active"⟩
        else (fun c' => (r, some c')) <$> c.continueCheckpoint (orElse checkpoint "")
      else if action = "connect" then
        (fun c' => ({ r with localRole := switchRole }, some c')) <$>
          c.chooseRole (orElse switchRole "")
      else (fun c' => (r, some c')) <$> c.requestTermination action

def cmdCommand (w : Outside) (commandId runId : String) (expectedRevision : Int)
    (action : String) (checkpoint switchRole : Option String) : Handler Projection := do
  let payload := Payload.command runId action checkpoint switchRole expectedRevision
  match ← idempotent py commandId payload with
  | some cached => return cached
  | none =>
    let s ← get
    let record ← check (require py s.record runId expectedRevision)
    raiseIf (action ∉ (project record).allowedActions)
      ⟨"ACTION_NOT_ALLOWED", "the action is not allowed in the current run state"⟩
    let acted ← check (act w record (s.controls runId) action checkpoint switchRole)
    modify fun s => { s with controls := Function.update s.controls runId acted.2 }
    publish py commandId payload (acted.1.stamp w.updatedUtc)

/-- The request of a retry: the run's own, or a resumption of its room. -/
def retryRequest (r : Record) : Request :=
  if r.room.isSome then
    { kind := some "resume", switchRole := r.request.switchRole,
      clientId := r.request.clientId, rest := "" }
  else r.request

def cmdRetry (w : Outside) (commandId runId : String) (expectedRevision : Int) :
    Handler Projection := do
  let payload := Payload.retry runId expectedRevision
  match ← idempotent py commandId payload with
  | some cached => return cached
  | none =>
    let s ← get
    let record ← check (require py s.record runId expectedRevision)
    raiseIf (record.phase ≠ terminalPhase ∨ record.cleanup.verified ≠ true)
      ⟨"CLEANUP_UNVERIFIED", "retry requires verified cleanup"⟩
    let result ← cmdStart py w (py.retryRun commandId) record.revision (some (retryRequest record))
    remember py commandId payload result
    return result

/-- What a handler returns: a projection, the answer of a shutdown without a run, or an
empty dictionary. -/
inductive Reply where
  | projection (p : Projection)
  | accepted
  | nothing
  deriving DecidableEq, Repr

/-- The stop `_cmd_shutdown` asks of an unfinished run. -/
def stopControl (r : Record) (control : Option RunControl) :
    Except ConnectionRunServiceError (Option RunControl) :=
  if r.phase ≠ terminalPhase then
    match control with
    | none => .error runNotActive
    | some c => some <$> c.requestTermination "stop"
  else .ok control

def cmdShutdown (w : Outside) (commandId : String) (runId : Option String)
    (expectedRevision : Int) : Handler Reply := do
  let payload := Payload.shutdown runId expectedRevision
  let commandId ← check (uuidOf py commandId "command_id")
  match ← idempotent py commandId payload with
  | some cached => return .projection cached
  | none =>
    let s ← get
    if s.record.isNone then
      raiseIf (runId ≠ none ∨ expectedRevision ≠ 0) revisionStale
      return .accepted
    else
      let record ← check (require py s.record (orElse runId "") expectedRevision)
      let control ← check (stopControl record (s.controls record.runId))
      modify fun s => { s with controls := Function.update s.controls record.runId control }
      let result ← publish py commandId payload (record.stamp w.updatedUtc)
      return .projection result

/-! ## What the workers submit -/

/-- The end `_cmd_event` and `_cmd_finished` share. -/
def report (w : Outside) (r : Record) : Handler Reply := do
  let stamped := r.stamp w.updatedUtc
  modify fun s => { s with record := some stamped }
  modify Working.persist
  return .projection (project stamped)

/-- The record in memory, if it is the one of this run. -/
def ConnectionRunService.recordOf (s : ConnectionRunService) (runId : String) : Option Record :=
  s.record.filter fun r => r.runId = runId

def cmdEvent (w : Outside) (runId : String) (event : Event) : Handler Reply := do
  let s ← get
  match s.recordOf runId with
  | none => return .nothing
  | some record =>
    let record ← check (record.onEvent event)
    report w record

def cmdFinished (w : Outside) (runId : String) (end_ : Option Report)
    (failure : Option RawFailure) : Handler Reply := do
  let s ← get
  match s.recordOf runId with
  | none => return .nothing
  | some record =>
    modify fun s => { s with controls := Function.update s.controls runId none }
    report w (record.onFinished end_ failure)

/-! ## One command -/

inductive Command where
  | start (commandId : String) (expectedRevision : Int) (request : Option Request)
  | command (commandId runId : String) (expectedRevision : Int) (action : String)
      (checkpoint switchRole : Option String)
  | retry (commandId runId : String) (expectedRevision : Int)
  | shutdown (commandId : String) (runId : Option String) (expectedRevision : Int)
  | event (runId : String) (value : Event)
  | finished (runId : String) (report : Option Report) (failure : Option RawFailure)
  deriving DecidableEq, Repr

/-- The handler `_command_loop` calls. -/
def Command.handler (w : Outside) : Command → Handler Reply
  | .start commandId expectedRevision request =>
    Reply.projection <$> cmdStart py w commandId expectedRevision request
  | .command commandId runId expectedRevision action checkpoint switchRole =>
    Reply.projection <$>
      cmdCommand py w commandId runId expectedRevision action checkpoint switchRole
  | .retry commandId runId expectedRevision =>
    Reply.projection <$> cmdRetry py w commandId runId expectedRevision
  | .shutdown commandId runId expectedRevision => cmdShutdown py w commandId runId expectedRevision
  | .event runId value => cmdEvent w runId value
  | .finished runId report failure => cmdFinished w runId report failure

end SwitchTrade.Service

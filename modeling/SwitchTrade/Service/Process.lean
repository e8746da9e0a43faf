import SwitchTrade.Service.Commands
import SwitchTrade.Transition.Run

/-!
# The service process and its state file

The process holds the record in memory and replaces the state file within a handler; no write of the
file raises. It may stop between two handlers, before a handler has written, or after any of the
handler's writes, and starts again from what the file holds. `_recover_startup` runs in the
constructor, before anybody can see the record.
-/

namespace SwitchTrade.Service

open Transition

/-- The state file, the service if its process runs, and the runs there have been: the
identifiers `uuid.uuid4` will not draw again. -/
structure Host where
  disk : Option Record
  service : Option ConnectionRunService
  drawn : List String

def Host.empty : Host := ⟨none, none, []⟩

/-- The record the service holds, or the one it would load. -/
def Host.current (h : Host) : Option Record :=
  match h.service with
  | some s => s.record
  | none => h.disk

/-- `snapshot`. -/
def Host.snapshot (h : Host) (runId : Option String) : Option Projection :=
  match h.service with
  | some s =>
    (s.record.filter fun r => runId = none ∨ runId = some r.runId).map project
  | none => none

/-- The runs there have been once the service holds this record. -/
def Host.draw (h : Host) (record : Option Record) : List String :=
  match record with
  | some r => h.drawn.insert r.runId
  | none => h.drawn

/-- What a handler did before `skipped` of its writes, the newest, were lost. -/
def Host.file (h : Host) (s : Working) (skipped : Nat) : Option Record :=
  (s.written.drop skipped).head?.or h.disk

variable (py : Stdlib)

/-- A handler on the service in memory. -/
def handle (s : ConnectionRunService) (c : Command) (w : Outside) :
    EStateM.Result ConnectionRunServiceError Working Reply :=
  (c.handler py w).run ⟨s, []⟩

/-- What a command gives back, and the working state it leaves. -/
def outcome : EStateM.Result ConnectionRunServiceError Working Reply →
    Except ConnectionRunServiceError Reply × Working
  | .ok reply s => (.ok reply, s)
  | .error e s => (.error e, s)

/-- A command from beginning to end, as its caller sees it. -/
def Host.call (h : Host) (s : ConnectionRunService) (c : Command) (w : Outside) :
    Except ConnectionRunServiceError Reply × Host :=
  let done := outcome (handle py s c w)
  (done.1, ⟨h.file done.2 0, some done.2.toConnectionRunService, h.draw done.2.record⟩)

/-! ## Starting up -/

/-- `_load`: the file has its keys sorted. -/
def Record.load (r : Record) : Record := { r with commands := r.commands.sorted }

/-- The constructor: `_load` and `_recover_startup`. -/
def Host.boot (h : Host) (cleanupVerified : Bool) (utc : String) : Host :=
  match h.disk with
  | none => { h with service := some ⟨none, fun _ => none⟩ }
  | some d =>
    if d.phase = terminalPhase then { h with service := some ⟨some d.load, fun _ => none⟩ }
    else
      let recovered := (d.load.onRecovery cleanupVerified).stamp utc
      { h with disk := some recovered, service := some ⟨some recovered, fun _ => none⟩ }

/-! ## The system -/

/-- What a worker or its watchdog does to the control of its run. -/
inductive ControlOp where
  | chooseRole (role : String)
  | awaitUser (checkpoint : String)
  | resume (checkpoint : String)
  | requestTermination (action : String)
  | beginCleanup
  deriving DecidableEq, Repr

def ControlOp.on (c : RunControl) : ControlOp → Except ConnectionRunServiceError RunControl
  | .chooseRole role => c.chooseRole role
  | .awaitUser checkpoint => .ok (c.awaitUser checkpoint)
  | .resume checkpoint => .ok (c.resume checkpoint)
  | .requestTermination action => c.requestTermination action
  | .beginCleanup => .ok c.beginCleanup

def ConnectionRunService.control (s : ConnectionRunService) (runId : String) (op : ControlOp) :
    ConnectionRunService :=
  match s.controls runId with
  | none => s
  | some c =>
    match op.on c with
    | .ok c' => { s with controls := Function.update s.controls runId (some c') }
    | .error _ => s

inductive Label where
  | boot (cleanupVerified : Bool) (utc : String)
  | call (c : Command) (w : Outside)
  | crashDuring (c : Command) (w : Outside) (skipped : Nat)
  | control (runId : String) (op : ControlOp)
  | crash

/-- One step: a start, a command, a command the process does not survive, a worker on its
control, the end of the process. -/
def Host.step (h : Host) : Label → Option Host
  | .boot cleanupVerified utc =>
    match h.service with
    | none => some (h.boot cleanupVerified utc)
    | some _ => none
  | .call c w =>
    match h.service with
    | none => none
    | some s => if w.runId ∈ h.drawn then none else some (h.call py s c w).2
  | .crashDuring c w skipped =>
    match h.service with
    | none => none
    | some s =>
      if w.runId ∈ h.drawn then none
      else
        let done := (outcome (handle py s c w)).2
        some ⟨h.file done skipped, none, h.draw (h.file done skipped)⟩
  | .control runId op =>
    match h.service with
    | none => none
    | some s => some { h with service := some (s.control runId op) }
  | .crash => some { h with service := none }

/-- The service on an empty root, over every sequence of commands, worker events, watchdog
firings, stops and starts. -/
def system : System Host Label := .ofStep (· = .empty) (Host.step py)

end SwitchTrade.Service

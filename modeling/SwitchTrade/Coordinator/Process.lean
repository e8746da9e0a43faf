import SwitchTrade.Coordinator.Commands
import SwitchTrade.Transition.Run

/-!
# The coordinator process and its two files

The run's record and the pointer to the active run are replaced one after the other, each
replacement atomic. A command therefore takes up to three steps: its handler works on the
record in memory, then `_persist` replaces the record file, then it replaces or removes
the pointer. The process may stop before or after each of them, and starts again from
what the files hold. Either write may raise instead: the command thread hands the exception
to the caller and goes on with the record in memory as the handler left it, while the
constructor does not return.
-/

namespace SwitchTrade.Coordinator

open InPlace Transition

/-- The files under the coordinator's root. -/
structure Disk where
  records : RunId → Option Record
  active : Option RunId

def Disk.empty : Disk := ⟨fun _ => none, none⟩

/-- `_write_json(self._record_path(...), record)`. -/
def Disk.writeRecord (d : Disk) (r : Record) : Disk :=
  { d with records := Function.update d.records r.runId (some r) }

/-- The end of `_persist`: the pointer of a settled run is removed, any other is written. -/
def Disk.writePointer (d : Disk) (r : Record) : Disk :=
  { d with active := if r.settled then none else some r.runId }

/-- What `_persist` still has to write, and whether the constructor called it. -/
inductive Stage where
  | idle
  | record (recovering : Bool)
  | pointer (recovering : Bool)
  deriving DecidableEq, Repr

/-- A running coordinator: `_current`, and how far a `_persist` has come. -/
structure Process where
  release : String
  current : Option Record
  stage : Stage

/-- The files, and the process if one runs. -/
structure Host where
  disk : Disk
  process : Option Process

def Host.empty : Host := ⟨.empty, none⟩

variable (py : Stdlib)

/-! ## One command -/

/-- `_has_cleanup_guard`. -/
def hasCleanupGuard (d : Disk) (current : Option Record) : Bool :=
  d.active.isSome || match current with
    | some r => !r.settled
    | none => false

/-- The adapter identity `_cmd_start` requires of every mode but the C harness. -/
def startAdapter (mode : RunMode) (adapterInstanceId usbId : Value) :
    Checked (Option String × Option String) :=
  if mode ≠ .cHarness then do
    let adapter ← bounded adapterInstanceId "adapter_instance_id" 512
    let usb ← bounded usbId "usb_id" 32
    pure (some adapter, some (py.lower usb))
  else do
    let adapter ← boundedOrNone adapterInstanceId "adapter_instance_id" 512
    let usb ← boundedOrNone usbId "usb_id" 32
    pure (adapter, usb.map py.lower)

/-- `_cmd_start` up to its `_persist`: the new record. -/
def cmdStart (release : String) (d : Disk) (current : Option Record)
    (mode adapterInstanceId usbId runId : Value) (fresh now : String) : Checked Record := do
  let selectedMode ← enumOf RunMode mode "mode"
  Fallible.raiseIf (hasCleanupGuard d current = true)
    (⟨"CONNECTION_RUN_ACTIVE", "another run or unresolved cleanup owns the coordinator"⟩ :
      ConnectionCoordinatorError)
  let adapter ← startAdapter py selectedMode adapterInstanceId usbId
  let normalized ← runIdOf py (if runId.truthy then runId.str else fresh)
  Fallible.raiseIf ((d.records normalized).isSome = true)
    (⟨"CONNECTION_RUN_EXISTS", "the requested run identifier already exists"⟩ :
      ConnectionCoordinatorError)
  pure (startRecord release selectedMode adapter.1 adapter.2 normalized now)

/-- `_require_run`. -/
def requireRun (current : Option Record) (runId : Value) : Checked Record := do
  let normalized ← runIdOf py runId.str
  match current with
  | some r => if r.runId = normalized then .ok r else .error runNotFound
  | none => .error runNotFound

/-- What becomes of a command before `_persist`: it raised, it returned a copy, or it is
to write its record. The record in memory is the one the handler leaves. -/
inductive Handled where
  | raised (error : ConnectionCoordinatorError) (current : Option Record)
  | copied (current : Option Record)
  | persists (record : Record)

/-- One command on the record in memory. -/
def handle (release : String) (d : Disk) (current : Option Record) (c : Command)
    (clock : Clock) : Handled :=
  match c with
  | .start mode adapter usb runId fresh =>
    match cmdStart py release d current mode adapter usb runId fresh clock.now with
    | .error e => .raised e current
    | .ok r => .persists (r.stamp "run_created" clock.persisted)
  | .onRun runId order =>
    match requireRun py current runId with
    | .error e => .raised e current
    | .ok r =>
      match (order.handler py clock.now).run r with
      | .error e r' => .raised e (some r')
      | .ok .copy r' => .copied (some r')
      | .ok (.persist event) r' => .persists (r'.stamp event clock.persisted)

/-- A command from beginning to end, as its caller sees it where no write raises. -/
def Host.call (h : Host) (p : Process) (c : Command) (clock : Clock) :
    Except ConnectionCoordinatorError (Option Record) × Host :=
  match handle py p.release h.disk p.current c clock with
  | .raised e current => (.error e, ⟨h.disk, some { p with current := current }⟩)
  | .copied current => (.ok current, ⟨h.disk, some { p with current := current }⟩)
  | .persists r =>
    (.ok (some r), ⟨(h.disk.writeRecord r).writePointer r, some { p with current := some r }⟩)

/-! ## Starting up -/

/-- The outcome `_recover` gives a run that had none. -/
def Functional.interrupted : Functional :=
  ⟨.interrupted, some "CONNECTION_RUN_INTERRUPTED",
    some "The previous control process ended before the run became terminal."⟩

/-- The record of an interrupted run as `_recover` leaves it before its `_persist`. -/
def Record.recover (r : Record) : Record :=
  { r with
    functional := if r.functional.status = .pending then .interrupted else r.functional
    phase := .cleaning
    currentGate := some "D8_LOCAL_RELEASE"
    cleanup :=
      { r.cleanup with status := .pending, verified := false, code := none, message := none }
    recoveryRequired := true }

/-- The constructor up to its `_persist`: the release, and `_recover`. Nothing where it raises. -/
def boot (d : Disk) (release : Value) (utc : String) : Option Host :=
  match bounded release "release" 64 with
  | .error _ => none
  | .ok release =>
    match d.active with
    | none => some ⟨d, some ⟨release, none, .idle⟩⟩
    | some runId =>
      match d.records runId with
      | none => none
      | some r =>
        if r.valid runId then
          if r.settled then some ⟨{ d with active := none }, some ⟨release, some r, .idle⟩⟩
          else some ⟨d, some
            ⟨release, some (r.recover.stamp "startup_recovery_required" utc), .record true⟩⟩
        else none

inductive Label where
  | boot (release : Value) (utc : String)
  | command (c : Command) (clock : Clock)
  | writeRecord
  | writePointer
  | writeRaises
  | crash
  deriving DecidableEq, Repr

/-- The next write of `_persist` raises: a command's process goes on as it is, the constructor
ends its own. -/
def Process.writeRaises (p : Process) : Option (Option Process) :=
  match p.stage with
  | .idle => none
  | .record recovering | .pointer recovering =>
    some (if recovering then none else some { p with stage := .idle })

/-- One step of the process or of `_persist`; the process may stop in every state. -/
def Host.step (h : Host) : Label → Option Host
  | .boot release utc =>
    match h.process with
    | none => boot h.disk release utc
    | some _ => none
  | .command c clock =>
    match h.process with
    | none => none
    | some p =>
      if p.stage = .idle then
        match handle py p.release h.disk p.current c clock with
        | .raised _ current => some { h with process := some { p with current := current } }
        | .copied current => some { h with process := some { p with current := current } }
        | .persists r => some { h with process := some ⟨p.release, some r, .record false⟩ }
      else none
  | .writeRecord =>
    match h.process with
    | some ⟨release, some r, .record recovering⟩ =>
      some ⟨h.disk.writeRecord r, some ⟨release, some r, .pointer recovering⟩⟩
    | _ => none
  | .writePointer =>
    match h.process with
    | some ⟨release, some r, .pointer _⟩ =>
      some ⟨h.disk.writePointer r, some ⟨release, some r, .idle⟩⟩
    | _ => none
  | .writeRaises => do
    let p ← h.process
    let process ← p.writeRaises
    return { h with process }
  | .crash => some { h with process := none }

/-- The coordinator on an empty root, over every sequence of commands, stops and starts. -/
def system : System Host Label := .ofStep (· = .empty) (Host.step py)

/-- Between commands the process holds this record, and `snapshot` returns it. -/
def Host.shows (h : Host) (r : Record) : Prop :=
  ∃ release, h.process = some ⟨release, some r, .idle⟩

/-- A `_persist` that does not raise. -/
theorem persist_run {G : Host → Label → Prop} {d : Disk} {release : String} {r : Record}
    {recovering : Bool} (hG : ∀ t, G t .writeRecord ∧ G t .writePointer) :
    (system py).Run G ⟨d, some ⟨release, some r, .record recovering⟩⟩
      ⟨(d.writeRecord r).writePointer r, some ⟨release, some r, .idle⟩⟩ := by
  have hrecord : (system py).Run G ⟨d, some ⟨release, some r, .record recovering⟩⟩
      ⟨d.writeRecord r, some ⟨release, some r, .pointer recovering⟩⟩ :=
    System.Run.step (i := .writeRecord) (hG _).1 rfl
  exact hrecord.trans (System.Run.step (i := .writePointer) (hG _).2 rfl)

/-- A command, run to its end, is the steps of its handler and of its `_persist`. -/
theorem call_run {G : Host → Label → Prop} {h : Host} {p : Process} {c : Command} {clock : Clock}
    (hp : h.process = some p) (hi : p.stage = .idle) (hc : G h (.command c clock))
    (hG : ∀ t, G t .writeRecord ∧ G t .writePointer) :
    (system py).Run G h (h.call py p c clock).2 := by
  obtain ⟨d, q⟩ := h
  subst hp
  obtain ⟨release, current, stage⟩ := p
  subst hi
  have hstep : ∀ t, Host.step py ⟨d, some ⟨release, current, .idle⟩⟩ (.command c clock) = some t →
      (system py).Run G ⟨d, some ⟨release, current, .idle⟩⟩ t := by
    intro t ht
    exact System.Run.step hc ht
  unfold Host.call
  cases hh : handle py release d current c clock with
  | raised e now =>
    apply hstep
    simp [Host.step, hh]
  | copied now =>
    apply hstep
    simp [Host.step, hh]
  | persists r =>
    refine (hstep ⟨d, some ⟨release, some r, .record false⟩⟩ ?_).trans ?_
    · simp [Host.step, hh]
    · exact persist_run py hG

end SwitchTrade.Coordinator

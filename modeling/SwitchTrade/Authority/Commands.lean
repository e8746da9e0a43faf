import SwitchTrade.Authority.Room
import SwitchTrade.Transition.Fallible

/-!
# What the commands do to one room document

Every store operation loads a room, checks its guards, and either answers with the room
as it stands or writes a changed document together with one event. This file is that
middle part: pure functions from a loaded document to an `Effect`. `Store.lean` adds the
tables around them.

An error raised here rolls the transaction back, so a function that changes a member and
then raises has changed nothing.
-/

namespace SwitchTrade.Authority

open Fallible

/-- What a store call raises: an `AuthorityError`, or another Python exception. -/
inductive Exn where
  | authority (status : Nat) (detail : String)
  | stopIteration
  | typeError
  deriving DecidableEq, Repr

/-! ## Patterns -/

/-- `[first][rest]{0,max}` matched against the whole text. -/
def fullmatch (first rest : Char → Bool) (max : Nat) (s : String) : Bool :=
  match s.toList with
  | [] => false
  | c :: cs => first c && cs.all rest && cs.length ≤ max

def asciiLower (c : Char) : Bool := 'a' ≤ c && c ≤ 'z'
def asciiUpper (c : Char) : Bool := 'A' ≤ c && c ≤ 'Z'
def asciiDigit (c : Char) : Bool := '0' ≤ c && c ≤ '9'
def asciiLetter (c : Char) : Bool := asciiLower c || asciiUpper c

/-- `D_CODE`. -/
def dCode : String → Bool :=
  fullmatch asciiLetter (fun c => asciiLetter c || asciiDigit c || c ∈ ['_', '.', '-']) 95

/-- `D_GATE`. -/
def dGate : String → Bool :=
  fullmatch (fun c => asciiLetter c || asciiDigit c)
    (fun c => asciiLetter c || asciiDigit c || c ∈ ['_', '.', ':', '-']) 95

/-- The pattern of an attempt failure code. -/
def failureCodePattern : String → Bool :=
  fullmatch asciiLower (fun c => asciiLower c || asciiDigit c || c ∈ ['_', '.', '-']) 63

/-- `[0-9a-f]{64}`. -/
def sha256Pattern (s : String) : Bool :=
  s.toList.length = 64 && s.toList.all fun c => asciiDigit c || ('a' ≤ c && c ≤ 'f')

/-! ## Payloads and effects -/

/-- The actions `mutate` knows, and every other text. -/
inductive Action where
  | ready | heartbeat | attempt | claimCreator | transferCreator | lockRole | phase
  | leave | removeOffline | close
  | other (name : String)
  deriving DecidableEq, Repr

/-- The fields `mutate` reads from its payload. `none` is an absent field, and for
`switchRoomRole` and `phase` also any text that names no role and no phase. -/
structure Payload where
  attemptId : Option AttemptId := none
  ready : Option Bool := none
  switchRoomRole : Option SwitchRoomRole := none
  phase : Option AttemptPhase := none
  failureCode : Option String := none
  targetMemberId : Option MemberId := none
  deriving DecidableEq, Repr

/-- `str(payload.get("failure_code") or "session.failed")`. -/
def Payload.failureCodeOrDefault (p : Payload) : String :=
  match p.failureCode with
  | none => "session.failed"
  | some "" => "session.failed"
  | some code => code

/-- A JSON field that should hold a code: null, a text, or anything else. -/
inductive CodeField where
  | null
  | text (code : String)
  | other
  deriving DecidableEq, Repr

structure DClosingPayload where
  contractVersion : String
  attemptId : Option AttemptId
  activationGeneration : Option Int
  outcome : Option DOutcome
  primaryFailureCode : CodeField
  lastPassedGate : Option String
  deriving DecidableEq, Repr

structure DQuiescentPayload where
  contractVersion : String
  attemptId : Option AttemptId
  activationGeneration : Option Int
  sourceSeat : Option Seat
  runId : Option String
  stageGeneration : Option Int
  launchIdentitySha256 : Option String
  evidence : Option DEvidence
  deriving DecidableEq, Repr

/-- The `data` column of an event. -/
inductive EventData where
  | empty
  | payload (p : Payload)
  | seat (seat : Seat)
  | code (code : String)
  | closing (outcome : DOutcome) (primaryFailureCode : Option String) (lastPassedGate : String)
  | quiescent (seat : Seat) (barrierStatus : BarrierStatus) (cleanupStatus : CleanupStatus)
  deriving DecidableEq, Repr

/-- Which credential rows of the room a command deactivates. -/
inductive Revoked where
  | nobody
  | member (id : MemberId)
  | everybody
  deriving DecidableEq, Repr

/-- What a command does once its guards passed. -/
inductive Effect where
  /-- Answer with the room as it stands. -/
  | replay
  /-- Write this document with the next room version, and append one event. -/
  | write (room : Room) (event : String) (data : EventData) (revoked : Revoked)
  deriving DecidableEq, Repr

/-! ## Reading a payload -/

/-- The validated `(outcome, primary_failure_code, last_passed_gate)` of a closing intent. -/
def DClosingPayload.intent (payload : DClosingPayload) :
    Except Exn (DOutcome × Option String × String) := do
  let outcome ← orRaise payload.outcome (.authority 400 "D closing intent is invalid")
  let gate ← orRaise (payload.lastPassedGate.filter dGate)
    (.authority 400 "D closing intent is invalid")
  let code ← match outcome, payload.primaryFailureCode with
    | .failed, .text code =>
      if dCode code then .ok (some code)
      else .error (.authority 400 "D failed outcome requires a primary failure code")
    | .failed, _ => .error (.authority 400 "D failed outcome requires a primary failure code")
    | _, .null => .ok none
    | _, _ => .error (.authority 400 "D non-failed outcome cannot carry a failure code")
  raiseIf (outcome = .completed ∧ gate ≠ "C_TRADE_COMPLETE")
    (.authority 409 "D completed outcome requires C_TRADE_COMPLETE")
  return (outcome, code, gate)

/-- The validated report of a quiescent payload. -/
def DQuiescentPayload.report (payload : DQuiescentPayload)
    (now : Time) : Except Exn DSideReport := do
  let evidence ← orRaise payload.evidence (.authority 400 "D quiescent evidence is invalid")
  let runId ← orRaise payload.runId (.authority 400 "D quiescent launch identity is invalid")
  let stageGeneration ← orRaise (payload.stageGeneration.filter (1 ≤ ·))
    (.authority 400 "D quiescent launch identity is invalid")
  let launch ← orRaise (payload.launchIdentitySha256.filter sha256Pattern)
    (.authority 400 "D quiescent launch identity is invalid")
  return { runId, stageGeneration, launchIdentitySha256 := launch, evidence, acknowledgedAt := now }

/-- The four fields two reports of one seat must agree on. -/
def DSideReport.agrees (r s : DSideReport) : Prop :=
  r.runId = s.runId ∧ r.stageGeneration = s.stageGeneration ∧
    r.launchIdentitySha256 = s.launchIdentitySha256 ∧ r.evidence = s.evidence

instance (r s : DSideReport) : Decidable (r.agrees s) :=
  inferInstanceAs (Decidable (_ ∧ _ ∧ _ ∧ _))

/-- The failure code a `phase` command carries; only the phase `failed` has one. -/
def Payload.phaseFailureCode (payload : Payload)
    (phase : AttemptPhase) : Except Exn (Option String) :=
  if phase = .failed then
    if failureCodePattern payload.failureCodeOrDefault then .ok (some payload.failureCodeOrDefault)
    else .error (.authority 400 "invalid attempt failure code")
  else .ok none

/-- The four actions that name the attempt they are meant for. -/
def Action.namesAttempt : Action → Bool
  | .claimCreator | .transferCreator | .lockRole | .phase => true
  | _ => false

/-- The actions a stale version does not stop. -/
def Action.ignoresVersion : Action → Bool
  | .ready | .heartbeat | .leave | .close => true
  | _ => false

/-- The member's readiness after `ready`; only a ready member has a role. -/
def Member.choose (m : Member) (ready : Bool) (role : Option SwitchRoomRole) : Member :=
  { m with
    readyState := if ready then .ready else .notReady
    switchRoomRole := if ready then role else none }

namespace Room

/-! ## Distributed D -/

/-- `_d_identity`. -/
def dIdentity (room : Room) (memberId : MemberId) (attemptId : AttemptId) :
    Except Exn (Attempt × Member) := do
  let attempt ← orRaise (room.attempt.filter (·.attemptId = attemptId))
    (.authority 409 "connection attempt is stale")
  let member ← orRaise ((room.member? memberId).filter (·.onlineState ≠ .left))
    (.authority 409 "connection member is not active")
  return (attempt, member)

/-- `_terminalize_d`: the single D6 terminal transition of the attempt with state `d`. -/
def terminalizeD (room : Room) (attempt : Attempt) (d : DState) (barrierStatus : BarrierStatus)
    (cleanupStatus : CleanupStatus) (secondaryFailureCode : Option String) (now : Time) : Room :=
  { room.unreadyActive with
    attempt := some { attempt with
      phase := d.outcome.phase
      recoverableError := if d.outcome = .failed then d.primaryFailureCode else none
      updatedAt := now
      d := some { d with barrierStatus, cleanupStatus, secondaryFailureCode,
                         terminalizedAt := some now } }
    state := .readyCheck }

/-- `begin_d_closing`, from the loaded room on. -/
def beginDClosing (room : Room) (now : Time) (memberId : MemberId) (attemptId : AttemptId)
    (payload : DClosingPayload) (expectedVersion : Nat) : Except Exn Effect := do
  let (attempt, member) ← room.dIdentity memberId attemptId
  raiseIf (payload.contractVersion ≠ "d-closing-intent.v1")
    (.authority 400 "D closing contract is incompatible")
  raiseIf (payload.attemptId ≠ some attemptId) (.authority 409 "connection attempt is stale")
  raiseIf (payload.activationGeneration ≠ some (attempt.activationGeneration : Int))
    (.authority 409 "D activation generation is stale")
  let (outcome, code, gate) ← payload.intent
  match attempt.d with
  | some existing =>
    raiseIf (¬ (existing.outcome = outcome ∧ existing.primaryFailureCode = code ∧
        existing.lastPassedGate = gate ∧
        existing.activationGeneration = attempt.activationGeneration))
      (.authority 409 "D closing intent conflicts with the recorded outcome")
    return .replay
  | none =>
    raiseIf attempt.phase.terminal (.authority 409 "connection attempt is not active")
    raiseIf (expectedVersion ≠ room.roomVersion) (.authority 409 "room version conflict")
    let d : DState :=
      { activationGeneration := attempt.activationGeneration
        intentGeneration := attempt.activationGeneration
        outcome := outcome
        primaryFailureCode := code
        lastPassedGate := gate
        initiatedBySeat := member.seat
        startedAt := now
        deadlineAt := now + dBarrierSeconds
        sides := { memberA := none, memberB := none }
        barrierStatus := .waitingForSides
        cleanupStatus := .pending
        secondaryFailureCode := none
        terminalizedAt := none }
    return .write
      { room with
        attempt := some { attempt with phase := .closing, updatedAt := now, d := some d } }
      "attempt.closing" (.closing outcome code gate) .nobody

/-- Record one report; with the second one, take the D6 transition. -/
def recordQuiescent (room : Room) (attempt : Attempt) (d : DState) (seat : Seat)
    (report : DSideReport) (now : Time) : Room :=
  let sides := d.sides.set seat report
  match sides.memberA, sides.memberB with
  | some a, some b =>
    if a.evidence.verified && b.evidence.verified then
      room.terminalizeD attempt { d with sides } .twoSideTerminal .verified none now
    else
      room.terminalizeD attempt { d with sides } .twoSideTerminal .failed
        (some "D_SIDE_CLEANUP_FAILED") now
  | _, _ =>
    { room with attempt := some { attempt with updatedAt := now, d := some { d with sides } } }

/-- `acknowledge_d_quiescent`, from the loaded room on. -/
def acknowledgeDQuiescent (room : Room) (now : Time) (memberId : MemberId) (attemptId : AttemptId)
    (payload : DQuiescentPayload) (expectedVersion : Nat) : Except Exn Effect := do
  let (attempt, member) ← room.dIdentity memberId attemptId
  let d ← orRaise attempt.d (.authority 409 "D closing intent is required")
  raiseIf (¬ (attempt.phase = .closing ∨ attempt.phase.terminal))
    (.authority 409 "D closing intent is required")
  raiseIf (payload.contractVersion ≠ "d-side-quiescent.v1")
    (.authority 400 "D quiescent contract is incompatible")
  raiseIf (payload.attemptId ≠ some attemptId ∨ payload.sourceSeat ≠ some member.seat ∨
      payload.activationGeneration ≠ some d.activationGeneration)
    (.authority 409 "D quiescent identity is stale")
  let report ← payload.report now
  match d.sides.get member.seat with
  | some existing =>
    raiseIf (¬ existing.agrees report)
      (.authority 409 "D quiescent evidence conflicts with the recorded side")
    return .replay
  | none =>
    raiseIf (expectedVersion ≠ room.roomVersion) (.authority 409 "room version conflict")
    let room' := room.recordQuiescent attempt d member.seat report now
    let d' := (room'.attempt.bind (·.d)).getD d
    return .write room' "attempt.d_side_quiescent"
      (.quiescent member.seat d'.barrierStatus d'.cleanupStatus) .nobody

/-- `fail_transport_attempt`, from the loaded room on; `none` is the answer `False`. -/
def failTransportAttempt (room : Room) (now : Time) (attemptId : AttemptId) (code : String) :
    Option Room :=
  match room.attempt with
  | none => none
  | some attempt =>
    if ¬ room.isOpen ∨ attempt.attemptId ≠ attemptId ∨ attempt.phase.terminal then none
    else if attempt.phase = .closing then none
    else some
      { room.unreadyActive with
        attempt := some { attempt with
          phase := .failed, recoverableError := some code, updatedAt := now }
        state := .readyCheck }

/-- `force_d_barrier`, from the loaded room on; `none` is the answer `False`. -/
def forceDBarrier (room : Room) (now : Time) (attemptId : AttemptId) (code : String) :
    Option Room :=
  match room.attempt with
  | none => none
  | some attempt =>
    match attempt.d with
    | none => none
    | some d =>
      if ¬ room.isOpen ∨ attempt.attemptId ≠ attemptId ∨ attempt.phase ≠ .closing then none
      else some (room.terminalizeD attempt d .forcedFailure .failed (some code) now)

/-! ## The actions of `mutate` -/

/-- `_begin_attempt`; `creator` is the first active member with the creator role. -/
def beginAttempt (room : Room) (now : Time) (fresh : AttemptId) (creator : MemberId) : Room :=
  let number := room.lastAttemptNumber.getD 0 + 1
  { room with
    lastAttemptNumber := some number
    attempt := some
      { attemptId := fresh, attemptNumber := number, activationGeneration := number
        phase := .connectingSwitches, creatorMemberId := some creator
        roleLocked := true, roleLockVersion := room.roomVersion + 1
        startedAt := now, updatedAt := now, retryCount := 0
        recoverableError := none, d := none }
    state := .connectionAttempt }

/-- Exactly one creator and one finder: the set of the roles of `members` is
`{"creator", "finder"}`. -/
def complementaryRoles (members : List Member) : Bool :=
  members.any (·.switchRoomRole = some .creator) && members.any (·.switchRoomRole = some .finder) &&
    members.all (·.switchRoomRole.isSome)

/-- The first active member with the creator role. -/
def creatorOf (members : List Member) : Option MemberId :=
  (members.find? (·.switchRoomRole = some .creator)).map (·.memberId)

/-- The attempt the document holds is not in a terminal phase. -/
def attemptActive (room : Room) : Bool :=
  match room.attempt with
  | some attempt => !attempt.phase.terminal
  | none => false

/-- The attempt is active and its roles are locked. -/
def teardownPending (room : Room) : Bool :=
  match room.attempt with
  | some attempt => attempt.roleLocked && !attempt.phase.terminal
  | none => false

/-- The first half of `ready`: write the member's choice; withdrawing readiness retires a
finished attempt. -/
def setReadiness (room : Room) (memberId : MemberId) (ready : Bool)
    (role : Option SwitchRoomRole) : Room :=
  if !ready && room.attempt.any (·.phase.terminal) then
    { room.modifyMember memberId (·.choose ready role) with attempt := none }
  else room.modifyMember memberId (·.choose ready role)

/-- The second half of `ready`, when no attempt is active: the second complementary choice
starts one. -/
def settleReadiness (room : Room) (now : Time) (fresh : AttemptId) (ready : Bool)
    (payload : Payload) : Except Exn Effect :=
  if room.active.length = 2 ∧ room.active.all (·.readyState = .ready) ∧
      complementaryRoles room.active then do
    let creator ← orRaise (creatorOf room.active) .stopIteration
    return .write (room.beginAttempt now fresh creator) "attempt.started" (.payload payload) .nobody
  else if ready then
    .ok (.write { room with state := .waitingForComplementaryRole } "member.ready"
      (.payload payload) .nobody)
  else .ok (.write { room with state := .readyCheck } "member.not_ready" (.payload payload) .nobody)

def readyCommand (room : Room) (now : Time) (fresh : AttemptId) (memberId : MemberId)
    (payload : Payload) : Except Exn Effect := do
  let ready := payload.ready.getD true
  let role := payload.switchRoomRole
  raiseIf (ready ∧ role = none)
    (.authority 400 "choose Group Leader or Joining before connecting")
  let room := room.setReadiness memberId ready role
  match room.attempt.filter (!·.phase.terminal) with
  | some attempt =>
    -- `ready` holds past the guard, so the member's new role is `role`.
    raiseIf (¬ ready ∨ role ≠ attempt.localSwitchRole memberId)
      (.authority 409 "finish connection teardown before changing roles")
    return .write room "member.ready" (.payload payload) .nobody
  | none => room.settleReadiness now fresh ready payload

def heartbeatCommand (room : Room) (now : Time) (memberId : MemberId) (payload : Payload) :
    Effect :=
  .write
    (room.modifyMember memberId fun m =>
      { m with onlineState := .online, reconnectDeadline := none, lastSeenEpoch := now })
    "member.heartbeat" (.payload payload) .nobody

def attemptCommand (room : Room) (now : Time) (fresh : AttemptId) (payload : Payload) :
    Except Exn Effect :=
  if room.attemptActive then .ok .replay
  else do
    raiseIf (room.active.length ≠ 2 ∨ room.active.any (·.readyState ≠ .ready))
      (.authority 409 "both members must be ready")
    raiseIf (¬ complementaryRoles room.active)
      (.authority 409 "one trainer must choose Group Leader and the other must choose Joining")
    let creator ← orRaise (creatorOf room.active) .stopIteration
    return .write (room.beginAttempt now fresh creator) "attempt.started" (.payload payload) .nobody

def claimCreatorCommand (room : Room) (now : Time) (memberId : MemberId) (payload : Payload) :
    Except Exn Effect := do
  let attempt ← orRaise (room.attempt.filter (!·.roleLocked))
    (.authority 409 "creator role cannot be claimed")
  let attempt := if attempt.creatorMemberId = none then
      { attempt with
        creatorMemberId := some memberId, phase := .creatorGuidance, updatedAt := now }
    else attempt
  return .write { room with attempt := some attempt } "attempt.creator_claimed" (.payload payload)
    .nobody

def transferCreatorCommand (room : Room) (now : Time) (memberId : MemberId) (payload : Payload) :
    Except Exn Effect := do
  let attempt ← orRaise
    (room.attempt.filter fun a => !a.roleLocked && a.creatorMemberId = some memberId)
    (.authority 409 "creator role cannot be transferred")
  let target ← orRaise
    (payload.targetMemberId.filter fun t => room.active.any (·.memberId = t))
    (.authority 400 "target member is not active")
  return .write
    { room with attempt := some { attempt with creatorMemberId := some target, updatedAt := now } }
    "attempt.creator_transferred" (.payload payload) .nobody

/-- `lock_role`. Unlike `phase` it compares the phase with nothing. -/
def lockRoleCommand (room : Room) (now : Time) (payload : Payload) : Except Exn Effect := do
  let attempt ← orRaise (room.attempt.filter (·.creatorMemberId.isSome))
    (.authority 409 "creator role has not been assigned")
  return .write
    { room with attempt := some { attempt with
        roleLocked := true, roleLockVersion := room.roomVersion + 1
        phase := .connectingSwitches, updatedAt := now } }
    "attempt.role_locked" (.payload payload) .nobody

/-- The document after the accepted change to `phase`. -/
def enterPhase (room : Room) (now : Time) (attempt : Attempt) (phase : AttemptPhase)
    (failureCode : Option String) : Room :=
  let moved := { attempt with
    phase := phase
    recoverableError := if failureCode.isSome then failureCode else attempt.recoverableError
    updatedAt := now }
  if phase = .tradingRoom then { room with attempt := some moved, state := .trading }
  else if phase.terminal then
    { room.unreadyActive with attempt := some moved, state := .readyCheck }
  else { room with attempt := some moved }

/-- A specific failure code replaces the generic loss of the peer. -/
def refines (attempt : Attempt) (phase : AttemptPhase) (failureCode : Option String) : Bool :=
  phase = .failed && attempt.recoverableError = some "relay.peer_lost" &&
    failureCode ≠ some "relay.peer_lost"

def phaseCommand (room : Room) (now : Time) (payload : Payload) : Except Exn Effect := do
  let phase ← orRaise payload.phase (.authority 400 "invalid attempt phase")
  let attempt ← orRaise room.attempt (.authority 400 "invalid attempt phase")
  let failureCode ← payload.phaseFailureCode phase
  if attempt.phase = phase then
    if refines attempt phase failureCode then
      let refined := { attempt with recoverableError := failureCode, updatedAt := now }
      return .write { room with attempt := some refined } "attempt.failure_refined"
        (.payload payload) .nobody
    else return .replay
  else do
    raiseIf (attempt.phase.terminal ∨ attemptPhaseOrder phase < attemptPhaseOrder attempt.phase)
      (.authority 409 "attempt phase cannot move backward")
    return .write (room.enterPhase now attempt phase failureCode) ("attempt." ++ phase.name)
      (.payload payload) .nobody

/-- One member is gone: the room drops the attempt and waits for a partner again. -/
def dropMember (room : Room) (now : Time) (memberId : MemberId) : Room :=
  { (room.modifyMember memberId fun m => { m with onlineState := .left }).unreadyAll with
    attempt := none
    state := .waitingForPartner
    waitingExpiresAtEpoch := some (min (now + waitingTtlSeconds) room.expiresAtEpoch) }

def leaveCommand (room : Room) (now : Time) (memberId : MemberId) (payload : Payload) :
    Except Exn Effect := do
  raiseIf (room.ownerMemberId = memberId) (.authority 409 "the room owner must close the room")
  raiseIf room.teardownPending (.authority 409 "finish connection teardown before leaving")
  return .write (room.dropMember now memberId) "member.left" (.payload payload) (.member memberId)

def removeOfflineCommand (room : Room) (now : Time) (memberId : MemberId) (payload : Payload) :
    Except Exn Effect := do
  raiseIf (room.ownerMemberId ≠ memberId)
    (.authority 403 "only the room owner can remove an offline member")
  raiseIf room.teardownPending
    (.authority 409 "finish connection teardown before removing a member")
  let target ← orRaise ((payload.targetMemberId.bind room.member?).filter (·.memberId ≠ memberId))
    (.authority 400 "offline member is invalid")
  raiseIf (target.onlineState ≠ .offline)
    (.authority 409 "member reconnect grace has not expired")
  return .write (room.dropMember now target.memberId) "member.removed" (.payload payload)
    (.member target.memberId)

/-- `close`. The active attempt is canceled whatever it is doing. -/
def closeCommand (room : Room) (now : Time) (memberId : MemberId) (payload : Payload) :
    Except Exn Effect := do
  raiseIf (room.ownerMemberId ≠ memberId) (.authority 403 "only the room owner can close this room")
  let attempt := room.attempt.map fun a =>
    if a.phase.terminal then a else { a with phase := .canceled, updatedAt := now }
  return .write { room with attempt := attempt, state := .closed } "room.closed" (.payload payload)
    .everybody

/-- The dispatch of `mutate` on the action. -/
def dispatch (room : Room) (now : Time) (fresh : AttemptId) (memberId : MemberId) (action : Action)
    (payload : Payload) : Except Exn Effect :=
  match action with
  | .ready => room.readyCommand now fresh memberId payload
  | .heartbeat => .ok (room.heartbeatCommand now memberId payload)
  | .attempt => room.attemptCommand now fresh payload
  | .claimCreator => room.claimCreatorCommand now memberId payload
  | .transferCreator => room.transferCreatorCommand now memberId payload
  | .lockRole => room.lockRoleCommand now payload
  | .phase => room.phaseCommand now payload
  | .leave => room.leaveCommand now memberId payload
  | .removeOffline => room.removeOfflineCommand now memberId payload
  | .close => room.closeCommand now memberId payload
  | .other _ => .error (.authority 404 "unknown room command")

/-- A stale version is answered by the attempt that already runs. -/
def staleReplay (room : Room) (action : Action) (payload : Payload) : Bool :=
  (action = .attempt && room.attemptActive) ||
    (action = .claimCreator &&
      room.attempt.any fun a => a.creatorMemberId.isSome && payload.attemptId = some a.attemptId)

/-- `mutate`, from the loaded room and the idempotency check on. -/
def mutate (room : Room) (now : Time) (fresh : AttemptId) (memberId : MemberId) (action : Action)
    (payload : Payload) (expectedVersion : Option Nat) : Except Exn Effect := do
  raiseIf (¬ room.isOpen) (.authority 409 "trade room is not active")
  let stale := expectedVersion.any (· ≠ room.roomVersion)
  if stale && room.staleReplay action payload then
    return .replay
  else do
    raiseIf (stale ∧ ¬ action.ignoresVersion) (.authority 409 "room version conflict")
    raiseIf (room.member? memberId = none) .stopIteration
    raiseIf (action.namesAttempt ∧
        ¬ room.attempt.any (fun a => payload.attemptId = some a.attemptId))
      (.authority 409 "connection attempt is stale")
    room.dispatch now fresh memberId action payload

/-! ## Joining, reconnecting, presence -/

/-- `_join_room`, before the version and the event. -/
def joinRoom (room : Room) (now : Time) (memberId : MemberId) (display : String) :
    Except Exn Room := do
  raiseIf (2 ≤ room.active.length) (.authority 409 "trade room is full")
  return { room with
    members := room.active ++
      [{ memberId, seat := .memberB, displayName := String.ofList (display.toList.take 40)
         onlineState := .online, readyState := .notReady, switchRoomRole := none
         joinedAt := now, reconnectDeadline := none, lastSeenEpoch := now }]
    state := .readyCheck
    waitingExpiresAtEpoch := none }

/-- `reconnect`, between the credential row and its update. -/
def reconnectMember (room : Room) (now : Time) (memberId : MemberId) (credentialActive : Bool) :
    Except Exn Room := do
  let member ← orRaise (room.member? memberId) .stopIteration
  raiseIf (¬ room.isOpen ∨ member.onlineState = .left) (.authority 410 "trade room is not active")
  raiseIf (member.onlineState = .offline ∨ member.reconnectDeadline.any (· ≤ now))
    (.authority 410 "reconnect deadline expired")
  raiseIf (¬ credentialActive) (.authority 401 "reconnect credential is invalid")
  return room.modifyMember memberId fun m =>
    { m with onlineState := .online, reconnectDeadline := none, lastSeenEpoch := now }

/-- The room is due for expiry. `none` is the `TypeError` of comparing a missing waiting
deadline with the clock. -/
def expiryDue (room : Room) (now : Time) : Option Bool :=
  match room.state, room.waitingExpiresAtEpoch with
  | .waitingForPartner, none => none
  | .waitingForPartner, some waiting => some (room.expiresAtEpoch ≤ now || waiting ≤ now)
  | _, _ => some (room.isOpen && room.expiresAtEpoch ≤ now)

/-- The D6 timeout of `sweep_presence`: `none` when no barrier is overdue. -/
def sweepBarrier (room : Room) (now : Time) : Option Room :=
  match room.attempt with
  | none => none
  | some attempt =>
    match attempt.d with
    | none => none
    | some d =>
      if attempt.phase = .closing ∧ d.deadlineAt ≤ now then
        some (room.terminalizeD attempt d .forcedTimeout .failed (some "D_BARRIER_TIMEOUT") now)
      else none

/-- The member at position `i` went offline for good: it loses its readiness, and an
attempt that is neither closing nor finished fails. -/
def expireMember (room : Room) (now : Time) (i : Nat) : Room :=
  let room := room.modifyAt i fun m => { m.unready with onlineState := .offline }
  match room.attempt with
  | none => room
  | some attempt =>
    if attempt.phase = .closing ∨ attempt.phase.terminal then room
    else
      { room.unreadyAll with
        attempt := some { attempt with
          phase := .failed, recoverableError := some "member.reconnect_expired", updatedAt := now }
        state := .readyCheck }

/-- What one sweep does to the member at position `i`: the document, the event, and
whether the member went offline. -/
def sweepMember (room : Room) (now : Time) (i : Nat) : Option (Room × String × MemberId × Bool) :=
  match room.members[i]? with
  | none => none
  | some member =>
    if member.onlineState = .online ∧ offlineDetectionSeconds < now - member.lastSeenEpoch then
      some (room.modifyAt i fun m =>
          { m with
            onlineState := .reconnecting
            reconnectDeadline := some (now + reconnectSeconds) },
        "member.reconnecting", member.memberId, false)
    else if member.onlineState = .reconnecting ∧ member.reconnectDeadline.any (· ≤ now) then
      some (room.expireMember now i, "member.offline", member.memberId, true)
    else none

end Room

end SwitchTrade.Authority

import Mathlib.Data.List.Basic

/-!
# The room document of the authority store

The authority keeps one JSON document per trade room. This file gives its fields the
types the code keeps them in; `Commands.lean` holds what the commands do to one document
and `Store.lean` the tables around it.

Time is counted in microseconds, the resolution `_utc` prints, so writing a deadline to
the document and parsing it back is exact. Identifiers and tokens are drawn from one
supply that never repeats a value (`uuid7`, `secrets.token_urlsafe`). Fields that no
command reads or writes after creation and that carry one constant (`contract_version`,
`compatibility`, `device_readiness`, `parties`) are left out.
-/

namespace SwitchTrade.Authority

/-! ## Identifiers and time -/

abbrev Time := Nat
abbrev RoomId := Nat
abbrev MemberId := Nat
abbrev AttemptId := Nat
abbrev ListingId := Nat
abbrev Token := Nat
abbrev RoomCode := String
abbrev CommandId := String
abbrev ClientId := String

/-- `_hash`: the store only ever compares SHA-256 digests of tokens, so a digest is the
token it was computed from. -/
structure TokenHash where
  token : Token
  deriving DecidableEq, Repr

def second : Time := 1000000

def roomTtlSeconds : Time := 6 * 60 * 60 * second
def waitingTtlSeconds : Time := 30 * 60 * second
def offlineDetectionSeconds : Time := 45 * second
def reconnectSeconds : Time := 90 * second
def secretResponseSeconds : Time := 10 * 60 * second
def commandRetentionSeconds : Time := 24 * 60 * 60 * second
def authorityRetentionSeconds : Time := 14 * 24 * 60 * 60 * second
def dBarrierSeconds : Time := 30 * second

/-! ## Enumerations -/

inductive Seat where
  | memberA | memberB
  deriving DecidableEq, Repr

def Seat.other : Seat → Seat
  | .memberA => .memberB
  | .memberB => .memberA

inductive OnlineState where
  | online | reconnecting | offline | left
  deriving DecidableEq, Repr

inductive ReadyState where
  | ready | notReady
  deriving DecidableEq, Repr

inductive SwitchRoomRole where
  | creator | finder
  deriving DecidableEq, Repr

inductive RoomState where
  | waitingForPartner | readyCheck | waitingForComplementaryRole | connectionAttempt
  | trading | closed | expired
  deriving DecidableEq, Repr

/-- The keys of `ATTEMPT_PHASE_ORDER`. -/
inductive AttemptPhase where
  | creatorGuidance | connectingSwitches | discoveringRealRoom | advertisingMirrorRoom
  | tradingRoom | reconnecting | recovering | closing | completed | canceled | failed
  deriving DecidableEq, Repr

/-- `ATTEMPT_PHASE_ORDER`. -/
def attemptPhaseOrder : AttemptPhase → Nat
  | .creatorGuidance => 0
  | .connectingSwitches => 1
  | .discoveringRealRoom => 2
  | .advertisingMirrorRoom => 2
  | .tradingRoom => 3
  | .reconnecting => 4
  | .recovering => 5
  | .closing => 6
  | .completed => 7
  | .canceled => 7
  | .failed => 7

/-- Membership in `TERMINAL_ATTEMPT_PHASES`. -/
def AttemptPhase.terminal : AttemptPhase → Bool
  | .completed | .canceled | .failed => true
  | _ => false

theorem AttemptPhase.terminal_iff (p : AttemptPhase) :
    p.terminal = true ↔ attemptPhaseOrder p = 7 := by
  cases p <;> decide

theorem AttemptPhase.order_le (p : AttemptPhase) : attemptPhaseOrder p ≤ 7 := by
  cases p <;> decide

/-- The name of a phase, as it stands in the document and in event types. -/
def AttemptPhase.name : AttemptPhase → String
  | .creatorGuidance => "creator_guidance"
  | .connectingSwitches => "connecting_switches"
  | .discoveringRealRoom => "discovering_real_room"
  | .advertisingMirrorRoom => "advertising_mirror_room"
  | .tradingRoom => "trading_room"
  | .reconnecting => "reconnecting"
  | .recovering => "recovering"
  | .closing => "closing"
  | .completed => "completed"
  | .canceled => "canceled"
  | .failed => "failed"

/-- The members of `D_OUTCOMES`. -/
inductive DOutcome where
  | completed | canceled | failed
  deriving DecidableEq, Repr

/-- An outcome is the name of a terminal phase. -/
def DOutcome.phase : DOutcome → AttemptPhase
  | .completed => .completed
  | .canceled => .canceled
  | .failed => .failed

@[simp] theorem DOutcome.terminal_phase (o : DOutcome) : o.phase.terminal = true := by
  cases o <;> rfl

@[simp] theorem DOutcome.order_phase (o : DOutcome) : attemptPhaseOrder o.phase = 7 := by
  cases o <;> rfl

inductive BarrierStatus where
  | waitingForSides | twoSideTerminal | forcedTimeout | forcedFailure
  deriving DecidableEq, Repr

inductive CleanupStatus where
  | pending | verified | failed
  deriving DecidableEq, Repr

/-! ## The document -/

/-- `evidence` of one quiescent report: the fields of `D_QUIESCENT_FIELDS`. -/
structure DEvidence where
  endpointExited : Bool
  transportExited : Bool
  threadsExited : Bool
  ldnReleased : Bool
  interfacesAbsent : Bool
  forced : Bool
  deriving DecidableEq, Repr

/-- Every flag but `forced` holds, and `forced` does not. -/
def DEvidence.verified (e : DEvidence) : Bool :=
  (e.endpointExited && e.transportExited && e.threadsExited && e.ldnReleased &&
    e.interfacesAbsent) && !e.forced

/-- One seat's recorded D5 report. -/
structure DSideReport where
  runId : String
  stageGeneration : Int
  launchIdentitySha256 : String
  evidence : DEvidence
  acknowledgedAt : Time
  deriving DecidableEq, Repr

/-- `sides` of a closing attempt. -/
structure DSides where
  memberA : Option DSideReport
  memberB : Option DSideReport
  deriving DecidableEq, Repr

def DSides.get (s : DSides) : Seat → Option DSideReport
  | .memberA => s.memberA
  | .memberB => s.memberB

def DSides.set (s : DSides) (seat : Seat) (r : DSideReport) : DSides :=
  match seat with
  | .memberA => { s with memberA := some r }
  | .memberB => { s with memberB := some r }

/-- `attempt.d`: the frozen closing intent and the state of its D6 barrier. -/
structure DState where
  activationGeneration : Int
  intentGeneration : Int
  outcome : DOutcome
  primaryFailureCode : Option String
  lastPassedGate : String
  initiatedBySeat : Seat
  startedAt : Time
  deadlineAt : Time
  sides : DSides
  barrierStatus : BarrierStatus
  cleanupStatus : CleanupStatus
  secondaryFailureCode : Option String
  terminalizedAt : Option Time
  deriving DecidableEq, Repr

structure Attempt where
  attemptId : AttemptId
  attemptNumber : Nat
  activationGeneration : Nat
  phase : AttemptPhase
  creatorMemberId : Option MemberId
  roleLocked : Bool
  roleLockVersion : Nat
  startedAt : Time
  updatedAt : Time
  retryCount : Nat
  recoverableError : Option String
  d : Option DState
  deriving DecidableEq, Repr

structure Member where
  memberId : MemberId
  seat : Seat
  displayName : String
  onlineState : OnlineState
  readyState : ReadyState
  switchRoomRole : Option SwitchRoomRole
  joinedAt : Time
  reconnectDeadline : Option Time
  lastSeenEpoch : Time
  deriving DecidableEq, Repr

structure Profile where
  ownerDisplayName : String
  game : String
  language : String
  deriving DecidableEq, Repr

inductive Visibility where
  | privateRoom | publicRoom
  deriving DecidableEq, Repr

/-- `room["directory"]`, present in public rooms only. -/
structure Directory where
  listingId : ListingId
  offering : String
  wanted : String
  note : String
  deriving DecidableEq, Repr

/-- One document of the `rooms` table. The columns `room_id`, `room_code`, `directory_id`
and `expires_at` of its row are copies of fields of the document. -/
structure Room where
  roomId : RoomId
  roomVersion : Nat
  name : String
  visibility : Visibility
  roomCode : RoomCode
  profile : Profile
  ownerMemberId : MemberId
  state : RoomState
  createdAt : Time
  expiresAtEpoch : Time
  waitingExpiresAtEpoch : Option Time
  members : List Member
  attempt : Option Attempt
  lastAttemptNumber : Option Nat
  directory : Option Directory
  lastEventSequence : Nat
  deriving DecidableEq, Repr

/-- What the code does to a member when readiness is withdrawn. -/
def Member.unready (m : Member) : Member :=
  { m with readyState := .notReady, switchRoomRole := none }

namespace Room

/-- The members that have not left. -/
def active (room : Room) : List Member := room.members.filter (·.onlineState ≠ .left)

def member? (room : Room) (id : MemberId) : Option Member :=
  room.members.find? (·.memberId = id)

/-- Rewrite the entry of one member in place. -/
def modifyMember (room : Room) (id : MemberId) (f : Member → Member) : Room :=
  { room with members := room.members.map fun m => if m.memberId = id then f m else m }

/-- Rewrite the entry at one position, as a loop over the members does. -/
def modifyAt (room : Room) (i : Nat) (f : Member → Member) : Room :=
  { room with members := room.members.modify i f }

/-- The room is in none of the two states no command reopens. -/
def isOpen (room : Room) : Bool := room.state ≠ .closed && room.state ≠ .expired

/-- Withdraw the readiness of every member that has not left. -/
def unreadyActive (room : Room) : Room :=
  { room with members := room.members.map fun m =>
      if m.onlineState ≠ .left then m.unready else m }

/-- Withdraw the readiness of every member, left or not. -/
def unreadyAll (room : Room) : Room := { room with members := room.members.map Member.unready }

end Room

/-! ## The projection returned to a member -/

structure MemberView where
  memberId : MemberId
  seat : Seat
  displayName : String
  onlineState : OnlineState
  readyState : ReadyState
  switchRoomRole : Option SwitchRoomRole
  joinedAt : Time
  reconnectDeadline : Option Time
  isLocal : Bool
  deriving DecidableEq, Repr

structure AttemptView extends Attempt where
  localSwitchRole : Option SwitchRoomRole
  deriving DecidableEq, Repr

/-- The document without its two epoch fields, as one member sees it. -/
structure RoomView where
  roomId : RoomId
  roomVersion : Nat
  name : String
  visibility : Visibility
  roomCode : RoomCode
  profile : Profile
  ownerMemberId : MemberId
  state : RoomState
  createdAt : Time
  expiresAt : Time
  members : List MemberView
  attempt : Option AttemptView
  lastAttemptNumber : Option Nat
  directory : Option Directory
  lastEventSequence : Nat
  localMemberId : MemberId
  deriving DecidableEq, Repr

/-- The role an attempt assigns to a member while it is active. -/
def Attempt.localSwitchRole (attempt : Attempt) (localMemberId : MemberId) :
    Option SwitchRoomRole :=
  if attempt.phase.terminal then none
  else if attempt.creatorMemberId = some localMemberId then some .creator
  else if attempt.creatorMemberId.isSome then some .finder
  else none

def Member.view (m : Member) (localMemberId : MemberId) : MemberView where
  memberId := m.memberId
  seat := m.seat
  displayName := m.displayName
  onlineState := m.onlineState
  readyState := m.readyState
  switchRoomRole := m.switchRoomRole
  joinedAt := m.joinedAt
  reconnectDeadline := m.reconnectDeadline
  isLocal := m.memberId = localMemberId

/-- `_public`. -/
def Room.public (room : Room) (localMemberId : MemberId) : RoomView where
  roomId := room.roomId
  roomVersion := room.roomVersion
  name := room.name
  visibility := room.visibility
  roomCode := room.roomCode
  profile := room.profile
  ownerMemberId := room.ownerMemberId
  state := room.state
  createdAt := room.createdAt
  expiresAt := room.expiresAtEpoch
  members := room.members.map (·.view localMemberId)
  attempt := room.attempt.map fun a => { a with localSwitchRole := a.localSwitchRole localMemberId }
  lastAttemptNumber := room.lastAttemptNumber
  directory := room.directory
  lastEventSequence := room.lastEventSequence
  localMemberId := localMemberId

end SwitchTrade.Authority

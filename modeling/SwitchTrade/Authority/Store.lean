import SwitchTrade.Authority.Commands
import SwitchTrade.Transition.Cursor
import SwitchTrade.Transition.Run
import Mathlib.Data.List.Basic

/-!
# The tables and operations of `AuthorityStore`

The database is the four tables the store writes. A transaction runs a function from the
database to its next content; when it raises, the content before it is kept
(`Store.transaction`). Two parts of the store live outside the database and survive a
rollback: the in-memory cache of secret responses, and the supply the random identifiers
and tokens are drawn from.

`Op` is one call of the store and `Store.step` its effect; `system` starts from an empty
database and takes any calls, with any clock readings, in any order. One call reads the
clock once.
-/

namespace SwitchTrade.Authority

open Fallible

/-! ## Tables -/

/-- The idempotency scope of a command. -/
inductive Scope where
  | create (client : ClientId)
  | join (client : ClientId) (code : RoomCode)
  | publicJoin (client : ClientId) (listing : ListingId)
  | member (id : MemberId) (action : Action)
  | dClosing (id : MemberId) (attempt : AttemptId)
  | dQuiescent (id : MemberId) (attempt : AttemptId)
  | reconnect (room : RoomId) (token : TokenHash)
  deriving DecidableEq, Repr

/-- A response the store returns or remembers. -/
inductive Response where
  | room (view : RoomView)
  | secret (view : RoomView) (memberToken reconnectToken : Token)
  | completed (roomId : RoomId)
  deriving DecidableEq, Repr

structure CredentialRow where
  tokenHash : TokenHash
  reconnectHash : TokenHash
  previousReconnectHash : Option TokenHash
  previousReconnectUntil : Option Time
  roomId : RoomId
  memberId : MemberId
  active : Bool
  deriving DecidableEq, Repr

structure CommandRow where
  scope : Scope
  commandId : CommandId
  response : Response
  createdAt : Time
  deriving DecidableEq, Repr

structure EventRow where
  sequence : Nat
  roomId : RoomId
  roomVersion : Nat
  eventType : String
  actorMemberId : Option MemberId
  occurredAt : Time
  data : EventData
  deriving DecidableEq, Repr

/-- The tables; `eventSequence` is the last value the events' AUTOINCREMENT key took. -/
structure Database where
  rooms : List Room
  credentials : List CredentialRow
  commands : List CommandRow
  events : List EventRow
  eventSequence : Nat
  deriving DecidableEq, Repr

namespace Database

def empty : Database :=
  { rooms := [], credentials := [], commands := [], events := [], eventSequence := 0 }

/-- `SELECT document FROM rooms WHERE room_id=?`. -/
def room? (db : Database) (roomId : RoomId) : Option Room :=
  db.rooms.find? (·.roomId = roomId)

/-- `_save`. -/
def save (db : Database) (room : Room) : Database :=
  { db with rooms := db.rooms.map fun r => if r.roomId = room.roomId then room else r }

/-- `_event`: append the event of the room's current version and remember its sequence. -/
def event (db : Database) (now : Time) (room : Room) (eventType : String)
    (actor : Option MemberId) (data : EventData) : Database × Room :=
  let sequence := db.eventSequence + 1
  ({ db with
      events := db.events ++
        [{ sequence, roomId := room.roomId, roomVersion := room.roomVersion, eventType,
           actorMemberId := actor, occurredAt := now, data }]
      eventSequence := sequence },
   { room with lastEventSequence := sequence })

/-- `room["room_version"] += 1` followed by `_event`. -/
def record (db : Database) (now : Time) (room : Room) (eventType : String)
    (actor : Option MemberId) (data : EventData) : Database × Room :=
  db.event now { room with roomVersion := room.roomVersion + 1 } eventType actor data

/-- `UPDATE credentials SET active=0` for the rows a command revokes. -/
def revoke (db : Database) (roomId : RoomId) (revoked : Revoked) : Database :=
  let hit (row : CredentialRow) : Bool :=
    match revoked with
    | .nobody => false
    | .member id => row.roomId = roomId && row.memberId = id
    | .everybody => row.roomId = roomId
  { db with credentials := db.credentials.map fun row =>
      if hit row then { row with active := false } else row }

/-- `_load`: read the document and expire it when it is due. -/
def load (db : Database) (now : Time) (roomId : RoomId) : Except Exn (Database × Room) := do
  let room ← orRaise (db.room? roomId) (.authority 404 "trade room not found")
  let due ← orRaise (room.expiryDue now) .typeError
  if due then
    let (db, room) := db.record now { room with state := .expired } "room.expired" none .empty
    return ((db.revoke roomId .everybody).save room, room)
  else return (db, room)

/-- `_credentials`; `roomId` restricts the rooms the bearer may address. -/
def credentialsFor (db : Database) (now : Time) (bearer : Token) (roomId : Option RoomId) :
    Except Exn (Database × Room × MemberId) := do
  let row ← orRaise (db.credentials.find? fun row => row.tokenHash = ⟨bearer⟩ && row.active)
    (.authority 401 "member credential is invalid")
  raiseIf (roomId.any (· ≠ row.roomId))
    (.authority 403 "member credential does not belong to this room")
  let (db, room) ← db.load now row.roomId
  return (db, room, row.memberId)

/-- `_command_response`. -/
def commandResponse (db : Database) (scope : Scope) (commandId : CommandId) :
    Except Exn (Option Response) := do
  raiseIf (commandId = "") (.authority 400 "Idempotency-Key is required")
  return (db.commands.find? fun row => row.scope = scope && row.commandId = commandId).map
    (·.response)

/-- `_remember`. -/
def remember (db : Database) (now : Time) (scope : Scope) (commandId : CommandId)
    (response : Response) : Database :=
  { db with commands := db.commands ++ [{ scope, commandId, response, createdAt := now }] }

/-! ## Member commands -/

/-- The shape `mutate`, `begin_d_closing` and `acknowledge_d_quiescent` share: authenticate,
answer a repeated command from the table, and otherwise write what the command decides. -/
def memberCommand (db : Database) (now : Time) (roomId : RoomId) (bearer : Token)
    (commandId : CommandId) (scope : MemberId → Scope)
    (command : Room → MemberId → Except Exn Effect) : Except Exn (Response × Database) := do
  let (db, room, memberId) ← db.credentialsFor now bearer (some roomId)
  match ← db.commandResponse (scope memberId) commandId with
  | some cached => return (cached, db)
  | none =>
    match ← command room memberId with
    | .replay =>
      let response := Response.room (room.public memberId)
      return (response, db.remember now (scope memberId) commandId response)
    | .write room event data revoked =>
      let (db, room) := (db.revoke roomId revoked).record now room event (some memberId) data
      let response := Response.room (room.public memberId)
      return (response, (db.save room).remember now (scope memberId) commandId response)

/-- `mutate`. -/
def mutate (db : Database) (now : Time) (fresh : AttemptId) (roomId : RoomId) (bearer : Token)
    (commandId : CommandId) (action : Action) (payload : Payload) (expectedVersion : Option Nat) :
    Except Exn (Response × Database) :=
  db.memberCommand now roomId bearer commandId (.member · action) fun room memberId =>
    room.mutate now fresh memberId action payload expectedVersion

/-- `begin_d_closing`. -/
def beginDClosing (db : Database) (now : Time) (roomId : RoomId) (bearer : Token)
    (commandId : CommandId) (attemptId : AttemptId) (payload : DClosingPayload)
    (expectedVersion : Nat) : Except Exn (Response × Database) :=
  db.memberCommand now roomId bearer commandId (.dClosing · attemptId) fun room memberId =>
    room.beginDClosing now memberId attemptId payload expectedVersion

/-- `acknowledge_d_quiescent`. -/
def acknowledgeDQuiescent (db : Database) (now : Time) (roomId : RoomId) (bearer : Token)
    (commandId : CommandId) (attemptId : AttemptId) (payload : DQuiescentPayload)
    (expectedVersion : Nat) : Except Exn (Response × Database) :=
  db.memberCommand now roomId bearer commandId (.dQuiescent · attemptId) fun room memberId =>
    room.acknowledgeDQuiescent now memberId attemptId payload expectedVersion

/-! ## Commands of the relay itself -/

/-- `fail_transport_attempt`. -/
def failTransportAttempt (db : Database) (now : Time) (roomId : RoomId) (attemptId : AttemptId)
    (code : String) : Except Exn (Bool × Database) := do
  let (db, room) ← db.load now roomId
  match room.failTransportAttempt now attemptId code with
  | none => return (false, db)
  | some room =>
    let (db, room) := db.record now room "attempt.failed" none (.code code)
    return (true, db.save room)

/-- `force_d_barrier`. -/
def forceDBarrier (db : Database) (now : Time) (roomId : RoomId) (attemptId : AttemptId)
    (code : String) : Except Exn (Bool × Database) := do
  raiseIf (¬ dCode code) (.authority 400 "D secondary failure code is invalid")
  let (db, room) ← db.load now roomId
  match room.forceDBarrier now attemptId code with
  | none => return (false, db)
  | some room =>
    let (db, room) := db.record now room "attempt.d_barrier_forced" none (.code code)
    return (true, db.save room)

/-- One iteration of the member loop of `sweep_presence`. -/
def sweepMemberAt (now : Time) (acc : Database × Room) (i : Nat) : Database × Room :=
  match acc.2.sweepMember now i with
  | none => acc
  | some (room, event, memberId, offline) =>
    let db := if offline then acc.1.revoke room.roomId (.member memberId) else acc.1
    db.record now room event (some memberId) .empty

/-- One iteration of the room loop of `sweep_presence`. Saving a document nothing changed
is the identity. -/
def sweepRoom (now : Time) (acc : Database × List (RoomCode × AttemptId)) (roomId : RoomId) :
    Except Exn (Database × List (RoomCode × AttemptId)) := do
  let (db, room) ← acc.1.load now roomId
  if ¬ room.isOpen then return (db, acc.2)
  else
    let (db, room, expired) :=
      match room.sweepBarrier now, room.attempt with
      | some swept, some attempt =>
        let (db, swept) := db.record now swept "attempt.d_barrier_timeout" none
          (.code "D_BARRIER_TIMEOUT")
        (db, swept, acc.2 ++ [(room.roomCode, attempt.attemptId)])
      | _, _ => (db, room, acc.2)
    let (db, room) := (List.range room.members.length).foldl (sweepMemberAt now) (db, room)
    return (db.save room, expired)

/-- The two `DELETE` statements at the end of `sweep_presence`; the tables that reference
a deleted room cascade. -/
def purge (db : Database) (now : Time) : Database :=
  let dead (room : Room) : Bool :=
    room.expiresAtEpoch < now - authorityRetentionSeconds && !room.isOpen
  let gone (roomId : RoomId) : Bool := db.rooms.any fun room => dead room && room.roomId = roomId
  { db with
    commands := db.commands.filter fun row => ¬ row.createdAt < now - commandRetentionSeconds
    rooms := db.rooms.filter fun room => !dead room
    credentials := db.credentials.filter fun row => !gone row.roomId
    events := db.events.filter fun row => !gone row.roomId }

/-- `sweep_presence`. -/
def sweepPresence (db : Database) (now : Time) :
    Except Exn (List (RoomCode × AttemptId) × Database) := do
  let (db, expired) ← (db.rooms.map (·.roomId)).foldlM (sweepRoom now) (db, [])
  return (expired, db.purge now)

end Database

/-! ## The store -/

/-- The store of one relay process. -/
structure Store where
  db : Database
  /-- `_ephemeral_responses`: scope and command, the instant the entry lapses, the response. -/
  ephemeral : List ((Scope × CommandId) × Time × Response)
  /-- The next value `uuid7` and `secrets.token_urlsafe` draw. -/
  supply : Nat
  deriving DecidableEq, Repr

/-- What `events` answers. -/
structure EventPage where
  roomId : RoomId
  localMemberId : MemberId
  events : List EventRow
  lastEventSequence : Nat
  deriving DecidableEq, Repr

/-- How many values one call may draw from the supply; every call moves it on by as many. -/
def drawsPerCall : Nat := 5

structure CreatePayload where
  name : String
  trainerDisplayName : String
  game : String := "None"
  language : String := "None"
  visibility : Option Visibility := some .privateRoom
  offering : String := ""
  wanted : String := ""
  note : String := ""
  deriving DecidableEq, Repr

/-- `str.isspace` for one character. -/
def isspace (c : Char) : Bool :=
  let n := c.toNat
  (9 ≤ n && n ≤ 13) || (28 ≤ n && n ≤ 32) || n = 0x85 || n = 0xa0 || n = 0x1680 ||
    (0x2000 ≤ n && n ≤ 0x200a) || n = 0x2028 || n = 0x2029 || n = 0x202f || n = 0x205f ||
    n = 0x3000

/-- `str.strip`. -/
def strip (s : String) : String :=
  String.ofList ((s.toList.dropWhile isspace).reverse.dropWhile isspace).reverse

/-- `s[:n]`. -/
def slice (n : Nat) (s : String) : String := String.ofList (s.toList.take n)

namespace Database

/-- `_owner_available`. -/
def ownerAvailable (room : Room) : Bool :=
  (room.member? room.ownerMemberId).any fun m =>
    m.onlineState = .online || m.onlineState = .reconnecting

/-- `INSERT INTO credentials` for a new member. -/
def addCredential (db : Database) (roomId : RoomId) (memberId : MemberId)
    (token reconnect : Token) : Database :=
  { db with credentials := db.credentials ++
      [{ tokenHash := ⟨token⟩, reconnectHash := ⟨reconnect⟩, previousReconnectHash := none
         previousReconnectUntil := none, roomId, memberId, active := true }] }

/-- `_new_code`: the first of at most a hundred drawn codes that no room uses. -/
def newCode (db : Database) (codes : List RoomCode) : Except Exn RoomCode :=
  orRaise ((codes.take 100).find? fun code => db.rooms.all (·.roomCode ≠ code))
    (.authority 503 "room code allocation failed")

/-- `create`, past the response cache. -/
def create (db : Database) (now : Time) (supply : Nat) (payload : CreatePayload)
    (codes : List RoomCode) : Except Exn ((RoomView × Token × Token) × Database) := do
  let name := strip payload.name
  let display := strip payload.trainerDisplayName
  raiseIf (name = "" ∨ display = "" ∨ payload.game = "None" ∨ payload.language = "None")
    (.authority 400 "room name, trainer name, game, and language are required")
  raiseIf (22 < name.length ∨ 20 < display.length)
    (.authority 400 "room name or trainer name is too long")
  let visibility ← orRaise payload.visibility (.authority 400 "room visibility is invalid")
  let offering := strip payload.offering
  let wanted := strip payload.wanted
  let note := strip payload.note
  raiseIf (80 < offering.length ∨ 80 < wanted.length ∨ 120 < note.length)
    (.authority 400 "public room metadata is too long")
  let code ← db.newCode codes
  let roomId := supply
  let memberId := supply + 1
  let room : Room :=
    { roomId, roomVersion := 1, name, visibility, roomCode := code
      profile := { ownerDisplayName := display, game := slice 20 payload.game
                   language := slice 20 payload.language }
      ownerMemberId := memberId
      state := .waitingForPartner
      createdAt := now
      expiresAtEpoch := now + roomTtlSeconds
      waitingExpiresAtEpoch := some (now + waitingTtlSeconds)
      members :=
        [{ memberId, seat := .memberA, displayName := slice 40 display
           onlineState := .online, readyState := .notReady, switchRoomRole := none
           joinedAt := now, reconnectDeadline := none, lastSeenEpoch := now }]
      attempt := none
      lastAttemptNumber := none
      directory := if visibility = .publicRoom then
          some { listingId := supply + 2, offering := slice 80 offering, wanted := slice 80 wanted
                 note := slice 120 note }
        else none
      lastEventSequence := 0 }
  let db := { db with rooms := db.rooms ++ [room] }
  let db := db.addCredential roomId memberId (supply + 3) (supply + 4)
  let (db, room) := db.event now room "room.created" (some memberId) .empty
  return ((room.public memberId, supply + 3, supply + 4), db.save room)

/-- `_join_room`. -/
def joinRoom (db : Database) (now : Time) (supply : Nat) (room : Room) (display : String) :
    Except Exn ((RoomView × Token × Token) × Database) := do
  let memberId := supply + 1
  let room ← room.joinRoom now memberId display
  let db := db.addCredential room.roomId memberId (supply + 3) (supply + 4)
  let (db, room) := db.record now room "member.joined" (some memberId) (.seat .memberB)
  return ((room.public memberId, supply + 3, supply + 4), db.save room)

/-- `str(...).strip() or "Trainer"`. -/
def displayOrTrainer (display : String) : String :=
  if strip display = "" then "Trainer" else strip display

/-- `join`, past the response cache. -/
def join (db : Database) (now : Time) (supply : Nat) (roomCode : RoomCode) (display : String) :
    Except Exn ((RoomView × Token × Token) × Database) := do
  let found ← orRaise (db.rooms.find? (·.roomCode = roomCode))
    (.authority 404 "trade room not found")
  let (db, room) ← db.load now found.roomId
  raiseIf (¬ room.isOpen) (.authority 410 "trade room is no longer available")
  db.joinRoom now supply room (displayOrTrainer display)

/-- `join_public`, past the response cache. -/
def joinPublic (db : Database) (now : Time) (supply : Nat) (listingId : ListingId)
    (display : String) : Except Exn ((RoomView × Token × Token) × Database) := do
  let found ← orRaise (db.rooms.find? fun room => room.directory.any (·.listingId = listingId))
    (.authority 404 "public room not found")
  let (db, room) ← db.load now found.roomId
  raiseIf (¬ room.isOpen ∨ ¬ ownerAvailable room) (.authority 410 "public room is stale")
  db.joinRoom now supply room (displayOrTrainer display)

/-- `reconnect`, past the response cache. -/
def reconnect (db : Database) (now : Time) (supply : Nat) (roomId : RoomId)
    (reconnectToken : Token) : Except Exn ((RoomView × Token × Token) × Database) := do
  let hash : TokenHash := ⟨reconnectToken⟩
  let row ← orRaise
    (db.credentials.find? fun row => row.roomId = roomId &&
      (row.reconnectHash = hash ||
        (row.previousReconnectHash = some hash && row.previousReconnectUntil.any (now < ·))))
    (.authority 401 "reconnect credential is invalid")
  let (db, room) ← db.load now roomId
  let room ← room.reconnectMember now row.memberId row.active
  let db := { db with credentials := db.credentials.map fun (r : CredentialRow) =>
      if r.memberId = row.memberId ∧ r.roomId = roomId then
        { r with
          tokenHash := ⟨supply + 3⟩, reconnectHash := ⟨supply + 4⟩
          previousReconnectHash := some row.reconnectHash
          previousReconnectUntil := some (now + reconnectSeconds) }
      else r }
  let (db, room) := db.record now room "member.reconnected" (some row.memberId) .empty
  return ((room.public row.memberId, supply + 3, supply + 4), db.save room)

end Database

/-- `client_id or 'anonymous'`. -/
def clientOrAnonymous (client : ClientId) : ClientId := if client = "" then "anonymous" else client

namespace Store

def initial : Store := { db := .empty, ephemeral := [], supply := 0 }

/-- Run one transaction: keep the database it leaves, or the one before it when it raises. -/
def transaction {α : Type} (s : Store) (body : Database → Except Exn (α × Database)) :
    Except Exn α × Store :=
  let s := { s with supply := s.supply + drawsPerCall }
  match body s.db with
  | .ok (a, db) => (.ok a, { s with db })
  | .error e => (.error e, s)

/-- `_secret_command_response`: the cached response, and the cache after its purges. -/
def secretCommandResponse (s : Store) (now : Time) (scope : Scope) (commandId : CommandId) :
    Except Exn (Option Response) × List ((Scope × CommandId) × Time × Response) :=
  if commandId = "" then (.error (.authority 400 "Idempotency-Key is required"), s.ephemeral)
  else
    let kept := if 4096 ≤ s.ephemeral.length then s.ephemeral.filter (now < ·.2.1) else s.ephemeral
    let cached := kept.find? (·.1 = (scope, commandId))
    if 4096 ≤ s.ephemeral.length ∧ 4096 ≤ kept.length ∧ cached = none then
      (.error (.authority 503 "room command cache is at capacity"), kept)
    else
      let row := s.db.commands.find? fun row => row.scope = scope && row.commandId = commandId
      match cached with
      | some (_, lapses, response) =>
        if now < lapses then (.ok (some response), kept)
        else
          let kept := kept.filter (·.1 ≠ (scope, commandId))
          if row.isSome then
            (.error (.authority 409 "command completed; use the reconnect flow"), kept)
          else (.ok none, kept)
      | none =>
        if row.isSome then
          (.error (.authority 409 "command completed; use the reconnect flow"), kept)
        else (.ok none, kept)

/-- The shape the commands that hand out tokens share: answer from the secret cache, or run
the command and remember its response there (`_remember_secret`). -/
def secretCommand (s : Store) (now : Time) (scope : Scope) (commandId : CommandId)
    (body : Database → Except Exn ((RoomView × Token × Token) × Database)) :
    Except Exn Response × Store :=
  let (found, ephemeral) := s.secretCommandResponse now scope commandId
  let s := { s with ephemeral, supply := s.supply + drawsPerCall }
  match found with
  | .error e => (.error e, s)
  | .ok (some cached) => (.ok cached, s)
  | .ok none =>
    match body s.db with
    | .error e => (.error e, s)
    | .ok ((view, token, reconnect), db) =>
      let response := Response.secret view token reconnect
      (.ok response,
        { s with
          db := db.remember now scope commandId (.completed view.roomId)
          ephemeral := s.ephemeral.filter (·.1 ≠ (scope, commandId)) ++
            [((scope, commandId), now + secretResponseSeconds, response)] })

def create (s : Store) (now : Time) (payload : CreatePayload) (commandId : CommandId)
    (client : ClientId) (codes : List RoomCode) : Except Exn Response × Store :=
  s.secretCommand now (.create (clientOrAnonymous client)) commandId fun db =>
    db.create now s.supply payload codes

def join (s : Store) (now : Time) (roomCode : RoomCode) (display : String)
    (commandId : CommandId) (client : ClientId) : Except Exn Response × Store :=
  s.secretCommand now (.join (clientOrAnonymous client) roomCode) commandId fun db =>
    db.join now s.supply roomCode display

def joinPublic (s : Store) (now : Time) (listingId : ListingId) (display : String)
    (commandId : CommandId) (client : ClientId) : Except Exn Response × Store :=
  s.secretCommand now (.publicJoin (clientOrAnonymous client) listingId) commandId fun db =>
    db.joinPublic now s.supply listingId display

def reconnect (s : Store) (now : Time) (roomId : RoomId) (reconnectToken : Token)
    (commandId : CommandId) : Except Exn Response × Store :=
  s.secretCommand now (.reconnect roomId ⟨reconnectToken⟩) commandId fun db =>
    db.reconnect now s.supply roomId reconnectToken

/-- `snapshot`: the credential is checked first, then the room is loaded, which may expire
it in a transaction of its own. -/
def snapshot (s : Store) (now : Time) (roomId : RoomId) (bearer : Token) :
    Except Exn RoomView × Store :=
  s.transaction fun db => do
    let (db, room, memberId) ← db.credentialsFor now bearer (some roomId)
    return (room.public memberId, db)

/-- `events`: like `snapshot`, then one page of the room's events. -/
def events (s : Store) (now : Time) (roomId : RoomId) (bearer : Token) (after limit : Int) :
    Except Exn EventPage × Store :=
  s.transaction fun db => do
    let (db, room, memberId) ← db.credentialsFor now bearer (some roomId)
    let rows := db.events.filter (·.roomId = roomId)
    let events :=
      Transition.page (·.sequence) (max 0 after).toNat (max 1 (min limit 100)).toNat rows
    let lastEventSequence := room.lastEventSequence
    return ({ roomId, localMemberId := memberId, events, lastEventSequence }, db)

def mutate (s : Store) (now : Time) (roomId : RoomId) (bearer : Token) (commandId : CommandId)
    (action : Action) (payload : Payload) (expectedVersion : Option Nat) :
    Except Exn Response × Store :=
  s.transaction fun db =>
    db.mutate now s.supply roomId bearer commandId action payload expectedVersion

def beginDClosing (s : Store) (now : Time) (roomId : RoomId) (bearer : Token)
    (commandId : CommandId) (attemptId : AttemptId) (payload : DClosingPayload)
    (expectedVersion : Nat) : Except Exn Response × Store :=
  s.transaction fun db =>
    db.beginDClosing now roomId bearer commandId attemptId payload expectedVersion

def acknowledgeDQuiescent (s : Store) (now : Time) (roomId : RoomId) (bearer : Token)
    (commandId : CommandId) (attemptId : AttemptId) (payload : DQuiescentPayload)
    (expectedVersion : Nat) : Except Exn Response × Store :=
  s.transaction fun db =>
    db.acknowledgeDQuiescent now roomId bearer commandId attemptId payload expectedVersion

def failTransportAttempt (s : Store) (now : Time) (roomId : RoomId) (attemptId : AttemptId)
    (code : String) : Except Exn Bool × Store :=
  s.transaction fun db => db.failTransportAttempt now roomId attemptId code

def forceDBarrier (s : Store) (now : Time) (roomId : RoomId) (attemptId : AttemptId)
    (code : String) : Except Exn Bool × Store :=
  s.transaction fun db => db.forceDBarrier now roomId attemptId code

def sweepPresence (s : Store) (now : Time) :
    Except Exn (List (RoomCode × AttemptId)) × Store :=
  s.transaction fun db => db.sweepPresence now

/-- One row of `fail_active_attempts`, read before the loop started. -/
def failActiveRow (now : Time) (code : String) (acc : Except Exn Nat × Store) (row : Room) :
    Except Exn Nat × Store :=
  match acc.1, row.attempt with
  | .ok failed, some attempt =>
    let forced := if attempt.phase = .closing then
        acc.2.forceDBarrier now row.roomId attempt.attemptId "D_RELAY_RESTART"
      else (.ok false, acc.2)
    match forced.1 with
    | .error e => (.error e, forced.2)
    | .ok true => (.ok (failed + 1), forced.2)
    | .ok false =>
      let lost := forced.2.failTransportAttempt now row.roomId attempt.attemptId code
      match lost.1 with
      | .error e => (.error e, lost.2)
      | .ok true => (.ok (failed + 1), lost.2)
      | .ok false => (.ok failed, lost.2)
  | _, _ => acc

/-- `fail_active_attempts`. -/
def failActiveAttempts (s : Store) (now : Time) (code : String) : Except Exn Nat × Store :=
  s.db.rooms.foldl (failActiveRow now code) (.ok 0, { s with supply := s.supply + drawsPerCall })

/-- A new relay process on the same database: the secret cache is gone, and the server
fails the attempts whose transports died with the old process. -/
def restart (s : Store) (now : Time) : Except Exn Nat × Store :=
  { s with ephemeral := [] }.failActiveAttempts now "relay.restart"

end Store

/-! ## Runs -/

/-- One call of the store. `expire` is the load of one room by any of the calls that only
read (`snapshot`, `events`, `member_for_code`, `list_public`, `public_details`). -/
inductive Op where
  | create (now : Time) (payload : CreatePayload) (commandId : CommandId) (client : ClientId)
      (codes : List RoomCode)
  | join (now : Time) (roomCode : RoomCode) (display : String) (commandId : CommandId)
      (client : ClientId)
  | joinPublic (now : Time) (listingId : ListingId) (display : String) (commandId : CommandId)
      (client : ClientId)
  | reconnect (now : Time) (roomId : RoomId) (reconnectToken : Token) (commandId : CommandId)
  | expire (now : Time) (roomId : RoomId)
  | mutate (now : Time) (roomId : RoomId) (bearer : Token) (commandId : CommandId)
      (action : Action) (payload : Payload) (expectedVersion : Option Nat)
  | beginDClosing (now : Time) (roomId : RoomId) (bearer : Token) (commandId : CommandId)
      (attemptId : AttemptId) (payload : DClosingPayload) (expectedVersion : Nat)
  | acknowledgeDQuiescent (now : Time) (roomId : RoomId) (bearer : Token) (commandId : CommandId)
      (attemptId : AttemptId) (payload : DQuiescentPayload) (expectedVersion : Nat)
  | failTransportAttempt (now : Time) (roomId : RoomId) (attemptId : AttemptId) (code : String)
  | forceDBarrier (now : Time) (roomId : RoomId) (attemptId : AttemptId) (code : String)
  | failActiveAttempts (now : Time) (code : String)
  | sweepPresence (now : Time)
  | restart (now : Time)
  deriving DecidableEq, Repr

def Store.step (s : Store) : Op → Store
  | .create now payload commandId client codes => (s.create now payload commandId client codes).2
  | .join now roomCode display commandId client => (s.join now roomCode display commandId client).2
  | .joinPublic now listingId display commandId client =>
    (s.joinPublic now listingId display commandId client).2
  | .reconnect now roomId token commandId => (s.reconnect now roomId token commandId).2
  | .expire now roomId =>
    (s.transaction fun db => (db.load now roomId).map fun r => ((), r.1)).2
  | .mutate now roomId bearer commandId action payload version =>
    (s.mutate now roomId bearer commandId action payload version).2
  | .beginDClosing now roomId bearer commandId attemptId payload version =>
    (s.beginDClosing now roomId bearer commandId attemptId payload version).2
  | .acknowledgeDQuiescent now roomId bearer commandId attemptId payload version =>
    (s.acknowledgeDQuiescent now roomId bearer commandId attemptId payload version).2
  | .failTransportAttempt now roomId attemptId code =>
    (s.failTransportAttempt now roomId attemptId code).2
  | .forceDBarrier now roomId attemptId code => (s.forceDBarrier now roomId attemptId code).2
  | .failActiveAttempts now code => (s.failActiveAttempts now code).2
  | .sweepPresence now => (s.sweepPresence now).2
  | .restart now => (s.restart now).2

/-- The store from its empty database on. -/
def system : Transition.System Store Op where
  init s := s = .initial
  next s op s' := s' = s.step op

/-- The state after a list of calls. -/
def Store.run (s : Store) (ops : List Op) : Store := ops.foldl Store.step s

/-- The attempt the document of a room holds. -/
def Store.attemptOf (s : Store) (roomId : RoomId) : Option Attempt :=
  (s.db.room? roomId).bind (·.attempt)

theorem run_calls {G : Store → Op → Prop} (ops : List Op) (hG : ∀ s, ops.Forall (G s))
    (s : Store) : system.Run G s (s.run ops) := by
  induction ops generalizing s with
  | nil => exact .refl
  | cons op ops ih =>
    have hcalls := fun s => (List.forall_cons (G s) op ops).mp (hG s)
    have hop : system.Run G s (s.step op) := .step (hcalls s).1 rfl
    exact hop.trans (ih (fun s => (hcalls s).2) _)

theorem reachable_calls {G : Store → Op → Prop} (ops : List Op) (hG : ∀ s, ops.Forall (G s)) :
    system.Reachable G (Store.initial.run ops) :=
  ⟨_, rfl, run_calls ops hG _⟩

theorem reachable_free (ops : List Op) :
    system.Reachable Transition.System.Free (Store.initial.run ops) := by
  refine reachable_calls ops fun s => List.forall_iff_forall_mem.mpr fun op _ => trivial

end SwitchTrade.Authority

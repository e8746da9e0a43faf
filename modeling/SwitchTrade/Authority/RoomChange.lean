import SwitchTrade.Authority.SeatMove
import Mathlib.Data.List.Nodup

/-!
# What one call does to the documents

A call that returns has made a sequence of commits, each of which replaces one document
by a changed one and appends its event; everything else it does leaves the documents
alone or deletes dead ones. `RoomWrite` lists the ways a document changes, with what the
call had checked, and `step_rooms` follows every document of the state after a call back
to the document it came from. Later modules read their per-room facts off `RoomWrite`.
-/

namespace SwitchTrade.Authority

open Fallible Relation

/-! ## The parts of a call -/

/-- The clock reading of a call. -/
def Op.now : Op → Time
  | .create now .. => now
  | .join now .. => now
  | .joinPublic now .. => now
  | .reconnect now .. => now
  | .expire now .. => now
  | .mutate now .. => now
  | .beginDClosing now .. => now
  | .acknowledgeDQuiescent now .. => now
  | .failTransportAttempt now .. => now
  | .forceDBarrier now .. => now
  | .failActiveAttempts now .. => now
  | .sweepPresence now => now
  | .restart now => now

/-- The call may add a member to a room. -/
def Op.joins : Op → Bool
  | .join .. | .joinPublic .. => true
  | _ => false

/-- The call may bring a member back online. -/
def Op.reconnects : Op → Bool
  | .reconnect .. => true
  | _ => false

/-- The call sweeps presence. -/
def Op.sweeps : Op → Bool
  | .sweepPresence .. => true
  | _ => false

/-- The call fails attempts on behalf of the relay. -/
def Op.failsTransport : Op → Bool
  | .failTransportAttempt .. | .forceDBarrier .. | .failActiveAttempts .. | .restart .. => true
  | _ => false

namespace Database

/-- The command of a bearer reaches its body: the credential names a member of the room
as it was loaded, and the command has no recorded response. -/
def Addresses (db : Database) (now : Time) (roomId : RoomId) (bearer : Token)
    (commandId : CommandId) (scope : MemberId → Scope) (room : Room) (memberId : MemberId) : Prop :=
  ∃ db', db.credentialsFor now bearer (some roomId) = .ok (db', room, memberId) ∧
    db'.commandResponse (scope memberId) commandId = .ok none

/-- `room_version += 1`, `_event` and `_save` of one document. -/
def commit (db : Database) (now : Time) (room : Room) (event : String) (actor : Option MemberId)
    (data : EventData) : Database :=
  (db.record now room event actor data).1.save (db.record now room event actor data).2

end Database

/-- The document as `record` leaves it. -/
def Room.sealed (room : Room) (sequence : Nat) : Room :=
  { room with roomVersion := room.roomVersion + 1, lastEventSequence := sequence }

/-! ## The ways a document changes -/

/-- One change of a document in the call `op` on `s`, before its version is counted up. -/
inductive RoomWrite (s : Store) (op : Op) : Room → Room → Prop
  | expire (room : Room) (due : room.expiryDue op.now = some true) :
      RoomWrite s op room { room with state := .expired }
  | mutate {room r : Room} {now : Time} {roomId : RoomId} {bearer : Token} {commandId : CommandId}
      {action : Action} {payload : Payload} {version : Option Nat} {memberId : MemberId}
      {event : String} {data : EventData} {revoked : Revoked}
      (call : op = .mutate now roomId bearer commandId action payload version)
      (addressed : s.db.Addresses now roomId bearer commandId (.member · action) room memberId)
      (written : room.mutate now s.supply memberId action payload version =
        .ok (.write r event data revoked)) :
      RoomWrite s op room r
  | beginDClosing {room r : Room} {now : Time} {roomId : RoomId} {bearer : Token}
      {commandId : CommandId} {attemptId : AttemptId} {payload : DClosingPayload} {version : Nat}
      {memberId : MemberId} {event : String} {data : EventData} {revoked : Revoked}
      (call : op = .beginDClosing now roomId bearer commandId attemptId payload version)
      (addressed : s.db.Addresses now roomId bearer commandId (.dClosing · attemptId) room memberId)
      (written : room.beginDClosing now memberId attemptId payload version =
        .ok (.write r event data revoked)) :
      RoomWrite s op room r
  | acknowledgeDQuiescent {room r : Room} {now : Time} {roomId : RoomId} {bearer : Token}
      {commandId : CommandId} {attemptId : AttemptId} {payload : DQuiescentPayload} {version : Nat}
      {memberId : MemberId} {event : String} {data : EventData} {revoked : Revoked}
      (call : op = .acknowledgeDQuiescent now roomId bearer commandId attemptId payload version)
      (addressed :
        s.db.Addresses now roomId bearer commandId (.dQuiescent · attemptId) room memberId)
      (written : room.acknowledgeDQuiescent now memberId attemptId payload version =
        .ok (.write r event data revoked)) :
      RoomWrite s op room r
  | join {room r : Room} {memberId : MemberId} {display : String} (call : op.joins = true)
      (written : room.joinRoom op.now memberId display = .ok r) : RoomWrite s op room r
  | reconnect {room r : Room} {memberId : MemberId} {active : Bool} (call : op.reconnects = true)
      (written : room.reconnectMember op.now memberId active = .ok r) : RoomWrite s op room r
  | fail {room r : Room} {attemptId : AttemptId} {code : String} (call : op.failsTransport = true)
      (written : room.failTransportAttempt op.now attemptId code = some r) : RoomWrite s op room r
  | force {room r : Room} {attemptId : AttemptId} {code : String} (call : op.failsTransport = true)
      (written : room.forceDBarrier op.now attemptId code = some r) : RoomWrite s op room r
  | sweepBarrier {room r : Room} (call : op.sweeps = true)
      (written : room.sweepBarrier op.now = some r) : RoomWrite s op room r
  | sweepMember {room r : Room} {i : Nat} {event : String} {memberId : MemberId} {offline : Bool}
      (call : op.sweeps = true)
      (written : room.sweepMember op.now i = some (r, event, memberId, offline)) :
      RoomWrite s op room r

/-- Any number of changes of one document, each sealed with a version and an event. -/
def RoomChange (s : Store) (op : Op) : Room → Room → Prop :=
  ReflTransGen fun room room' => ∃ r sequence, RoomWrite s op room r ∧ room' = r.sealed sequence

/-- One change of the database by a call: a side table, a committed document, or the
deletion of dead rooms. -/
inductive Change (s : Store) (op : Op) : Database → Database → Prop
  | sideTables (db : Database) (credentials : List CredentialRow) (commands : List CommandRow) :
      Change s op db { db with credentials, commands }
  | commit {db : Database} (room : Room) {r : Room} (event : String) (actor : Option MemberId)
      (data : EventData) (held : room ∈ db.rooms) (written : RoomWrite s op room r) :
      Change s op db (db.commit op.now r event actor data)
  | purge (db : Database) : Change s op db (db.purge op.now)

def Changes (s : Store) (op : Op) : Database → Database → Prop := ReflTransGen (Change s op)

/-- Whom the credential rows belong to, and by which token. -/
def Database.bearers (db : Database) : List (MemberId × TokenHash) :=
  db.credentials.map fun row => (row.memberId, row.tokenHash)

/-- `UPDATE credentials SET token_hash=…` of `reconnect`: the rows of one member get new
tokens, and the old reconnect token stays good for a while. -/
def Database.rotate (db : Database) (now : Time) (roomId : RoomId) (row : CredentialRow)
    (token reconnect : Token) : Database :=
  { db with credentials := db.credentials.map fun (r : CredentialRow) =>
      if r.memberId = row.memberId ∧ r.roomId = roomId then
        { r with
          tokenHash := ⟨token⟩, reconnectHash := ⟨reconnect⟩
          previousReconnectHash := some row.reconnectHash
          previousReconnectUntil := some (now + reconnectSeconds) }
      else r }

/-- The call is a report that passes its checks and completes the pair in a room which, as
it was loaded, is no longer open. -/
def Store.Reopens (s : Store) : Op → Prop
  | .acknowledgeDQuiescent now roomId bearer commandId attemptId payload version =>
    ∃ room memberId a d m report,
      s.db.Addresses now roomId bearer commandId (.dQuiescent · attemptId) room memberId ∧
      room.isOpen = false ∧ room.Acknowledges now memberId attemptId payload version a d m report ∧
      (d.sides.get m.seat.other).isSome
  | _ => False

/-- One write of a call, with everything that belongs to it: a remembered response, a
committed document together with the credential rows of its members, or the deletion of
dead rooms. `Change` forgets the credentials and the remembered responses. A room that is
no longer open is written by the D operations only: their bearer was let in before the room
was loaded. -/
inductive Stroke (s : Store) (op : Op) : Database → Database → Prop
  | remember (db : Database) (scope : Scope) (commandId : CommandId) (response : Response) :
      Stroke s op db (db.remember op.now scope commandId response)
  | write {db : Database} (room : Room) {r : Room} {revoked : Revoked} (event : String)
      (actor : Option MemberId) (data : EventData) (held : room ∈ db.rooms)
      (written : RoomWrite s op room r) (moved : SeatMove op.now db room revoked r)
      (timely : room.isOpen = true ∨
        (∃ id, s.db.Credited room.roomId id) ∧ (r.isOpen = false ∨ s.Reopens op)) :
      Stroke s op db ((db.revoke r.roomId revoked).commit op.now r event actor data)
  | join {db : Database} (room : Room) {r : Room} (display : String) (call : op.joins = true)
      (held : room ∈ db.rooms) (isOpen : room.isOpen = true)
      (first : db.bearers = s.db.bearers)
      (written : room.joinRoom op.now (s.supply + 1) display = .ok r) :
      Stroke s op db
        ((db.addCredential r.roomId (s.supply + 1) (s.supply + 3) (s.supply + 4)).commit op.now r
          "member.joined" (some (s.supply + 1)) (.seat .memberB))
  | reconnect {db : Database} (room : Room) {r : Room} (row : CredentialRow)
      (call : op.reconnects = true) (held : room ∈ db.rooms) (known : row ∈ db.credentials)
      (own : row.roomId = room.roomId) (first : db.bearers = s.db.bearers)
      (written : room.reconnectMember op.now row.memberId row.active = .ok r) :
      Stroke s op db
        ((db.rotate op.now r.roomId row (s.supply + 3) (s.supply + 4)).commit op.now r
          "member.reconnected" (some row.memberId) .empty)
  | purge (db : Database) : Stroke s op db (db.purge op.now)

def Strokes (s : Store) (op : Op) : Database → Database → Prop := ReflTransGen (Stroke s op)

namespace Room

variable {room r : Room} {now : Time} {fresh : AttemptId} {memberId : MemberId} {payload : Payload}
  {event : String} {data : EventData} {revoked : Revoked}

/-! ## The fields no command writes -/

/-- The fields of a document that no command writes: the others are blanked. -/
def header (room : Room) : Room :=
  { room with
    state := .closed, waitingExpiresAtEpoch := none, members := [], attempt := none
    lastAttemptNumber := none }

@[simp] theorem sealed_roomId (n : Nat) : (room.sealed n).roomId = room.roomId := rfl

@[simp] theorem sealed_attempt (n : Nat) : (room.sealed n).attempt = room.attempt := rfl

@[simp] theorem sealed_state (n : Nat) : (room.sealed n).state = room.state := rfl

@[simp] theorem sealed_members (n : Nat) : (room.sealed n).members = room.members := rfl

theorem enterPhase_header {a : Attempt} {p : AttemptPhase} {code : Option String} :
    (room.enterPhase now a p code).header = room.header := by
  by_cases trading : p = .tradingRoom <;> by_cases finished : p.terminal = true <;>
    simp [enterPhase, trading, finished, unreadyActive, header]

theorem setReadiness_header {ready : Bool} {role : Option SwitchRoomRole} :
    (room.setReadiness memberId ready role).header = room.header := by
  unfold setReadiness
  split <;> rfl

theorem dispatch_header {act : Action}
    (h : room.dispatch now fresh memberId act payload = .ok (.write r event data revoked)) :
    r.header = room.header := by
  cases dispatch_dispatched h with
  | chosen _ a choice => exact choice ▸ setReadiness_header
  | begun before creator choice => exact (choice ▸ setReadiness_header : before.header = _)
  | settled before state choice => exact (choice ▸ setReadiness_header : before.header = _)
  | enter => exact enterPhase_header
  | _ => rfl

theorem recordQuiescent_header {a : Attempt} {d : DState} {seat : Seat} {report : DSideReport} :
    (room.recordQuiescent a d seat report now).header = room.header := by
  obtain ⟨-, heq⟩ | ⟨status, code, -, heq⟩ := @recordQuiescent_cases room now a d seat report
  · rw [heq]
    rfl
  · rw [heq]
    rfl

theorem expireMember_header {i : Nat} : (room.expireMember now i).header = room.header := by
  unfold expireMember
  simp only
  split
  · rfl
  · split <;> rfl

end Room

theorem RoomWrite.header {s : Store} {op : Op} {room r : Room} (h : RoomWrite s op room r) :
    r.header = room.header := by
  cases h with
  | expire => rfl
  | mutate _ _ written => exact Room.dispatch_header (Room.mutate_write written).2.2.2.2
  | beginDClosing _ _ written =>
    obtain ⟨a, d, -, -, -, -, rfl, -⟩ := Room.beginDClosing_write written
    rfl
  | acknowledgeDQuiescent _ _ written =>
    obtain ⟨a, d, m, report, -, rfl⟩ := Room.acknowledgeDQuiescent_write written
    exact Room.recordQuiescent_header
  | join _ written =>
    simp only [Room.joinRoom, bind_eq_ok, raiseIf_eq_ok, pure_eq_ok] at written
    obtain ⟨-, -, rfl⟩ := written
    rfl
  | reconnect _ written =>
    simp only [Room.reconnectMember, bind_eq_ok, raiseIf_eq_ok, orRaise_eq_ok, pure_eq_ok]
      at written
    obtain ⟨-, -, -, -, -, -, -, -, rfl⟩ := written
    rfl
  | fail _ written =>
    obtain ⟨a, -, -, -, -, -, rfl⟩ := Room.failTransportAttempt_some written
    rfl
  | force _ written =>
    obtain ⟨a, d, -, -, -, -, -, rfl⟩ := Room.forceDBarrier_some written
    rfl
  | sweepBarrier _ written =>
    obtain ⟨a, d, -, -, -, -, rfl⟩ := Room.sweepBarrier_some written
    rfl
  | sweepMember _ written =>
    obtain ⟨m, -, -, ⟨-, -, rfl⟩ | ⟨-, -, rfl⟩⟩ := Room.sweepMember_some written
    · rfl
    · exact Room.expireMember_header

theorem RoomWrite.roomId {s : Store} {op : Op} {room r : Room} (h : RoomWrite s op room r) :
    r.roomId = room.roomId :=
  congrArg (·.roomId) h.header

/-! ## Documents after a sequence of changes -/

namespace Database

variable {db : Database} {now : Time} {room : Room} {event : String} {actor : Option MemberId}
  {data : EventData}

theorem room?_mem {roomId : RoomId} (h : db.room? roomId = some room) :
    room ∈ db.rooms ∧ room.roomId = roomId :=
  ⟨List.mem_of_find?_eq_some h, by simpa using List.find?_some h⟩

theorem record_rooms : (db.record now room event actor data).1.rooms = db.rooms := rfl

theorem record_document :
    (db.record now room event actor data).2 = room.sealed (db.eventSequence + 1) := rfl

@[simp] theorem revoke_rooms (roomId : RoomId) (revoked : Revoked) :
    (db.revoke roomId revoked).rooms = db.rooms := rfl

theorem bearers_members (db : Database) :
    db.bearers.map (·.1) = db.credentials.map (·.memberId) := by
  simp only [bearers, List.map_map]
  rfl

theorem revoke_bearers (db : Database) (roomId : RoomId) (revoked : Revoked) :
    (db.revoke roomId revoked).bearers = db.bearers := by
  simp only [bearers, revoke, List.map_map]
  refine List.map_congr_left fun row _ => ?_
  simp only [Function.comp_apply]
  split
  · split <;> rfl
  · split <;> rfl
  · split <;> rfl

theorem revoke_nobody (roomId : RoomId) : db.revoke roomId .nobody = db := by
  simp [revoke]

theorem mem_save {r : Room} (h : r ∈ (db.save room).rooms) :
    r ∈ db.rooms ∧ r.roomId ≠ room.roomId ∨ r = room := by
  obtain ⟨r', hr', rfl⟩ := List.mem_map.mp h
  split
  · exact .inr rfl
  · rename_i hother
    exact .inl ⟨hr', hother⟩

theorem save_ids (db : Database) :
    (db.save room).rooms.map (·.roomId) = db.rooms.map (·.roomId) := by
  simp only [save, List.map_map]
  refine List.map_congr_left fun r _ => ?_
  simp only [Function.comp_apply]
  split
  · rename_i h
    exact h.symm
  · rfl

/-- The document saved last is there, if its row is. -/
theorem mem_save_self (h : room.roomId ∈ db.rooms.map (·.roomId)) :
    room ∈ (db.save room).rooms := by
  obtain ⟨r, hr, hid⟩ := List.mem_map.mp h
  exact List.mem_map.mpr ⟨r, hr, if_pos hid⟩

/-- Only the last save of one row counts. -/
theorem save_save (db : Database) {room r : Room} (h : r.roomId = room.roomId) :
    (db.save room).save r = db.save r := by
  simp only [save, List.map_map, mk.injEq, and_true]
  refine List.map_congr_left fun r' _ => ?_
  simp only [Function.comp_apply, h]
  by_cases hid : r'.roomId = room.roomId <;> simp [hid]

/-- Saving the document of the row inserted last. -/
theorem save_inserted {rooms : List Room} {r : Room} (inserted : db.rooms = rooms ++ [r])
    (fresh : ∀ room ∈ rooms, room.roomId ≠ r.roomId) (hid : room.roomId = r.roomId) :
    (db.save room).rooms = rooms ++ [room] := by
  simp only [save, inserted, List.map_append, List.map_cons, List.map_nil, hid, if_true,
    List.append_cancel_right_eq]
  refine (List.map_congr_left fun r' hr' => ?_).trans (List.map_id _)
  exact if_neg (fresh r' hr')

theorem save_self (nodup : (db.rooms.map (·.roomId)).Nodup) (h : room ∈ db.rooms) :
    db.save room = db := by
  simp only [save]
  congr
  refine (List.map_congr_left fun r hr => ?_).trans (List.map_id _)
  split
  · rename_i hid
    exact (List.inj_on_of_nodup_map nodup hr h hid).symm
  · rfl

/-- The rooms `purge` deletes: the two conditions of its second `DELETE`. -/
def dead (now : Time) (room : Room) : Bool :=
  room.expiresAtEpoch < now - authorityRetentionSeconds && !room.isOpen

/-- The rows that refer to this room cascade. -/
def gone (db : Database) (now : Time) (roomId : RoomId) : Bool :=
  db.rooms.any fun room => dead now room && room.roomId = roomId

theorem purge_rooms (now : Time) : (db.purge now).rooms = db.rooms.filter (!dead now ·) := by
  simp only [purge, dead]

theorem purge_credentials (now : Time) :
    (db.purge now).credentials = db.credentials.filter (!db.gone now ·.roomId) := by
  simp only [purge, gone, dead]

theorem purge_events (now : Time) :
    (db.purge now).events = db.events.filter (!db.gone now ·.roomId) := by
  simp only [purge, gone, dead]

theorem gone_kept (nodup : (db.rooms.map (·.roomId)).Nodup) {now : Time} {room : Room}
    (hr : room ∈ db.rooms) : db.gone now room.roomId = dead now room := by
  cases hdead : dead now room with
  | true => exact List.any_eq_true.mpr ⟨room, hr, by simp [hdead]⟩
  | false =>
    refine List.any_eq_false.mpr fun room' hr' => ?_
    intro hgone
    simp only [Bool.and_eq_true, decide_eq_true_eq] at hgone
    obtain rfl := List.inj_on_of_nodup_map nodup hr' hr hgone.2
    simp [hdead] at hgone

end Database

section Changes

variable {s : Store} {op : Op} {db db' : Database}

theorem Change.changes (h : Change s op db db') : Changes s op db db' := .single h

theorem Change.ids (h : Change s op db db') :
    List.Sublist (db'.rooms.map (·.roomId)) (db.rooms.map (·.roomId)) := by
  cases h with
  | sideTables => exact .refl _
  | commit => exact (Database.save_ids (db.record ..).1).symm ▸ .refl _
  | purge => exact List.filter_sublist.map _

/-- No call but `create` adds a document. -/
theorem Changes.ids (h : Changes s op db db') :
    List.Sublist (db'.rooms.map (·.roomId)) (db.rooms.map (·.roomId)) := by
  induction h with
  | refl => exact .refl _
  | tail _ hlast ih => exact hlast.ids.trans ih

theorem Change.rooms (h : Change s op db db') {room' : Room} (hr : room' ∈ db'.rooms) :
    ∃ room ∈ db.rooms, RoomChange s op room room' := by
  cases h with
  | sideTables => exact ⟨room', hr, .refl⟩
  | commit room event actor data held written =>
    rcases Database.mem_save hr with ⟨hr, -⟩ | rfl
    · exact ⟨room', hr, .refl⟩
    · exact ⟨_, held, .single ⟨_, _, written, rfl⟩⟩
  | purge => exact ⟨room', (List.mem_filter.mp hr).1, .refl⟩

/-- Every document left by a sequence of changes was there before, and changed step by
step into what it is now. -/
theorem Changes.rooms (h : Changes s op db db') {room' : Room} (hr : room' ∈ db'.rooms) :
    ∃ room ∈ db.rooms, RoomChange s op room room' := by
  induction h generalizing room' with
  | refl => exact ⟨room', hr, .refl⟩
  | tail _ hlast ih =>
    obtain ⟨room₁, hr₁, hlast⟩ := hlast.rooms hr
    obtain ⟨room, hr, hfirst⟩ := ih hr₁
    exact ⟨room, hr, hfirst.trans hlast⟩

theorem Stroke.strokes (h : Stroke s op db db') : Strokes s op db db' := .single h

theorem revoke_change (roomId : RoomId) (revoked : Revoked) :
    Change s op db (db.revoke roomId revoked) :=
  .sideTables db _ db.commands

theorem addCredential_change (roomId : RoomId) (memberId : MemberId) (token reconnect : Token) :
    Change s op db (db.addCredential roomId memberId token reconnect) :=
  .sideTables db _ db.commands

theorem rotate_change (now : Time) (roomId : RoomId) (row : CredentialRow)
    (token reconnect : Token) : Change s op db (db.rotate now roomId row token reconnect) :=
  .sideTables db _ db.commands

/-- A stroke is a change of the side tables and at most one commit. -/
theorem Stroke.changes (h : Stroke s op db db') : Changes s op db db' := by
  cases h with
  | remember => exact .single (.sideTables db db.credentials _)
  | write room event actor data held written =>
    exact (revoke_change ..).changes.tail (.commit room event actor data held written)
  | join room display call held isOpen first written =>
    exact (addCredential_change ..).changes.tail (.commit room _ _ _ held (.join call written))
  | reconnect room row call held known own first written =>
    exact (rotate_change ..).changes.tail (.commit room _ _ _ held (.reconnect call written))
  | purge => exact .single (.purge db)

theorem Strokes.changes (h : Strokes s op db db') : Changes s op db db' := by
  induction h with
  | refl => exact .refl
  | tail _ hlast ih => exact ih.trans hlast.changes

/-! ## The transactions of each call are sequences of strokes -/

/-- A load leaves the room alone, or it expires it. -/
theorem load_cases {now : Time} {room : Room} {roomId : RoomId}
    (h : db.load now roomId = .ok (db', room)) :
    (db.room? roomId = some room ∧ room.expiryDue now = some false ∧ db' = db) ∨
    ∃ found, db.room? roomId = some found ∧ found.expiryDue now = some true ∧
      room = (db.record now { found with state := .expired } "room.expired" none .empty).2 ∧
      db' = ((db.record now { found with state := .expired } "room.expired" none .empty).1.revoke
        roomId .everybody).save room := by
  simp only [Database.load, bind_eq_ok, orRaise_eq_ok] at h
  obtain ⟨found, hfound, due, hdue, h⟩ := h
  cases due with
  | false =>
    simp only [Bool.false_eq_true, if_false, pure_eq_ok, Prod.mk.injEq] at h
    obtain ⟨rfl, rfl⟩ := h
    exact .inl ⟨hfound, hdue, rfl⟩
  | true =>
    simp only [if_true, pure_eq_ok, Prod.mk.injEq] at h
    obtain ⟨rfl, rfl⟩ := h
    exact .inr ⟨found, hfound, hdue, rfl, rfl⟩

/-- Loading a room expires it or leaves everything alone. -/
theorem load_strokes {room : Room} {roomId : RoomId}
    (h : db.load op.now roomId = .ok (db', room)) :
    Strokes s op db db' ∧ room ∈ db'.rooms ∧ room.roomId = roomId ∧
      (room.isOpen = true → db' = db) := by
  obtain ⟨hfound, -, rfl⟩ | ⟨found, hfound, hdue, rfl, rfl⟩ := load_cases h
  · obtain ⟨hmem, hid⟩ := Database.room?_mem hfound
    exact ⟨.refl, hmem, hid, fun _ => rfl⟩
  · obtain ⟨hmem, hid⟩ := Database.room?_mem hfound
    refine ⟨?_, ?_, hid, fun isOpen => ?_⟩
    · subst hid
      have hexpire : Stroke s op db
          ((db.revoke found.roomId .everybody).commit op.now { found with state := .expired }
            "room.expired" none .empty) :=
        .write found "room.expired" none .empty hmem (.expire found hdue)
          (.expire (Room.expiryDue_isOpen hdue)) (.inl (Room.expiryDue_isOpen hdue))
      exact hexpire.strokes
    · exact Database.mem_save_self (List.mem_map.mpr ⟨found, hmem, rfl⟩)
    · simp [Room.isOpen, Database.record, Database.event] at isOpen

/-- The bearer of an open room holds an active credential. -/
theorem credentialsFor_strokes {bearer : Token} {roomId : RoomId} {room : Room}
    {memberId : MemberId}
    (h : db.credentialsFor op.now bearer (some roomId) = .ok (db', room, memberId)) :
    Strokes s op db db' ∧ room ∈ db'.rooms ∧ room.roomId = roomId ∧
      (room.isOpen = true → db'.Credited room.roomId memberId) := by
  simp only [Database.credentialsFor, bind_eq_ok, orRaise_eq_ok, raiseIf_eq_ok, pure_eq_ok,
    Prod.mk.injEq, Option.any_some, decide_not, Bool.not_eq_true', decide_eq_false_iff_not,
    not_not] at h
  obtain ⟨row, hrow, -, hroom, ⟨db₁, room₁⟩, hload, rfl, rfl, rfl⟩ := h
  obtain ⟨hstrokes, hmem, hid, hsame⟩ := load_strokes hload
  refine ⟨hstrokes, hmem, hid.trans hroom.symm, fun isOpen => ?_⟩
  have hactive : row.tokenHash = ⟨bearer⟩ ∧ row.active = true := by
    simpa using List.find?_some hrow
  rw [hsame isOpen]
  exact ⟨row, List.mem_of_find?_eq_some hrow, hactive.2, hid.symm, rfl⟩

/-- Whoever a command is carried out for held an active credential when it began. -/
theorem Database.Addresses.credited {now : Time} {roomId : RoomId} {bearer : Token}
    {commandId : CommandId} {scope : MemberId → Scope} {room : Room} {memberId : MemberId}
    (h : db.Addresses now roomId bearer commandId scope room memberId) :
    db.Credited room.roomId memberId := by
  obtain ⟨db', hcredentials, -⟩ := h
  simp only [Database.credentialsFor, bind_eq_ok, orRaise_eq_ok, pure_eq_ok, Prod.mk.injEq]
    at hcredentials
  obtain ⟨row, hrow, -, -, ⟨db₁, room₁⟩, hload, rfl, rfl, rfl⟩ := hcredentials
  obtain ⟨-, -, hid, -⟩ := @load_strokes .initial (.expire now roomId) _ _ _ _ hload
  have hactive : row.tokenHash = ⟨bearer⟩ ∧ row.active = true := by
    simpa using List.find?_some hrow
  exact ⟨row, List.mem_of_find?_eq_some hrow, hactive.2, hid.symm, rfl⟩

/-- A member command makes at most one commit, and only of what its body decided to write. -/
theorem memberCommand_strokes {roomId : RoomId} {bearer : Token} {commandId : CommandId}
    {scope : MemberId → Scope} {command : Room → MemberId → Except Exn Effect} {response : Response}
    (hwrite : ∀ db₁ room memberId r event data revoked,
      db.Addresses op.now roomId bearer commandId scope room memberId →
      (room.isOpen = true → db₁.Credited room.roomId memberId) →
      command room memberId = .ok (.write r event data revoked) →
      RoomWrite s op room r ∧ SeatMove op.now db₁ room revoked r ∧
        (room.isOpen = true ∨
          (∃ id, s.db.Credited room.roomId id) ∧ (r.isOpen = false ∨ s.Reopens op)))
    (h : db.memberCommand op.now roomId bearer commandId scope command = .ok (response, db')) :
    Strokes s op db db' := by
  simp only [Database.memberCommand, bind_eq_ok] at h
  obtain ⟨⟨db₁, room, memberId⟩, hcredentials, cached, hcached, h⟩ := h
  obtain ⟨hstrokes, hmem, hid, hcredited⟩ := credentialsFor_strokes (s := s) hcredentials
  cases cached with
  | some cached =>
    simp only [pure_eq_ok, Prod.mk.injEq] at h
    obtain ⟨-, rfl⟩ := h
    exact hstrokes
  | none =>
    simp only [bind_eq_ok] at h
    obtain ⟨effect, hcommand, h⟩ := h
    cases effect with
    | replay =>
      simp only [pure_eq_ok, Prod.mk.injEq] at h
      obtain ⟨-, rfl⟩ := h
      exact hstrokes.tail (.remember ..)
    | write r event data revoked =>
      simp only [pure_eq_ok, Prod.mk.injEq] at h
      obtain ⟨-, rfl⟩ := h
      obtain ⟨hwritten, hmoved, timely⟩ := hwrite db₁ room memberId r event data revoked
        ⟨db₁, hcredentials, hcached⟩ hcredited hcommand
      have hcommit : Stroke s op db₁
          ((db₁.revoke r.roomId revoked).commit op.now r event (some memberId) data) :=
        .write room event (some memberId) data hmem hwritten hmoved timely
      rw [hwritten.roomId.trans hid] at hcommit
      exact (hstrokes.tail hcommit).tail (.remember ..)

theorem failTransportAttempt_strokes {roomId : RoomId} {attemptId : AttemptId} {code : String}
    {failed : Bool} (call : op.failsTransport = true)
    (h : db.failTransportAttempt op.now roomId attemptId code = .ok (failed, db')) :
    Strokes s op db db' := by
  simp only [Database.failTransportAttempt, bind_eq_ok] at h
  obtain ⟨⟨db₁, room⟩, hload, h⟩ := h
  obtain ⟨hstrokes, hmem, -, -⟩ := load_strokes (s := s) hload
  split at h
  · simp only [pure_eq_ok, Prod.mk.injEq] at h
    obtain ⟨-, rfl⟩ := h
    exact hstrokes
  · rename_i r hwritten
    simp only [pure_eq_ok, Prod.mk.injEq] at h
    obtain ⟨-, rfl⟩ := h
    have hcommit : Stroke s op db₁ _ := .write room "attempt.failed" none (.code code) hmem
      (.fail call hwritten) (Room.failTransportAttempt_seats hwritten)
      (.inl (Room.failTransportAttempt_isOpen hwritten))
    rw [Database.revoke_nobody] at hcommit
    exact hstrokes.tail hcommit

theorem forceDBarrier_strokes {roomId : RoomId} {attemptId : AttemptId} {code : String}
    {forced : Bool} (call : op.failsTransport = true)
    (h : db.forceDBarrier op.now roomId attemptId code = .ok (forced, db')) :
    Strokes s op db db' := by
  simp only [Database.forceDBarrier, bind_eq_ok] at h
  obtain ⟨-, -, ⟨db₁, room⟩, hload, h⟩ := h
  obtain ⟨hstrokes, hmem, -, -⟩ := load_strokes (s := s) hload
  split at h
  · simp only [pure_eq_ok, Prod.mk.injEq] at h
    obtain ⟨-, rfl⟩ := h
    exact hstrokes
  · rename_i r hwritten
    simp only [pure_eq_ok, Prod.mk.injEq] at h
    obtain ⟨-, rfl⟩ := h
    have hcommit : Stroke s op db₁ _ := .write room "attempt.d_barrier_forced" none (.code code)
      hmem (.force call hwritten) (Room.forceDBarrier_seats hwritten)
      (.inl (Room.forceDBarrier_isOpen hwritten))
    rw [Database.revoke_nobody] at hcommit
    exact hstrokes.tail hcommit

/-! ### The sweep -/

/-- An open document of the sweep that is not saved yet: saving it now would leave a
sequence of strokes of `db`. -/
structure Pending (s : Store) (op : Op) (db : Database) (acc : Database × Room) : Prop where
  row : acc.2.roomId ∈ acc.1.rooms.map (·.roomId)
  isOpen : acc.2.isOpen = true
  saved : Strokes s op db (acc.1.save acc.2)

theorem Pending.write {acc : Database × Room} (h : Pending s op db acc) {r : Room}
    {revoked : Revoked} (hwrite : RoomWrite s op acc.2 r)
    (hmove : SeatMove op.now (acc.1.save acc.2) acc.2 revoked r) (stays : r.isOpen = true)
    (event : String) (actor : Option MemberId) (data : EventData) :
    Pending s op db ((acc.1.revoke r.roomId revoked).record op.now r event actor data) := by
  obtain ⟨db₁, room⟩ := acc
  obtain ⟨hrow, isOpen, hstrokes⟩ := h
  have hid : r.roomId = room.roomId := hwrite.roomId
  refine ⟨by simpa only [Database.record_rooms, Database.record_document, Database.revoke_rooms,
    Room.sealed_roomId, hid] using hrow, stays, ?_⟩
  have hcommit : Stroke s op (db₁.save room)
      (((db₁.save room).revoke r.roomId revoked).commit op.now r event actor data) :=
    .write room event actor data (Database.mem_save_self hrow) hwrite hmove (.inl isOpen)
  have hsaved : ((db₁.save room).revoke r.roomId revoked).commit op.now r event actor data =
      ((db₁.revoke r.roomId revoked).record op.now r event actor data).1.save
        ((db₁.revoke r.roomId revoked).record op.now r event actor data).2 :=
    Database.save_save ((db₁.revoke r.roomId revoked).record op.now r event actor data).1
      (show (r.sealed _).roomId = room.roomId from hid)
  rw [hsaved] at hcommit
  exact hstrokes.tail hcommit

theorem sweepMemberAt_pending (call : op.sweeps = true) {acc : Database × Room}
    (h : Pending s op db acc) (i : Nat) :
    Pending s op db (Database.sweepMemberAt op.now acc i) := by
  unfold Database.sweepMemberAt
  split
  · exact h
  · rename_i r event memberId offline hwritten
    have hmoved : SeatMove op.now (acc.1.save acc.2) acc.2
        (if offline then .member memberId else .nobody) r ∧ r.isOpen = true :=
      Room.sweepMember_seats h.isOpen hwritten
    obtain ⟨hmove, stays⟩ := hmoved
    have hnext := h.write (.sweepMember call hwritten) hmove stays event (some memberId) .empty
    cases offline with
    | true => exact hnext
    | false =>
      rw [if_neg (by decide), Database.revoke_nobody] at hnext
      exact hnext

theorem sweepMembers_pending (call : op.sweeps = true) (positions : List Nat)
    {acc : Database × Room} (h : Pending s op db acc) :
    Pending s op db (positions.foldl (Database.sweepMemberAt op.now) acc) := by
  induction positions generalizing acc with
  | nil => exact h
  | cons i positions ih => exact ih (sweepMemberAt_pending call h i)

theorem sweepRoom_strokes (call : op.sweeps = true)
    (nodup : (db.rooms.map (·.roomId)).Nodup) {roomId : RoomId}
    {expired expired' : List (RoomCode × AttemptId)}
    (h : Database.sweepRoom op.now (db, expired) roomId = .ok (db', expired')) :
    Strokes s op db db' := by
  simp only [Database.sweepRoom, bind_eq_ok] at h
  obtain ⟨⟨db₁, room⟩, hload, h⟩ := h
  obtain ⟨hstrokes, hmem, -, -⟩ := load_strokes (s := s) hload
  split at h
  · simp only [pure_eq_ok, Prod.mk.injEq] at h
    obtain ⟨rfl, -⟩ := h
    exact hstrokes
  · rename_i hopen
    simp only [pure_eq_ok, Prod.mk.injEq] at h
    obtain ⟨rfl, -⟩ := h
    have isOpen : room.isOpen = true := by simpa using hopen
    have hloaded : Pending s op db (db₁, room) := by
      refine ⟨List.mem_map.mpr ⟨room, hmem, rfl⟩, isOpen, ?_⟩
      rw [Database.save_self (hstrokes.changes.ids.nodup nodup) hmem]
      exact hstrokes
    refine (sweepMembers_pending call _ ?_).saved
    split
    · rename_i swept attempt hswept hattempt
      have hmoved : SeatMove op.now (db₁.save room) room .nobody swept ∧ swept.isOpen = true :=
        Room.sweepBarrier_seats isOpen hswept
      obtain ⟨hmove, stays⟩ := hmoved
      have hsaved := hloaded.write (.sweepBarrier call hswept) hmove stays
        "attempt.d_barrier_timeout" none (.code "D_BARRIER_TIMEOUT")
      rw [Database.revoke_nobody] at hsaved
      exact hsaved
    · exact hloaded

theorem sweepPresence_strokes (call : op.sweeps = true)
    (nodup : (db.rooms.map (·.roomId)).Nodup) {expired : List (RoomCode × AttemptId)}
    (h : db.sweepPresence op.now = .ok (expired, db')) : Strokes s op db db' := by
  simp only [Database.sweepPresence, bind_eq_ok, pure_eq_ok, Prod.mk.injEq] at h
  obtain ⟨⟨db₁, expired₁⟩, hloop, -, rfl⟩ := h
  have hround : ∀ acc roomId acc', Strokes s op db acc.1 →
      Database.sweepRoom op.now acc roomId = .ok acc' → Strokes s op db acc'.1 := by
    intro acc roomId acc' hacc hstep
    exact hacc.trans (sweepRoom_strokes call (hacc.changes.ids.nodup nodup) hstep)
  have hswept : Strokes s op db db₁ := foldlM_keeps hround hloop .refl
  exact hswept.tail (.purge db₁)

/-! ### Joining and reconnecting -/

/-- Loading a room adds no credential and changes no token. -/
theorem load_bearers {now : Time} {room : Room} {roomId : RoomId}
    (h : db.load now roomId = .ok (db', room)) :
    db'.bearers = db.bearers := by
  obtain ⟨-, -, rfl⟩ | ⟨found, -, -, -, rfl⟩ := load_cases h
  · rfl
  · exact Database.revoke_bearers db roomId .everybody

theorem joinRoom_strokes (call : op.joins = true) {room : Room} {display : String}
    {result : RoomView × Token × Token} (hmem : room ∈ db.rooms) (isOpen : room.isOpen = true)
    (first : db.bearers = s.db.bearers)
    (h : db.joinRoom op.now s.supply room display = .ok (result, db')) : Strokes s op db db' := by
  simp only [Database.joinRoom, bind_eq_ok, pure_eq_ok, Prod.mk.injEq] at h
  obtain ⟨r, hwritten, -, rfl⟩ := h
  exact .single (.join room display call hmem isOpen first hwritten)

theorem join_strokes (call : op.joins = true) {roomCode : RoomCode} {display : String}
    {result : RoomView × Token × Token}
    (h : s.db.join op.now s.supply roomCode display = .ok (result, db')) :
    Strokes s op s.db db' := by
  simp only [Database.join, bind_eq_ok, raiseIf_eq_ok, orRaise_eq_ok, not_not] at h
  obtain ⟨found, -, ⟨db₁, room⟩, hload, -, isOpen, h⟩ := h
  obtain ⟨hstrokes, hmem, -, -⟩ := load_strokes hload
  exact hstrokes.trans (joinRoom_strokes call hmem isOpen (load_bearers hload) h)

theorem joinPublic_strokes (call : op.joins = true) {listingId : ListingId} {display : String}
    {result : RoomView × Token × Token}
    (h : s.db.joinPublic op.now s.supply listingId display = .ok (result, db')) :
    Strokes s op s.db db' := by
  simp only [Database.joinPublic, bind_eq_ok, raiseIf_eq_ok, orRaise_eq_ok, not_or, not_not] at h
  obtain ⟨found, -, ⟨db₁, room⟩, hload, -, ⟨isOpen, -⟩, h⟩ := h
  obtain ⟨hstrokes, hmem, -, -⟩ := load_strokes hload
  exact hstrokes.trans (joinRoom_strokes call hmem isOpen (load_bearers hload) h)

/-- What `reconnect` checks before it brings a member back. -/
theorem reconnectMember_ok {room r : Room} {now : Time} {memberId : MemberId} {active : Bool}
    (h : room.reconnectMember now memberId active = .ok r) :
    ∃ m, room.member? memberId = some m ∧ room.isOpen = true ∧ m.onlineState ≠ .left ∧
      m.onlineState ≠ .offline ∧ active = true ∧
        r = room.modifyMember memberId (Member.seen now) := by
  simp only [Room.reconnectMember, bind_eq_ok, raiseIf_eq_ok, orRaise_eq_ok, pure_eq_ok, not_or,
    not_not] at h
  obtain ⟨m, hm, -, ⟨isOpen, hleft⟩, -, ⟨hoffline, -⟩, -, hactive, rfl⟩ := h
  exact ⟨m, hm, isOpen, hleft, hoffline, hactive, rfl⟩

theorem reconnect_strokes (call : op.reconnects = true) {roomId : RoomId} {token : Token}
    {result : RoomView × Token × Token}
    (h : s.db.reconnect op.now s.supply roomId token = .ok (result, db')) :
    Strokes s op s.db db' := by
  simp only [Database.reconnect, bind_eq_ok, orRaise_eq_ok, pure_eq_ok, Prod.mk.injEq] at h
  obtain ⟨row, hrow, ⟨db₁, room⟩, hload, r, hwritten, -, rfl⟩ := h
  obtain ⟨hstrokes, hmem, hid, hsame⟩ := load_strokes (s := s) hload
  obtain ⟨m, -, isOpen, -, -, -, rfl⟩ := reconnectMember_ok hwritten
  obtain rfl := hsame isOpen
  have hown : row.roomId = roomId := by
    have hfound := List.find?_some hrow
    simp only [Bool.and_eq_true, decide_eq_true_eq] at hfound
    exact hfound.1
  have hback : Stroke s op s.db _ := .reconnect room row call hmem (List.mem_of_find?_eq_some hrow)
    (hown.trans hid.symm) rfl hwritten
  rw [show (room.modifyMember row.memberId (Member.seen op.now)).roomId = roomId from hid] at hback
  exact hstrokes.tail hback

/-! ## One call -/

/-- A transaction leaves the database its body returned, or the one before it. -/
theorem transaction_db {α : Type} {body : Database → Except Exn (α × Database)}
    {P : Database → Prop} (hsame : P s.db) (hbody : ∀ a db', body s.db = .ok (a, db') → P db') :
    P (s.transaction body).2.db := by
  unfold Store.transaction
  simp only
  split
  · rename_i a db' hok
    exact hbody a db' hok
  · exact hsame

theorem secretCommand_db {now : Time} {scope : Scope} {commandId : CommandId}
    {body : Database → Except Exn ((RoomView × Token × Token) × Database)}
    {P : Database → Prop} (hsame : P s.db)
    (hbody : ∀ view token reconnect db', body s.db = .ok ((view, token, reconnect), db') →
      P (db'.remember now scope commandId (.completed view.roomId))) :
    P (s.secretCommand now scope commandId body).2.db := by
  unfold Store.secretCommand
  simp only
  split
  · exact hsame
  · exact hsame
  · split
    · exact hsame
    · rename_i view token reconnect db' hok
      exact hbody view token reconnect db' hok

theorem failTransportAttempt_db (call : op.failsTransport = true) (t : Store) (roomId : RoomId)
    (attemptId : AttemptId) (code : String) (h : Strokes s op db t.db) :
    Strokes s op db (t.failTransportAttempt op.now roomId attemptId code).2.db :=
  transaction_db h fun _ _ hok => h.trans (failTransportAttempt_strokes call hok)

theorem forceDBarrier_db (call : op.failsTransport = true) (t : Store) (roomId : RoomId)
    (attemptId : AttemptId) (code : String) (h : Strokes s op db t.db) :
    Strokes s op db (t.forceDBarrier op.now roomId attemptId code).2.db :=
  transaction_db h fun _ _ hok => h.trans (forceDBarrier_strokes call hok)

theorem failActiveRow_db (call : op.failsTransport = true) {code : String}
    (acc : Except Exn Nat × Store) (row : Room) (h : Strokes s op db acc.2.db) :
    Strokes s op db (Store.failActiveRow op.now code acc row).2.db := by
  unfold Store.failActiveRow
  split
  · rename_i failed attempt _ _
    have hforced : Strokes s op db (if attempt.phase = .closing then
        acc.2.forceDBarrier op.now row.roomId attempt.attemptId "D_RELAY_RESTART"
        else (.ok false, acc.2)).2.db := by
      split
      · exact forceDBarrier_db call acc.2 _ _ _ h
      · exact h
    have hlost := failTransportAttempt_db call _ row.roomId attempt.attemptId code hforced
    simp only
    split
    · exact hforced
    · exact hforced
    · split <;> exact hlost
  · exact h

theorem failActiveAttempts_db (call : op.failsTransport = true) (t : Store) (code : String)
    (h : Strokes s op db t.db) : Strokes s op db (t.failActiveAttempts op.now code).2.db := by
  suffices hrows : ∀ (rows : List Room) (acc : Except Exn Nat × Store), Strokes s op db acc.2.db →
      Strokes s op db (rows.foldl (Store.failActiveRow op.now code) acc).2.db from
    hrows _ _ h
  intro rows
  induction rows with
  | nil => exact fun acc hacc => hacc
  | cons row rows ih => exact fun acc hacc => ih _ (failActiveRow_db call acc row hacc)

/-- What `create` leaves: the documents before it and a new one, empty of attempts. -/
def Created (s : Store) (db : Database) : Prop :=
  ∃ room : Room, db.rooms = s.db.rooms ++ [room] ∧ room.roomId = s.supply ∧ room.attempt = none

/-- What `create` leaves: one new row in every table, and the document of a room where the
owner waits. -/
structure Opened (s : Store) (db : Database) (room : Room) : Prop where
  rooms : db.rooms = s.db.rooms ++ [room]
  credentials : ∃ row : CredentialRow, db.credentials = s.db.credentials ++ [row] ∧
    row.tokenHash = ⟨s.supply + 3⟩ ∧ row.reconnectHash = ⟨s.supply + 4⟩ ∧
    row.roomId = s.supply ∧ row.memberId = s.supply + 1 ∧ row.active = true ∧
    row.previousReconnectHash = none
  commands : ∃ row, db.commands = s.db.commands ++ [row]
  events : ∃ row : EventRow, db.events = s.db.events ++ [row] ∧ row.roomId = s.supply ∧
    row.roomVersion = 1 ∧ row.sequence = s.db.eventSequence + 1
  eventSequence : db.eventSequence = s.db.eventSequence + 1
  roomId : room.roomId = s.supply
  roomVersion : room.roomVersion = 1
  lastEventSequence : room.lastEventSequence = s.db.eventSequence + 1
  ownerMemberId : room.ownerMemberId = s.supply + 1
  places : room.places = [⟨s.supply + 1, .memberA, .online⟩]
  isOpen : room.isOpen = true
  attempt : room.attempt = none
  lastAttemptNumber : room.lastAttemptNumber = none
  waiting : room.waitingExpiresAtEpoch.isSome = true
  state : room.state = .waitingForPartner
  deadline : ∃ deadline, room.waitingExpiresAtEpoch = some deadline ∧ deadline ≤ room.expiresAtEpoch

theorem Opened.created {room : Room} (h : Opened s db room) : Created s db :=
  ⟨room, h.rooms, h.roomId, h.attempt⟩

theorem create_opened {now now' : Time} {payload : CreatePayload} {codes : List RoomCode}
    {result : RoomView × Token × Token} {scope : Scope} {commandId : CommandId}
    {response : Response} (fresh : ∀ room ∈ s.db.rooms, room.roomId ≠ s.supply)
    (h : s.db.create now s.supply payload codes = .ok (result, db')) :
    ∃ room, Opened s (db'.remember now' scope commandId response) room := by
  simp only [Database.create, bind_eq_ok, raiseIf_eq_ok, orRaise_eq_ok, pure_eq_ok,
    Prod.mk.injEq] at h
  obtain ⟨-, -, -, -, visibility, -, -, -, code, -, -, rfl⟩ := h
  exact ⟨_, Database.save_inserted rfl fresh rfl, ⟨_, rfl, rfl, rfl, rfl, rfl, rfl, rfl⟩, ⟨_, rfl⟩,
    ⟨_, rfl, rfl, rfl, rfl⟩, rfl, rfl, rfl, rfl, rfl, rfl, rfl, rfl, rfl, rfl, rfl, _, rfl,
    Nat.add_le_add_left (by decide) _⟩

end Changes

/-- Every call creates one room, or makes a sequence of strokes. -/
theorem step_strokes {s : Store} (op : Op) (nodup : (s.db.rooms.map (·.roomId)).Nodup)
    (fresh : ∀ room ∈ s.db.rooms, room.roomId ≠ s.supply) :
    (∃ room, Opened s (s.step op).db room) ∨ Strokes s op s.db (s.step op).db := by
  cases op with
  | create now payload commandId client codes =>
    refine secretCommand_db (P := fun db => (∃ room, Opened s db room) ∨ Strokes s _ s.db db)
      (.inr .refl) ?_
    exact fun view token reconnect db' hok => .inl (create_opened fresh hok)
  | join now roomCode display commandId client =>
    refine .inr (secretCommand_db
      (P := Strokes s (.join now roomCode display commandId client) s.db) .refl ?_)
    intro view token reconnect db' hok
    have hstrokes : Strokes s (.join now roomCode display commandId client) s.db db' :=
      join_strokes rfl hok
    exact hstrokes.tail (.remember ..)
  | joinPublic now listingId display commandId client =>
    refine .inr (secretCommand_db
      (P := Strokes s (.joinPublic now listingId display commandId client) s.db) .refl ?_)
    intro view token reconnect db' hok
    have hstrokes : Strokes s (.joinPublic now listingId display commandId client) s.db db' :=
      joinPublic_strokes rfl hok
    exact hstrokes.tail (.remember ..)
  | reconnect now roomId token commandId =>
    refine .inr (secretCommand_db (P := Strokes s (.reconnect now roomId token commandId) s.db)
      .refl ?_)
    intro view memberToken reconnectToken db' hok
    have hstrokes : Strokes s (.reconnect now roomId token commandId) s.db db' :=
      reconnect_strokes rfl hok
    exact hstrokes.tail (.remember ..)
  | expire now roomId =>
    refine .inr (transaction_db (P := Strokes s _ s.db) .refl fun _ db' hok => ?_)
    cases hload : s.db.load now roomId with
    | error e => simp [hload, Except.map] at hok
    | ok loaded =>
      simp only [hload, Except.map, Except.ok.injEq, Prod.mk.injEq, true_and] at hok
      subst hok
      exact (@load_strokes s (.expire now roomId) _ _ _ _ hload).1
  | mutate now roomId bearer commandId action payload version =>
    refine .inr (transaction_db (P := Strokes s _ s.db) .refl fun _ db' hok =>
      memberCommand_strokes ?_ hok)
    exact fun db₁ room memberId r event data revoked haddressed hcredited hwritten =>
      ⟨.mutate rfl haddressed hwritten, Room.mutate_seats hcredited hwritten,
        .inl (Room.mutate_write hwritten).1⟩
  | beginDClosing now roomId bearer commandId attemptId payload version =>
    refine .inr (transaction_db (P := Strokes s _ s.db) .refl fun _ db' hok =>
      memberCommand_strokes ?_ hok)
    intro db₁ room memberId r event data revoked haddressed _ hwritten
    refine ⟨.beginDClosing rfl haddressed hwritten, Room.beginDClosing_seats hwritten, ?_⟩
    cases hopen : room.isOpen with
    | true => exact .inl rfl
    | false =>
      exact .inr ⟨⟨memberId, haddressed.credited⟩, .inl (Room.beginDClosing_over hopen hwritten)⟩
  | acknowledgeDQuiescent now roomId bearer commandId attemptId payload version =>
    refine .inr (transaction_db (P := Strokes s _ s.db) .refl fun _ db' hok =>
      memberCommand_strokes ?_ hok)
    intro db₁ room memberId r event data revoked haddressed _ hwritten
    refine ⟨.acknowledgeDQuiescent rfl haddressed hwritten,
      Room.acknowledgeDQuiescent_seats hwritten, ?_⟩
    cases hopen : room.isOpen with
    | true => exact .inl rfl
    | false =>
      refine .inr ⟨⟨memberId, haddressed.credited⟩, ?_⟩
      obtain hover | ⟨a, d, m, report, hchecked, hother⟩ :=
        Room.acknowledgeDQuiescent_over hopen hwritten
      · exact .inl hover
      · exact .inr ⟨room, memberId, a, d, m, report, haddressed, hopen, hchecked, hother⟩
  | failTransportAttempt now roomId attemptId code =>
    exact .inr (failTransportAttempt_db rfl s roomId attemptId code .refl)
  | forceDBarrier now roomId attemptId code =>
    exact .inr (forceDBarrier_db rfl s roomId attemptId code .refl)
  | failActiveAttempts now code => exact .inr (failActiveAttempts_db rfl s code .refl)
  | sweepPresence now =>
    exact .inr (transaction_db (P := Strokes s _ s.db) .refl fun _ db' hok =>
      sweepPresence_strokes rfl nodup hok)
  | restart now =>
    exact .inr (failActiveAttempts_db rfl { s with ephemeral := [] } "relay.restart" .refl)

/-- Every call creates one room, or makes a sequence of changes. -/
theorem step_changes {s : Store} (op : Op) (nodup : (s.db.rooms.map (·.roomId)).Nodup)
    (fresh : ∀ room ∈ s.db.rooms, room.roomId ≠ s.supply) :
    Created s (s.step op).db ∨ Changes s op s.db (s.step op).db := by
  obtain ⟨room, hopened⟩ | hstrokes := step_strokes op nodup fresh
  · exact .inl hopened.created
  · exact .inr hstrokes.changes

end SwitchTrade.Authority

import SwitchTrade.Authority.AttemptMove
import SwitchTrade.Authority.Store

/-!
# What each writer does to seats, presence and credentials

A member's entry says who sits where and whether it is there; the rest of the entry is its
readiness. `SeatMove` lists, once, what a write of a document can do to the former, with
the credential rows it deactivates in the same transaction. The D operations are the only
writers that do not look at the state of the room: `SeatMove.late` is their write to a
room that is no longer open.
-/

namespace SwitchTrade.Authority

open Fallible

/-! ## Places -/

/-- Who sits where, and whether it is there. -/
structure Place where
  memberId : MemberId
  seat : Seat
  onlineState : OnlineState
  deriving DecidableEq, Repr

def Member.place (m : Member) : Place := ⟨m.memberId, m.seat, m.onlineState⟩

/-- The member is online, or has been missed for a short while only. -/
def OnlineState.present : OnlineState → Bool
  | .online | .reconnecting => true
  | .offline | .left => false

/-- What a member's entry becomes when it is seen. -/
def Member.seen (now : Time) (m : Member) : Member :=
  { m with onlineState := .online, reconnectDeadline := none, lastSeenEpoch := now }

/-- What a member's entry becomes when its heartbeat is missing. -/
def Member.suspected (now : Time) (m : Member) : Member :=
  { m with onlineState := .reconnecting, reconnectDeadline := some (now + reconnectSeconds) }

def Room.places (room : Room) : List Place := room.members.map Member.place

/-- An active credential row names the member. -/
def Database.Credited (db : Database) (roomId : RoomId) (id : MemberId) : Prop :=
  ∃ row ∈ db.credentials, row.active = true ∧ row.roomId = roomId ∧ row.memberId = id

/-- One write of a document, and the credential rows that go with it. -/
inductive SeatMove (now : Time) (db : Database) (room : Room) : Revoked → Room → Prop
  | settle (r : Room) (same : r.places = room.places) (isOpen : room.isOpen = true)
      (stays : r.isOpen = true) : SeatMove now db room .nobody r
  | late (r : Room) (same : r.places = room.places) (shut : room.isOpen = false) :
      SeatMove now db room .nobody r
  | expire (isOpen : room.isOpen = true) :
      SeatMove now db room .everybody { room with state := .expired }
  | close (r : Room) (same : r.places = room.places) (isOpen : room.isOpen = true)
      (shut : r.isOpen = false) : SeatMove now db room .everybody r
  | drop (id : MemberId) (isOpen : room.isOpen = true) (other : id ≠ room.ownerMemberId) :
      SeatMove now db room (.member id) (room.dropMember now id)
  | suspect (i : Nat) (m : Member) (held : room.members[i]? = some m)
      (online : m.onlineState = .online) (isOpen : room.isOpen = true) :
      SeatMove now db room .nobody (room.modifyAt i (Member.suspected now))
  | lapse (i : Nat) (m : Member) (held : room.members[i]? = some m)
      (missed : m.onlineState = .reconnecting) (isOpen : room.isOpen = true) :
      SeatMove now db room (.member m.memberId) (room.expireMember now i)
  | beat (id : MemberId) (isOpen : room.isOpen = true) (credited : db.Credited room.roomId id) :
      SeatMove now db room .nobody (room.modifyMember id (Member.seen now))

namespace Room

variable {room r : Room} {now : Time} {fresh : AttemptId} {memberId : MemberId} {payload : Payload}
  {event : String} {data : EventData} {revoked : Revoked} {db : Database}

/-! ## Writes that leave the places alone -/

theorem map_places {f : Member → Member} (hf : ∀ m, (f m).place = m.place) (members : List Member) :
    (members.map f).map Member.place = members.map Member.place := by
  rw [List.map_map]
  exact List.map_congr_left fun m _ => hf m

theorem unready_place (m : Member) : m.unready.place = m.place := rfl

@[simp] theorem unreadyActive_places : room.unreadyActive.places = room.places := by
  refine map_places (fun m => ?_) room.members
  split <;> rfl

@[simp] theorem unreadyAll_places : room.unreadyAll.places = room.places :=
  map_places unready_place room.members

theorem modifyMember_places {f : Member → Member} (hf : ∀ m, (f m).place = m.place) :
    (room.modifyMember memberId f).places = room.places := by
  refine map_places (fun m => ?_) room.members
  split
  · exact hf m
  · rfl

theorem setReadiness_places {ready : Bool} {role : Option SwitchRoomRole} :
    (room.setReadiness memberId ready role).places = room.places := by
  have hchoose : (room.modifyMember memberId (·.choose ready role)).places = room.places :=
    modifyMember_places fun _ => rfl
  unfold setReadiness
  split
  · exact hchoose
  · exact hchoose

theorem setReadiness_isOpen {ready : Bool} {role : Option SwitchRoomRole} :
    (room.setReadiness memberId ready role).isOpen = room.isOpen := by
  unfold setReadiness
  split <;> rfl

theorem enterPhase_places {a : Attempt} {p : AttemptPhase} {code : Option String} :
    (room.enterPhase now a p code).places = room.places := by
  unfold enterPhase
  simp only
  split
  · rfl
  · split
    · exact unreadyActive_places
    · rfl

theorem enterPhase_isOpen {a : Attempt} {p : AttemptPhase} {code : Option String}
    (isOpen : room.isOpen = true) : (room.enterPhase now a p code).isOpen = true := by
  unfold enterPhase
  simp only
  split
  · rfl
  · split
    · rfl
    · exact isOpen

theorem recordQuiescent_places {a : Attempt} {d : DState} {seat : Seat} {report : DSideReport} :
    (room.recordQuiescent a d seat report now).places = room.places := by
  obtain ⟨-, heq⟩ | ⟨status, code, -, heq⟩ := @recordQuiescent_cases room now a d seat report
  · rw [heq]
    rfl
  · rw [heq]
    exact unreadyActive_places

theorem recordQuiescent_isOpen {a : Attempt} {d : DState} {seat : Seat} {report : DSideReport}
    (isOpen : room.isOpen = true) : (room.recordQuiescent a d seat report now).isOpen = true := by
  obtain ⟨-, heq⟩ | ⟨status, code, -, heq⟩ := @recordQuiescent_cases room now a d seat report
  · rw [heq]
    exact isOpen
  · rw [heq]
    rfl

/-! ## The actions of `mutate` -/

theorem dispatch_seats {act : Action} (isOpen : room.isOpen = true)
    (credited : db.Credited room.roomId memberId)
    (h : room.dispatch now fresh memberId act payload = .ok (.write r event data revoked)) :
    SeatMove now db room revoked r := by
  cases dispatch_dispatched h with
  | chosen _ a choice =>
    subst choice
    exact .settle _ setReadiness_places isOpen (setReadiness_isOpen.trans isOpen)
  | begun before creator choice =>
    subst choice
    exact .settle _ setReadiness_places isOpen rfl
  | settled before state choice idle next =>
    subst choice
    refine .settle _ setReadiness_places isOpen ?_
    rcases next with rfl | rfl <;> rfl
  | heartbeat => exact .beat memberId isOpen credited
  | attempt => exact .settle _ rfl isOpen rfl
  | claim => exact .settle _ rfl isOpen isOpen
  | transfer => exact .settle _ rfl isOpen isOpen
  | lockRole => exact .settle _ rfl isOpen isOpen
  | refine => exact .settle _ rfl isOpen isOpen
  | enter => exact .settle _ enterPhase_places isOpen (enterPhase_isOpen isOpen)
  | leave owner => exact .drop memberId isOpen fun heq => owner heq.symm
  | removeOffline target owner pending held other =>
    exact .drop target.memberId isOpen fun heq => other (heq.trans owner)
  | close => exact .close _ rfl isOpen rfl

theorem mutate_seats {act : Action} {version : Option Nat}
    (credited : room.isOpen = true → db.Credited room.roomId memberId)
    (h : room.mutate now fresh memberId act payload version = .ok (.write r event data revoked)) :
    SeatMove now db room revoked r := by
  obtain ⟨isOpen, -, -, -, hwritten⟩ := mutate_write h
  exact dispatch_seats isOpen (credited isOpen) hwritten

/-! ## Distributed D, the relay and the sweep -/

/-- A D operation writes to the room whatever the state it is in. -/
theorem SeatMove.of_places (same : r.places = room.places)
    (stays : room.isOpen = true → r.isOpen = true) : SeatMove now db room .nobody r := by
  cases hopen : room.isOpen with
  | true => exact .settle r same hopen (stays hopen)
  | false => exact .late r same hopen

theorem beginDClosing_revoked {attemptId : AttemptId} {closing : DClosingPayload} {version : Nat}
    (h : room.beginDClosing now memberId attemptId closing version =
      .ok (.write r event data revoked)) : revoked = .nobody := by
  simp only [beginDClosing, bind_eq_ok, raiseIf_eq_ok, not_not] at h
  obtain ⟨⟨a, m⟩, -, -, -, -, -, -, -, ⟨outcome, code, gate⟩, -, h⟩ := h
  split at h
  · simp only [bind_eq_ok, pure_eq_ok, reduceCtorEq, and_false, exists_false] at h
  · simp only [bind_eq_ok, raiseIf_eq_ok, pure_eq_ok, Effect.write.injEq] at h
    obtain ⟨-, -, -, -, -, -, -, rfl⟩ := h
    rfl

theorem beginDClosing_seats {attemptId : AttemptId} {closing : DClosingPayload} {version : Nat}
    (h : room.beginDClosing now memberId attemptId closing version =
      .ok (.write r event data revoked)) :
    SeatMove now db room revoked r := by
  obtain rfl := beginDClosing_revoked h
  obtain ⟨a, d, -, -, -, -, rfl, -⟩ := beginDClosing_write h
  exact SeatMove.of_places rfl id

theorem acknowledgeDQuiescent_revoked {attemptId : AttemptId} {quiescent : DQuiescentPayload}
    {version : Nat}
    (h : room.acknowledgeDQuiescent now memberId attemptId quiescent version =
      .ok (.write r event data revoked)) : revoked = .nobody := by
  simp only [acknowledgeDQuiescent, bind_eq_ok, raiseIf_eq_ok, orRaise_eq_ok, not_not] at h
  obtain ⟨⟨a, m⟩, -, d, -, -, -, -, -, -, -, report, -, h⟩ := h
  split at h
  · simp only [bind_eq_ok, pure_eq_ok, reduceCtorEq, and_false, exists_false] at h
  · simp only [bind_eq_ok, raiseIf_eq_ok, pure_eq_ok, Effect.write.injEq] at h
    obtain ⟨-, -, -, -, -, rfl⟩ := h
    rfl

theorem acknowledgeDQuiescent_seats {attemptId : AttemptId} {quiescent : DQuiescentPayload}
    {version : Nat}
    (h : room.acknowledgeDQuiescent now memberId attemptId quiescent version =
      .ok (.write r event data revoked)) :
    SeatMove now db room revoked r := by
  obtain rfl := acknowledgeDQuiescent_revoked h
  obtain ⟨a, d, m, report, -, rfl⟩ := acknowledgeDQuiescent_write h
  exact SeatMove.of_places recordQuiescent_places recordQuiescent_isOpen

theorem beginDClosing_over {attemptId : AttemptId} {closing : DClosingPayload} {version : Nat}
    (shut : room.isOpen = false)
    (h : room.beginDClosing now memberId attemptId closing version =
      .ok (.write r event data revoked)) : r.isOpen = false := by
  obtain ⟨a, d, -, -, -, -, rfl, -⟩ := beginDClosing_write h
  exact shut

/-- A report reopens a room that is over if and only if it completes the pair. -/
theorem acknowledgeDQuiescent_over {attemptId : AttemptId} {quiescent : DQuiescentPayload}
    {version : Nat} (shut : room.isOpen = false)
    (h : room.acknowledgeDQuiescent now memberId attemptId quiescent version =
      .ok (.write r event data revoked)) :
    r.isOpen = false ∨ ∃ a d m report,
      room.Acknowledges now memberId attemptId quiescent version a d m report ∧
        (d.sides.get m.seat.other).isSome := by
  obtain ⟨a, d, m, report, checked, rfl⟩ := acknowledgeDQuiescent_write h
  obtain ⟨-, heq⟩ | ⟨status, code, ⟨sideA, sideB, hA, hB, -⟩, heq⟩ :=
    @recordQuiescent_cases room now a d m.seat report
  · rw [heq]
    exact .inl shut
  · exact .inr ⟨a, d, m, report, checked, DSides.other_of_both checked.first checked.first hA hB⟩

theorem failTransportAttempt_isOpen {attemptId : AttemptId} {code : String}
    (h : room.failTransportAttempt now attemptId code = some r) : room.isOpen = true := by
  obtain ⟨a, -, isOpen, -⟩ := failTransportAttempt_some h
  exact isOpen

theorem forceDBarrier_isOpen {attemptId : AttemptId} {code : String}
    (h : room.forceDBarrier now attemptId code = some r) : room.isOpen = true := by
  obtain ⟨a, d, -, -, isOpen, -⟩ := forceDBarrier_some h
  exact isOpen

theorem failTransportAttempt_seats {attemptId : AttemptId} {code : String}
    (h : room.failTransportAttempt now attemptId code = some r) :
    SeatMove now db room .nobody r := by
  obtain ⟨a, -, isOpen, -, -, -, rfl⟩ := failTransportAttempt_some h
  exact .settle _ unreadyActive_places isOpen rfl

theorem forceDBarrier_seats {attemptId : AttemptId} {code : String}
    (h : room.forceDBarrier now attemptId code = some r) : SeatMove now db room .nobody r := by
  obtain ⟨a, d, -, -, isOpen, -, -, rfl⟩ := forceDBarrier_some h
  exact .settle _ unreadyActive_places isOpen rfl

theorem sweepBarrier_seats (isOpen : room.isOpen = true) (h : room.sweepBarrier now = some r) :
    SeatMove now db room .nobody r ∧ r.isOpen = true := by
  obtain ⟨a, d, -, -, -, -, rfl⟩ := sweepBarrier_some h
  exact ⟨.settle _ unreadyActive_places isOpen rfl, rfl⟩

theorem expireMember_isOpen {i : Nat} (isOpen : room.isOpen = true) :
    (room.expireMember now i).isOpen = true := by
  unfold expireMember
  simp only
  split
  · exact isOpen
  · split
    · exact isOpen
    · rfl

theorem sweepMember_seats {i : Nat} {offline : Bool} (isOpen : room.isOpen = true)
    (h : room.sweepMember now i = some (r, event, memberId, offline)) :
    SeatMove now db room (if offline then .member memberId else .nobody) r ∧ r.isOpen = true := by
  obtain ⟨m, hm, rfl, ⟨honline, rfl, rfl⟩ | ⟨hmissed, rfl, rfl⟩⟩ := sweepMember_some h
  · exact ⟨.suspect i m hm honline isOpen, isOpen⟩
  · exact ⟨.lapse i m hm hmissed isOpen, expireMember_isOpen isOpen⟩

/-- Only an open room is due for expiry. -/
theorem expiryDue_isOpen (due : room.expiryDue now = some true) : room.isOpen = true := by
  unfold expiryDue at due
  split at due
  · cases due
  · rename_i hwaiting _
    simp [isOpen, hwaiting]
  · simp only [Option.some.injEq, Bool.and_eq_true] at due
    exact due.1

end Room

end SwitchTrade.Authority

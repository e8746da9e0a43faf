import SwitchTrade.Authority.RoomChange

/-!
# What each writer does to the pair behind an attempt

An attempt is made for the two members of a room: it names one of them as the creator, and
while it runs their roles in the document follow that choice. `RoleMove` lists, once, what a
write does to the attempt's identity, to the counter the attempts are numbered by, and to
the members' roles. The retiring actions are those that may replace or drop an attempt.
-/

namespace SwitchTrade.Authority

open Fallible

/-- Two readings of one attempt: what is written once is the same. -/
structure SameAttempt (a b : Attempt) : Prop where
  id : b.attemptId = a.attemptId
  number : b.attemptNumber = a.attemptNumber
  generation : b.activationGeneration = a.activationGeneration
  creator : b.creatorMemberId = a.creatorMemberId
  locked : a.roleLocked = true → b.roleLocked = true

theorem SameAttempt.refl (a : Attempt) : SameAttempt a a := ⟨rfl, rfl, rfl, rfl, fun h => h⟩

theorem SameAttempt.trans {a b c : Attempt} (h : SameAttempt a b) (h' : SameAttempt b c) :
    SameAttempt a c :=
  ⟨h'.id.trans h.id, h'.number.trans h.number, h'.generation.trans h.generation,
    h'.creator.trans h.creator, fun locked => h'.locked (h.locked locked)⟩

/-- The four actions that may end an attempt's time in the document. -/
def Action.retires : Action → Bool
  | .ready | .attempt | .leave | .removeOffline => true
  | _ => false

/-- Every member of `r` has the role it had in `room`. -/
def RolesKept (room r : Room) : Prop :=
  ∀ m' ∈ r.members, ∃ m ∈ room.members,
    m'.memberId = m.memberId ∧ m'.switchRoomRole = m.switchRoomRole

/-- One write of a document, as far as the attempt, its number and the roles go. The action is
that of a `mutate` call. -/
inductive RoleMove (now : Time) (fresh : AttemptId) (act : Option Action) (room : Room) :
    Room → Prop
  | idle (r : Room) (last : r.lastAttemptNumber = room.lastAttemptNumber) (none : r.attempt = none)
      (finished : ∀ a, room.attempt = some a →
        act.any Action.retires = true ∧ (a.roleLocked = true → a.phase.terminal = true)) :
      RoleMove now fresh act room r
  | finish (r : Room) (a b : Attempt) (last : r.lastAttemptNumber = room.lastAttemptNumber)
      (held : room.attempt = some a) (kept : r.attempt = some b) (same : SameAttempt a b)
      (terminal : b.phase.terminal = true)
      (new : act.any Action.retires = true → a.phase.terminal = true) :
      RoleMove now fresh act room r
  | keep (r : Room) (a b : Attempt) (last : r.lastAttemptNumber = room.lastAttemptNumber)
      (held : room.attempt = some a) (kept : r.attempt = some b) (same : SameAttempt a b)
      (active : a.phase.terminal = false) (stays : b.phase.terminal = false)
      (closing : a.phase = .closing → b.phase = .closing) (roles : RolesKept room r) :
      RoleMove now fresh act room r
  | choose (r : Room) (a : Attempt) (id : MemberId) (role : Option SwitchRoomRole)
      (last : r.lastAttemptNumber = room.lastAttemptNumber)
      (held : room.attempt = some a) (kept : r.attempt = some a)
      (active : a.phase.terminal = false) (own : role = a.localSwitchRole id)
      (members : r.members = (room.modifyMember id (·.choose true role)).members) :
      RoleMove now fresh act room r
  | lock (r : Room) (a b : Attempt) (last : r.lastAttemptNumber = room.lastAttemptNumber)
      (held : room.attempt = some a) (kept : r.attempt = some b) (same : SameAttempt a b)
      (phase : b.phase = .connectingSwitches) (command : act = some .lockRole)
      (roles : RolesKept room r) : RoleMove now fresh act room r
  | lapse (r : Room) (a : Attempt) (last : r.lastAttemptNumber = room.lastAttemptNumber)
      (held : room.attempt = some a) (kept : r.attempt = some a) (closing : a.phase = .closing)
      (roles : ∀ m' ∈ r.members, (∃ m ∈ room.members,
          m'.memberId = m.memberId ∧ m'.switchRoomRole = m.switchRoomRole) ∨
        (m'.onlineState = .offline ∧ m'.switchRoomRole = none)) :
      RoleMove now fresh act room r
  | join (r : Room) (last : r.lastAttemptNumber = room.lastAttemptNumber)
      (kept : r.attempt = room.attempt) (free : room.active.length < 2) :
      RoleMove now fresh act room r
  /-- A claim or a transfer, which asks for an attempt whose roles are not locked. -/
  | assign (r : Room) (a : Attempt) (held : room.attempt = some a)
      (unlocked : a.roleLocked = false) : RoleMove now fresh act room r
  | begin (r before : Room) (creator : MemberId) (begun : r = before.beginAttempt now fresh creator)
      (last : before.lastAttemptNumber = room.lastAttemptNumber)
      (seats : before.places = room.places) (two : before.active.length = 2)
      (roles : Room.complementaryRoles before.active = true)
      (first : Room.creatorOf before.active = some creator)
      (finished : ∀ a, room.attempt = some a → a.phase.terminal = true)
      (command : act.any Action.retires = true) : RoleMove now fresh act room r

section

variable {room r : Room} {now : Time} {fresh : AttemptId} {memberId : MemberId}
  {act : Option Action}

/-! ## Roles that stay -/

theorem RolesKept.of_members (same : r.members = room.members) : RolesKept room r := by
  intro m hm
  rw [same] at hm
  exact ⟨m, hm, rfl, rfl⟩

theorem RolesKept.map {f : Member → Member} (hid : ∀ m, (f m).memberId = m.memberId)
    (hrole : ∀ m, (f m).switchRoomRole = m.switchRoomRole)
    (members : r.members = room.members.map f) : RolesKept room r := by
  intro m' hm'
  rw [members] at hm'
  obtain ⟨m, hm, rfl⟩ := List.mem_map.mp hm'
  exact ⟨m, hm, hid m, hrole m⟩

theorem RolesKept.modifyMember {f : Member → Member} (hid : ∀ m, (f m).memberId = m.memberId)
    (hrole : ∀ m, (f m).switchRoomRole = m.switchRoomRole) :
    RolesKept room (room.modifyMember memberId f) := by
  refine .map (f := fun m => if m.memberId = memberId then f m else m) (fun m => ?_)
    (fun m => ?_) rfl
  · by_cases own : m.memberId = memberId
    · simp only [own, if_true, hid]
    · simp only [own, if_false]
  · by_cases own : m.memberId = memberId
    · simp only [own, if_true, hrole]
    · simp only [own, if_false]

/-! ## Shapes several writers share -/

/-- The attempt stays what it is. -/
theorem RoleMove.of_same (last : r.lastAttemptNumber = room.lastAttemptNumber)
    (kept : r.attempt = room.attempt) (roles : RolesKept room r) :
    RoleMove now fresh act room r := by
  cases held : room.attempt with
  | none => exact .idle r last (kept.trans held) (by simp [held])
  | some a =>
    cases hphase : a.phase.terminal with
    | true => exact .finish r a a last held (kept.trans held) (.refl a) hphase fun _ => hphase
    | false => exact .keep r a a last held (kept.trans held) (.refl a) hphase hphase id roles

/-- The attempt moves on; from `closing` it only moves to its end. -/
theorem RoleMove.of_phase {a b : Attempt} (command : act.any Action.retires = false)
    (last : r.lastAttemptNumber = room.lastAttemptNumber)
    (held : room.attempt = some a) (kept : r.attempt = some b) (same : SameAttempt a b)
    (active : a.phase.terminal = false)
    (closing : a.phase = .closing → b.phase = .closing ∨ b.phase.terminal = true)
    (roles : b.phase.terminal = false → RolesKept room r) : RoleMove now fresh act room r := by
  cases hphase : b.phase.terminal with
  | true => exact .finish r a b last held kept same hphase fun h => by simp [command] at h
  | false =>
    refine .keep r a b last held kept same active hphase (fun h => ?_) (roles hphase)
    exact (closing h).resolve_right (by simp [hphase])

end

namespace Room

variable {room r : Room} {now : Time} {fresh : AttemptId} {memberId : MemberId} {payload : Payload}
  {event : String} {data : EventData} {revoked : Revoked}
  {act : Option Action}

/-- An entry of a list one position of which was rewritten. -/
theorem mem_modify {members : List Member} {i : Nat} {f : Member → Member} {m' : Member}
    (h : m' ∈ members.modify i f) : ∃ m ∈ members, m' = m ∨ m' = f m := by
  obtain ⟨j, hj⟩ := List.mem_iff_getElem?.mp h
  rw [List.getElem?_modify] at hj
  cases hm : members[j]? with
  | none => simp [hm] at hj
  | some m =>
    refine ⟨m, List.mem_of_getElem? hm, ?_⟩
    by_cases hij : i = j
    · simp only [hm, hij, if_true, Option.map_eq_map, Option.map_some, Option.some.injEq] at hj
      exact .inr hj.symm
    · simp only [hm, hij, if_false, Option.map_eq_map, Option.map_some, Option.some.injEq] at hj
      exact .inl hj.symm

/-- Phases are ordered so that only the end lies behind `closing`. -/
theorem closing_order {p : AttemptPhase} (h : attemptPhaseOrder .closing ≤ attemptPhaseOrder p) :
    p = .closing ∨ p.terminal = true := by
  revert h
  cases p <;> decide

theorem enterPhase_last {a : Attempt} {p : AttemptPhase} {code : Option String} :
    (room.enterPhase now a p code).lastAttemptNumber = room.lastAttemptNumber := by
  unfold enterPhase
  simp only
  split
  · rfl
  · split <;> rfl

/-- Only the end of an attempt touches the members. -/
theorem enterPhase_members {a : Attempt} {p : AttemptPhase} {code : Option String}
    (active : p.terminal = false) : (room.enterPhase now a p code).members = room.members := by
  unfold enterPhase
  simp only [active]
  split <;> rfl

/-! ## The actions of `mutate` -/

/-- With an attempt still running, choosing changes one role; otherwise the attempt stays or
a finished one is dropped. -/
theorem setReadiness_last {ready : Bool} {role : Option SwitchRoomRole} :
    (room.setReadiness memberId ready role).lastAttemptNumber = room.lastAttemptNumber ∧
      (room.setReadiness memberId ready role).members =
        (room.modifyMember memberId (·.choose ready role)).members := by
  unfold setReadiness
  split <;> exact ⟨rfl, rfl⟩

/-- A room whose document keeps the attempt, or drops a finished one, stays as it is. -/
theorem settled_roles {before : Room} (last : r.lastAttemptNumber = before.lastAttemptNumber)
    (attempt : r.attempt = before.attempt ∨ r.attempt = none)
    (finished : ∀ a, before.attempt = some a → a.phase.terminal = true) :
    RoleMove now fresh (some .ready) before r := by
  cases hnone : r.attempt with
  | none => exact .idle r last hnone fun a ha => ⟨rfl, fun _ => finished a ha⟩
  | some a =>
    have held : before.attempt = some a := (attempt.resolve_right (by simp [hnone])) ▸ hnone
    exact .finish r a a last held hnone (.refl a) (finished a held) fun _ => finished a held

/-- A member only goes when no locked attempt still runs. -/
theorem dropMember_roles (command : act.any Action.retires = true)
    (pending : room.teardownPending = false) :
    RoleMove now fresh act room (room.dropMember now memberId) := by
  refine .idle _ rfl rfl fun a ha => ⟨command, fun hlocked => ?_⟩
  simpa [teardownPending, ha, hlocked] using pending

theorem dispatch_roles {act : Action}
    (h : room.dispatch now fresh memberId act payload = .ok (.write r event data revoked)) :
    RoleMove now fresh (some act) room r := by
  have hset := @setReadiness_attempt room memberId (payload.ready.getD true) payload.switchRoomRole
  have hlast := @setReadiness_last room memberId (payload.ready.getD true) payload.switchRoomRole
  cases dispatch_dispatched h with
  | chosen _ a choice held active ready role =>
    subst choice
    have held' : room.attempt = some a := by
      rcases hset with hset | ⟨-, hset⟩
      · exact hset.symm.trans held
      · simp [hset] at held
    refine .choose _ a memberId payload.switchRoomRole hlast.1 held' held active role ?_
    rw [hlast.2, ready]
  | begun before creator choice idle two roles first =>
    subst choice
    exact .begin _ _ creator rfl hlast.1 setReadiness_places two roles first
      (choice_finished idle) rfl
  | settled before state choice idle =>
    subst choice
    exact settled_roles hlast.1 (hset.imp_right And.right) (choice_finished idle)
  | heartbeat => exact .of_same rfl rfl (.modifyMember (fun _ => rfl) fun _ => rfl)
  | attempt creator idle two roles first =>
    exact .begin _ room creator rfl rfl rfl two roles first idle rfl
  | claim a b held unlocked => exact .assign _ a held unlocked
  | transfer a target held unlocked => exact .assign _ a held unlocked
  | lockRole a held =>
    exact .lock _ a _ rfl held rfl ⟨rfl, rfl, rfl, rfl, fun _ => rfl⟩ rfl rfl (.of_members rfl)
  | refine a code held asked valid refines =>
    simp only [Room.refines, Bool.and_eq_true, decide_eq_true_eq] at refines
    have hfailed : a.phase.terminal = true := by rw [refines.1.1]; rfl
    exact .finish _ a _ rfl held rfl ⟨rfl, rfl, rfl, rfl, id⟩ hfailed
      fun h => absurd h (by decide)
  | enter a phase code held asked valid new active forward =>
    have hnumber : (room.enterPhase now a phase code).lastAttemptNumber = room.lastAttemptNumber :=
      enterPhase_last
    refine RoleMove.of_phase rfl hnumber held enterPhase_attempt ⟨rfl, rfl, rfl, rfl, id⟩ active
      (fun hclosing => ?_) fun hphase => ?_
    · exact closing_order (hclosing ▸ forward)
    · exact .of_members (enterPhase_members hphase)
  | leave owner pending => exact dropMember_roles rfl pending
  | removeOffline target owner pending => exact dropMember_roles rfl pending
  | close =>
    cases ha : room.attempt with
    | none => exact .idle _ rfl rfl (by simp [ha])
    | some a =>
      cases hphase : a.phase.terminal with
      | true =>
        refine .finish _ a a rfl ha ?_ (.refl a) hphase fun _ => hphase
        simp only [Option.map_some, hphase, if_true]
      | false =>
        refine .finish _ a { a with phase := .canceled, updatedAt := now } rfl ha ?_
          ⟨rfl, rfl, rfl, rfl, id⟩ rfl fun h => absurd h (by decide)
        simp [hphase]

/-! ## Distributed D, the relay and the sweep -/

theorem beginDClosing_roles {attemptId : AttemptId} {closing : DClosingPayload} {version : Nat}
    (h : room.beginDClosing now memberId attemptId closing version =
      .ok (.write r event data revoked)) :
    RoleMove now fresh none room r := by
  obtain ⟨a, d, ha, -, hactive, -, rfl, -⟩ := beginDClosing_write h
  exact .keep _ a (a.closed d now) rfl ha rfl ⟨rfl, rfl, rfl, rfl, id⟩ hactive rfl (fun _ => rfl)
    (.of_members rfl)

/-- The D6 transition, whoever takes it. -/
theorem terminalizeD_roles {a : Attempt} {d : DState} {barrier : BarrierStatus}
    {status : CleanupStatus} {code : Option String} (ha : room.attempt = some a) :
    RoleMove now fresh none room (room.terminalizeD a d barrier status code now) :=
  .finish _ a (a.terminalized d barrier status code now) rfl ha rfl ⟨rfl, rfl, rfl, rfl, id⟩
    d.outcome.terminal_phase fun h => absurd h (by decide)

theorem acknowledgeDQuiescent_roles {attemptId : AttemptId} {quiescent : DQuiescentPayload}
    {version : Nat}
    (h : room.acknowledgeDQuiescent now memberId attemptId quiescent version =
      .ok (.write r event data revoked)) :
    RoleMove now fresh none room r := by
  obtain ⟨a, d, m, report, checked, rfl⟩ := acknowledgeDQuiescent_write h
  obtain ⟨-, heq⟩ | ⟨status, code, -, heq⟩ := @recordQuiescent_cases room now a d m.seat report
  · rw [heq]
    have same : SameAttempt a { a with
        updatedAt := now, d := some { d with sides := d.sides.set m.seat report } } :=
      ⟨rfl, rfl, rfl, rfl, id⟩
    rcases checked.finishing with hclosing | hfinished
    · have hactive : a.phase.terminal = false := by rw [hclosing]; rfl
      exact .keep _ a _ rfl checked.held rfl same hactive hactive id (.of_members rfl)
    · exact .finish _ a _ rfl checked.held rfl same hfinished fun _ => hfinished
  · rw [heq]
    exact terminalizeD_roles checked.held

theorem failTransportAttempt_roles {attemptId : AttemptId} {code : String}
    (h : room.failTransportAttempt now attemptId code = some r) :
    RoleMove now fresh none room r := by
  obtain ⟨a, ha, -, -, -, -, rfl⟩ := failTransportAttempt_some h
  exact .finish _ a _ rfl ha rfl ⟨rfl, rfl, rfl, rfl, id⟩ rfl fun h => absurd h (by decide)

theorem forceDBarrier_roles {attemptId : AttemptId} {code : String}
    (h : room.forceDBarrier now attemptId code = some r) : RoleMove now fresh none room r := by
  obtain ⟨a, d, ha, -, -, -, -, rfl⟩ := forceDBarrier_some h
  exact terminalizeD_roles ha

theorem sweepBarrier_roles (h : room.sweepBarrier now = some r) :
    RoleMove now fresh none room r := by
  obtain ⟨a, d, ha, -, -, -, rfl⟩ := sweepBarrier_some h
  exact terminalizeD_roles ha

/-- A member that goes offline for good loses its role. -/
theorem expireMember_roles {i : Nat} :
    RoleMove now fresh none room (room.expireMember now i) := by
  have hlapsed :
      ∀ m' ∈ (room.modifyAt i fun m => { m.unready with onlineState := .offline }).members,
      (∃ m ∈ room.members,
        m'.memberId = m.memberId ∧ m'.switchRoomRole = m.switchRoomRole) ∨
        (m'.onlineState = .offline ∧ m'.switchRoomRole = none) := by
    intro m' hm'
    obtain ⟨m, hm, rfl | rfl⟩ := mem_modify hm'
    · exact .inl ⟨m', hm, rfl, rfl⟩
    · exact .inr ⟨rfl, rfl⟩
  cases ha : room.attempt with
  | none =>
    refine .idle _ ?_ ?_ (by simp [ha])
    · simp only [expireMember, modifyAt_attempt, ha]
      rfl
    · simp only [expireMember, modifyAt_attempt, ha]
  | some a =>
    cases hphase : a.phase.terminal with
    | true =>
      refine .finish _ a a ?_ ha ?_ (.refl a) hphase fun _ => hphase
      · simp only [expireMember, modifyAt_attempt, ha, hphase, or_true, if_true]
        rfl
      · simp only [expireMember, modifyAt_attempt, ha, hphase, or_true, if_true]
    | false =>
      by_cases hclosing : a.phase = .closing
      · have hexpired : room.expireMember now i =
            room.modifyAt i fun m => { m.unready with onlineState := .offline } := by
          simp only [expireMember, modifyAt_attempt, ha, hclosing, true_or, if_true]
        rw [hexpired]
        exact .lapse _ a rfl ha ha hclosing hlapsed
      · refine .finish _ a
          { a with phase := .failed, recoverableError := some "member.reconnect_expired"
                   updatedAt := now } ?_ ha ?_ ⟨rfl, rfl, rfl, rfl, id⟩ rfl
          fun h => absurd h (by decide)
        · simp [expireMember, ha, hclosing, hphase, unreadyAll, modifyAt]
        · simp [expireMember, ha, hclosing, hphase]

theorem sweepMember_roles {i : Nat} {offline : Bool}
    (h : room.sweepMember now i = some (r, event, memberId, offline)) :
    RoleMove now fresh none room r := by
  obtain ⟨m, -, -, ⟨-, -, rfl⟩ | ⟨-, -, rfl⟩⟩ := sweepMember_some h
  · refine .of_same rfl rfl fun m' hm' => ?_
    obtain ⟨m, hm, rfl | rfl⟩ := mem_modify hm'
    · exact ⟨m', hm, rfl, rfl⟩
    · exact ⟨m, hm, rfl, rfl⟩
  · exact expireMember_roles

theorem joinRoom_roles {display : String} (h : room.joinRoom now memberId display = .ok r) :
    RoleMove now fresh none room r := by
  simp only [joinRoom, bind_eq_ok, raiseIf_eq_ok, pure_eq_ok, Nat.not_le] at h
  obtain ⟨-, hfree, rfl⟩ := h
  exact .join _ rfl rfl hfree

theorem reconnectMember_roles {active : Bool}
    (h : room.reconnectMember now memberId active = .ok r) : RoleMove now fresh none room r := by
  simp only [reconnectMember, bind_eq_ok, raiseIf_eq_ok, orRaise_eq_ok, pure_eq_ok] at h
  obtain ⟨-, -, -, -, -, -, -, -, rfl⟩ := h
  exact .of_same rfl rfl (.modifyMember (fun _ => rfl) fun _ => rfl)

end Room

/-! ## One write of a call -/

/-- The action of a `mutate` call. -/
def Op.action : Op → Option Action
  | .mutate _ _ _ _ action .. => some action
  | _ => none

/-- The call may replace or drop an attempt. -/
def Op.retires (op : Op) : Bool := op.action.any Action.retires

theorem Op.action_joins {op : Op} (h : op.joins = true) : op.action = none := by
  cases op <;> first | rfl | cases h

theorem Op.action_reconnects {op : Op} (h : op.reconnects = true) : op.action = none := by
  cases op <;> first | rfl | cases h

theorem Op.action_failsTransport {op : Op} (h : op.failsTransport = true) : op.action = none := by
  cases op <;> first | rfl | cases h

theorem Op.action_sweeps {op : Op} (h : op.sweeps = true) : op.action = none := by
  cases op <;> first | rfl | cases h

theorem RoomWrite.roleMove {s : Store} {op : Op} {room r : Room} (h : RoomWrite s op room r) :
    RoleMove op.now s.supply op.action room r := by
  cases h with
  | expire => exact .of_same rfl rfl (.of_members rfl)
  | mutate call _ written =>
    subst call
    exact Room.dispatch_roles (Room.mutate_write written).2.2.2.2
  | beginDClosing call _ written =>
    subst call
    exact Room.beginDClosing_roles written
  | acknowledgeDQuiescent call _ written =>
    subst call
    exact Room.acknowledgeDQuiescent_roles written
  | join call written =>
    rw [Op.action_joins call]
    exact Room.joinRoom_roles written
  | reconnect call written =>
    rw [Op.action_reconnects call]
    exact Room.reconnectMember_roles written
  | fail call written =>
    rw [Op.action_failsTransport call]
    exact Room.failTransportAttempt_roles written
  | force call written =>
    rw [Op.action_failsTransport call]
    exact Room.forceDBarrier_roles written
  | sweepBarrier call written =>
    rw [Op.action_sweeps call]
    exact Room.sweepBarrier_roles written
  | sweepMember call written =>
    rw [Op.action_sweeps call]
    exact Room.sweepMember_roles written

end SwitchTrade.Authority

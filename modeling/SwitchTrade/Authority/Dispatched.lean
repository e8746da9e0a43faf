import SwitchTrade.Authority.Commands

/-!
# What an action of `mutate` writes

`Dispatched` lists, once, the documents the actions of `mutate` write, each with the checks it
passed and the credentials it revokes. What an action does to the attempt, to the roles, the seats
and the deadline of a room is read off this list and not off the actions.
-/

namespace SwitchTrade.Authority

open Fallible

/-- An action writes the document `r`. `ready` writes the choice of the member first: `chosen`,
`begun` and `settled` are its three ends. -/
inductive Dispatched (room : Room) (now : Time) (fresh : AttemptId) (memberId : MemberId)
    (payload : Payload) : Action → Room → Revoked → Prop
  | chosen (before : Room) (a : Attempt)
      (choice : before =
        room.setReadiness memberId (payload.ready.getD true) payload.switchRoomRole)
      (held : before.attempt = some a) (active : a.phase.terminal = false)
      (ready : payload.ready.getD true = true)
      (role : payload.switchRoomRole = a.localSwitchRole memberId)
      (named : payload.switchRoomRole ≠ none) :
      Dispatched room now fresh memberId payload .ready before .nobody
  | begun (before : Room) (creator : MemberId)
      (choice : before =
        room.setReadiness memberId (payload.ready.getD true) payload.switchRoomRole)
      (idle : ∀ a, before.attempt = some a → a.phase.terminal = true)
      (two : before.active.length = 2)
      (roles : Room.complementaryRoles before.active = true)
      (first : Room.creatorOf before.active = some creator)
      (named : payload.ready.getD true = true → payload.switchRoomRole ≠ none) :
      Dispatched room now fresh memberId payload .ready (before.beginAttempt now fresh creator)
        .nobody
  | settled (before : Room) (state : RoomState)
      (choice : before =
        room.setReadiness memberId (payload.ready.getD true) payload.switchRoomRole)
      (idle : ∀ a, before.attempt = some a → a.phase.terminal = true)
      (next : state = .waitingForComplementaryRole ∨ state = .readyCheck)
      (named : payload.ready.getD true = true → payload.switchRoomRole ≠ none) :
      Dispatched room now fresh memberId payload .ready { before with state } .nobody
  | heartbeat : Dispatched room now fresh memberId payload .heartbeat
      (room.modifyMember memberId fun m =>
        { m with onlineState := .online, reconnectDeadline := none, lastSeenEpoch := now })
      .nobody
  | attempt (creator : MemberId) (idle : ∀ a, room.attempt = some a → a.phase.terminal = true)
      (two : room.active.length = 2) (roles : Room.complementaryRoles room.active = true)
      (first : Room.creatorOf room.active = some creator) :
      Dispatched room now fresh memberId payload .attempt (room.beginAttempt now fresh creator)
        .nobody
  | claim (a b : Attempt) (held : room.attempt = some a) (unlocked : a.roleLocked = false)
      (id : b.attemptId = a.attemptId) :
      Dispatched room now fresh memberId payload .claimCreator { room with attempt := some b }
        .nobody
  | transfer (a : Attempt) (target : MemberId) (held : room.attempt = some a)
      (unlocked : a.roleLocked = false) :
      Dispatched room now fresh memberId payload .transferCreator
        { room with
          attempt := some { a with creatorMemberId := some target, updatedAt := now } }
        .nobody
  | lockRole (a : Attempt) (held : room.attempt = some a) (creator : a.creatorMemberId.isSome) :
      Dispatched room now fresh memberId payload .lockRole
        { room with attempt := some { a with
            roleLocked := true, roleLockVersion := room.roomVersion + 1
            phase := .connectingSwitches, updatedAt := now } }
        .nobody
  | refine (a : Attempt) (code : Option String) (held : room.attempt = some a)
      (asked : payload.phase = some a.phase) (valid : payload.phaseFailureCode a.phase = .ok code)
      (refines : Room.refines a a.phase code = true) :
      Dispatched room now fresh memberId payload .phase
        { room with attempt := some { a with recoverableError := code, updatedAt := now } } .nobody
  | enter (a : Attempt) (phase : AttemptPhase) (code : Option String)
      (held : room.attempt = some a) (asked : payload.phase = some phase)
      (valid : payload.phaseFailureCode phase = .ok code) (new : a.phase ≠ phase)
      (active : a.phase.terminal = false)
      (forward : attemptPhaseOrder a.phase ≤ attemptPhaseOrder phase) :
      Dispatched room now fresh memberId payload .phase (room.enterPhase now a phase code) .nobody
  | leave (owner : room.ownerMemberId ≠ memberId) (pending : room.teardownPending = false) :
      Dispatched room now fresh memberId payload .leave (room.dropMember now memberId)
        (.member memberId)
  | removeOffline (target : Member) (owner : room.ownerMemberId = memberId)
      (pending : room.teardownPending = false) (held : target ∈ room.members)
      (other : target.memberId ≠ memberId) (offline : target.onlineState = .offline) :
      Dispatched room now fresh memberId payload .removeOffline
        (room.dropMember now target.memberId) (.member target.memberId)
  | close (owner : room.ownerMemberId = memberId) :
      Dispatched room now fresh memberId payload .close
        { room with
          attempt := room.attempt.map fun a =>
            if a.phase.terminal then a else { a with phase := .canceled, updatedAt := now }
          state := .closed }
        .everybody

namespace Room

variable {room r : Room} {now : Time} {fresh : AttemptId} {memberId : MemberId} {payload : Payload}
  {event : String} {data : EventData} {revoked : Revoked}

theorem readyCommand_dispatched
    (h : room.readyCommand now fresh memberId payload = .ok (.write r event data revoked)) :
    Dispatched room now fresh memberId payload .ready r revoked := by
  simp only [readyCommand, bind_eq_ok, raiseIf_eq_ok, not_and] at h
  obtain ⟨-, hnamed, h⟩ := h
  split at h
  · rename_i a hactive
    obtain ⟨hheld, hrunning⟩ := Option.filter_eq_some_iff.mp hactive
    simp only [bind_eq_ok, raiseIf_eq_ok, pure_eq_ok, Effect.write.injEq, not_or, not_not] at h
    obtain ⟨-, ⟨hready, hrole⟩, rfl, -, -, rfl⟩ := h
    exact .chosen _ a rfl hheld (by simpa using hrunning) hready hrole (hnamed hready)
  · rename_i hidle
    have idle : ∀ a, (room.setReadiness memberId (payload.ready.getD true)
        payload.switchRoomRole).attempt = some a → a.phase.terminal = true := by
      intro a ha
      simpa [ha, Option.filter] using hidle
    unfold settleReadiness at h
    split at h
    · rename_i hpair
      simp only [bind_eq_ok, orRaise_eq_ok, pure_eq_ok, Effect.write.injEq] at h
      obtain ⟨creator, hcreator, rfl, -, -, rfl⟩ := h
      exact .begun _ creator rfl idle hpair.1 hpair.2.2 hcreator hnamed
    · split at h
      all_goals
        simp only [Except.ok.injEq, Effect.write.injEq] at h
        obtain ⟨rfl, -, -, rfl⟩ := h
      · exact .settled _ _ rfl idle (.inl rfl) hnamed
      · exact .settled _ _ rfl idle (.inr rfl) hnamed

theorem phaseCommand_dispatched
    (h : room.phaseCommand now payload = .ok (.write r event data revoked)) :
    Dispatched room now fresh memberId payload .phase r revoked := by
  simp only [phaseCommand, bind_eq_ok, orRaise_eq_ok] at h
  obtain ⟨phase, hasked, a, ha, code, hvalid, h⟩ := h
  split at h
  · rename_i hsame
    subst hsame
    split at h
    · rename_i hrefines
      simp only [pure_eq_ok, Effect.write.injEq] at h
      obtain ⟨rfl, -, -, rfl⟩ := h
      exact .refine a code ha hasked hvalid hrefines
    · cases h
  · rename_i hnew
    simp only [bind_eq_ok, raiseIf_eq_ok, pure_eq_ok, Effect.write.injEq, not_or, Nat.not_lt,
      Bool.not_eq_true] at h
    obtain ⟨-, ⟨hactive, hforward⟩, rfl, -, -, rfl⟩ := h
    exact .enter a phase code ha hasked hvalid hnew hactive hforward

/-- Whatever an action writes, it is in the list. -/
theorem dispatch_dispatched {act : Action}
    (h : room.dispatch now fresh memberId act payload = .ok (.write r event data revoked)) :
    Dispatched room now fresh memberId payload act r revoked := by
  cases act with
  | ready => exact readyCommand_dispatched h
  | heartbeat =>
    simp only [dispatch, heartbeatCommand, Except.ok.injEq, Effect.write.injEq] at h
    obtain ⟨rfl, -, -, rfl⟩ := h
    exact .heartbeat
  | attempt =>
    simp only [dispatch, attemptCommand] at h
    split at h
    · cases h
    · rename_i hidle
      simp only [bind_eq_ok, raiseIf_eq_ok, orRaise_eq_ok, pure_eq_ok, Effect.write.injEq, not_or,
        not_not] at h
      obtain ⟨-, ⟨htwo, -⟩, -, hroles, creator, hcreator, rfl, -, -, rfl⟩ := h
      exact .attempt creator (fun a ha => by simpa [attemptActive, ha] using hidle) htwo hroles
        hcreator
  | claimCreator =>
    simp only [dispatch, claimCreatorCommand, bind_eq_ok, orRaise_eq_ok, pure_eq_ok,
      Effect.write.injEq, Option.filter_eq_some_iff] at h
    obtain ⟨a, ⟨ha, hunlocked⟩, rfl, -, -, rfl⟩ := h
    exact .claim a _ ha (by simpa using hunlocked) (by split <;> rfl)
  | transferCreator =>
    simp only [dispatch, transferCreatorCommand, bind_eq_ok, orRaise_eq_ok, pure_eq_ok,
      Effect.write.injEq, Option.filter_eq_some_iff, Bool.and_eq_true, Bool.not_eq_true'] at h
    obtain ⟨a, ⟨ha, hunlocked, -⟩, target, -, rfl, -, -, rfl⟩ := h
    exact .transfer a target ha hunlocked
  | lockRole =>
    simp only [dispatch, lockRoleCommand, bind_eq_ok, orRaise_eq_ok, pure_eq_ok,
      Effect.write.injEq, Option.filter_eq_some_iff] at h
    obtain ⟨a, ⟨ha, hcreator⟩, rfl, -, -, rfl⟩ := h
    exact .lockRole a ha hcreator
  | phase => exact phaseCommand_dispatched h
  | leave =>
    simp only [dispatch, leaveCommand, bind_eq_ok, raiseIf_eq_ok, pure_eq_ok, Effect.write.injEq,
      Bool.not_eq_true] at h
    obtain ⟨-, howner, -, hpending, rfl, -, -, rfl⟩ := h
    exact .leave howner hpending
  | removeOffline =>
    simp only [dispatch, removeOfflineCommand, bind_eq_ok, raiseIf_eq_ok, orRaise_eq_ok,
      pure_eq_ok, Effect.write.injEq, not_not, Bool.not_eq_true, Option.filter_eq_some_iff,
      Option.bind_eq_some_iff, decide_eq_true_eq] at h
    obtain ⟨-, howner, -, hpending, target, ⟨⟨named, -, hfound⟩, hother⟩, -, hoffline, rfl, -, -,
      rfl⟩ := h
    exact .removeOffline target howner hpending (List.mem_of_find?_eq_some hfound) hother hoffline
  | close =>
    simp only [dispatch, closeCommand, bind_eq_ok, raiseIf_eq_ok, pure_eq_ok, Effect.write.injEq,
      not_not] at h
    obtain ⟨-, howner, rfl, -, -, rfl⟩ := h
    exact .close howner
  | other => cases h

end Room

end SwitchTrade.Authority

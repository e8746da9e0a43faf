import SwitchTrade.Authority.Dispatched

/-!
# What each writer does to the attempt of a room

Ten functions write `room["attempt"]`. `AttemptMove` lists, once, what each of them can
do to it, with the guard it checked; every invariant of attempts is derived from this
list and not from the functions.
-/

namespace SwitchTrade.Authority

open Fallible

/-- Who writes: an action of `mutate`, one of the D operations, or the relay itself. -/
inductive Writer where
  | action (action : Action)
  | beginDClosing
  | acknowledgeDQuiescent
  | failTransportAttempt
  | forceDBarrier
  | sweepBarrier
  | sweepMember
  /-- Expiry, joining and reconnecting, which leave the attempt alone. -/
  | presence
  deriving DecidableEq, Repr

/-- The attempt after its D6 transition. -/
def Attempt.terminalized (a : Attempt) (d : DState) (barrierStatus : BarrierStatus)
    (cleanupStatus : CleanupStatus) (secondaryFailureCode : Option String) (now : Time) : Attempt :=
  { a with
    phase := d.outcome.phase
    recoverableError := if d.outcome = .failed then d.primaryFailureCode else none
    updatedAt := now
    d := some { d with barrierStatus, cleanupStatus, secondaryFailureCode,
                       terminalizedAt := some now } }

/-- The attempt after its closing intent was frozen. -/
def Attempt.closed (a : Attempt) (d : DState) (now : Time) : Attempt :=
  { a with phase := .closing, updatedAt := now, d := some d }

/-- Both reports are there, and they prove a clean teardown exactly when the cleanup
status says so. -/
def DState.Concluded (d : DState) (cleanupStatus : CleanupStatus) : Prop :=
  ∃ a b, d.sides.memberA = some a ∧ d.sides.memberB = some b ∧
    cleanupStatus = if a.evidence.verified && b.evidence.verified then .verified else .failed

/-- If a report of one seat that was missing completes the pair, so does one of any seat
that was missing: the other seat's report is there. -/
theorem DSides.other_of_both {sides : DSides} {seat seat' : Seat} {r a b : DSideReport}
    (first : sides.get seat = none) (first' : sides.get seat' = none)
    (hA : (sides.set seat r).memberA = some a) (hB : (sides.set seat r).memberB = some b) :
    (sides.get seat'.other).isSome := by
  cases seat <;> cases seat' <;> simp_all [DSides.get, DSides.set, Seat.other]

/-- One write to the attempt of a room. `fresh` is the identifier a new attempt gets. -/
inductive AttemptMove (now : Time) (fresh : AttemptId) :
    Writer → Option Attempt → Option Attempt → Prop
  | same (w : Writer) (x : Option Attempt) : AttemptMove now fresh w x x
  | drop (act : Action) (x : Option Attempt) : AttemptMove now fresh (.action act) x none
  | begin (act : Action) (x : Option Attempt) (b : Attempt)
      (finished : ∀ a, x = some a → a.phase.terminal = true)
      (id : b.attemptId = fresh) (phase : b.phase = .connectingSwitches)
      (locked : b.roleLocked = true) (intent : b.d = none) (error : b.recoverableError = none) :
      AttemptMove now fresh (.action act) x (some b)
  | assign (act : Action) (a b : Attempt) (unlocked : a.roleLocked = false)
      (id : b.attemptId = a.attemptId) :
      AttemptMove now fresh (.action act) (some a) (some b)
  | lock (a : Attempt) (version : Nat) :
      AttemptMove now fresh (.action .lockRole) (some a)
        (some { a with
          roleLocked := true, roleLockVersion := version, phase := .connectingSwitches
          updatedAt := now })
  | refine (a : Attempt) (code : Option String) (phase : a.phase = .failed)
      (generic : a.recoverableError = some "relay.peer_lost")
      (specific : code ≠ some "relay.peer_lost") :
      AttemptMove now fresh (.action .phase) (some a)
        (some { a with recoverableError := code, updatedAt := now })
  | move (a : Attempt) (phase : AttemptPhase) (error : Option String)
      (active : a.phase.terminal = false)
      (forward : attemptPhaseOrder a.phase ≤ attemptPhaseOrder phase) :
      AttemptMove now fresh (.action .phase) (some a)
        (some { a with phase := phase, recoverableError := error, updatedAt := now })
  | cancel (a : Attempt) (active : a.phase.terminal = false) :
      AttemptMove now fresh (.action .close) (some a)
        (some { a with phase := .canceled, updatedAt := now })
  | close (a : Attempt) (d : DState) (active : a.phase.terminal = false) (first : a.d = none)
      (waiting : d.barrierStatus = .waitingForSides) (pending : d.cleanupStatus = .pending) :
      AttemptMove now fresh .beginDClosing (some a) (some (a.closed d now))
  | report (a : Attempt) (d : DState) (seat : Seat) (r : DSideReport) (intent : a.d = some d)
      (finishing : a.phase = .closing ∨ a.phase.terminal = true) (first : d.sides.get seat = none)
      (alone : (d.sides.set seat r).memberA = none ∨ (d.sides.set seat r).memberB = none) :
      AttemptMove now fresh .acknowledgeDQuiescent (some a)
        (some { a with updatedAt := now, d := some { d with sides := d.sides.set seat r } })
  | conclude (a : Attempt) (d : DState) (seat : Seat) (r : DSideReport) (status : CleanupStatus)
      (code : Option String) (intent : a.d = some d)
      (finishing : a.phase = .closing ∨ a.phase.terminal = true) (first : d.sides.get seat = none)
      (both : { d with sides := d.sides.set seat r }.Concluded status) :
      AttemptMove now fresh .acknowledgeDQuiescent (some a)
        (some (a.terminalized { d with sides := d.sides.set seat r } .twoSideTerminal status code
          now))
  | force (w : Writer) (a : Attempt) (d : DState) (barrier : BarrierStatus) (code : Option String)
      (writer : w = .forceDBarrier ∨ w = .sweepBarrier) (closing : a.phase = .closing)
      (intent : a.d = some d) (forced : barrier = .forcedFailure ∨ barrier = .forcedTimeout) :
      AttemptMove now fresh w (some a) (some (a.terminalized d barrier .failed code now))
  | fail (w : Writer) (a : Attempt) (code : String)
      (writer : w = .failTransportAttempt ∨ w = .sweepMember) (active : a.phase.terminal = false)
      (open_ : a.phase ≠ .closing) :
      AttemptMove now fresh w (some a)
        (some { a with phase := .failed, recoverableError := some code, updatedAt := now })

namespace Room

variable {room r : Room} {now : Time} {fresh : AttemptId} {memberId : MemberId} {payload : Payload}
  {event : String} {data : EventData} {revoked : Revoked}

/-! ## Fields the helpers leave alone -/

@[simp] theorem modifyMember_attempt (f : Member → Member) :
    (room.modifyMember memberId f).attempt = room.attempt := rfl

@[simp] theorem modifyAt_attempt (i : Nat) (f : Member → Member) :
    (room.modifyAt i f).attempt = room.attempt := rfl

@[simp] theorem unreadyActive_attempt : room.unreadyActive.attempt = room.attempt := rfl

@[simp] theorem unreadyAll_attempt : room.unreadyAll.attempt = room.attempt := rfl

@[simp] theorem terminalizeD_attempt {a : Attempt} {d : DState} {b : BarrierStatus}
    {c : CleanupStatus} {code : Option String} :
    (room.terminalizeD a d b c code now).attempt = some (a.terminalized d b c code now) := rfl

@[simp] theorem dropMember_attempt : (room.dropMember now memberId).attempt = none := rfl

@[simp] theorem enterPhase_attempt {a : Attempt} {p : AttemptPhase} {code : Option String} :
    (room.enterPhase now a p code).attempt =
      some { a with
        phase := p
        recoverableError := if code.isSome then code else a.recoverableError
        updatedAt := now } := by
  by_cases trading : p = .tradingRoom <;> by_cases finished : p.terminal = true <;>
    simp [enterPhase, trading, finished]

/-! ## The actions of `mutate` -/

theorem beginAttempt_move {act : Action} {creator : MemberId} {x : Option Attempt}
    (finished : ∀ a, x = some a → a.phase.terminal = true) :
    AttemptMove now fresh (.action act) x (room.beginAttempt now fresh creator).attempt :=
  .begin act x _ finished rfl rfl rfl rfl rfl

theorem setReadiness_attempt {ready : Bool} {role : Option SwitchRoomRole} :
    (room.setReadiness memberId ready role).attempt = room.attempt ∨
      (∀ a, room.attempt = some a → a.phase.terminal = true) ∧
        (room.setReadiness memberId ready role).attempt = none := by
  unfold setReadiness
  split
  · rename_i hdrop
    refine .inr ⟨fun a ha => ?_, rfl⟩
    simp only [ha, Option.any_some, Bool.and_eq_true] at hdrop
    exact hdrop.2
  · exact .inl rfl

/-- The choice of a member keeps the attempt or drops a finished one. -/
theorem choice_move {x : Option Attempt} {ready : Bool} {role : Option SwitchRoomRole}
    (choice : x = (room.setReadiness memberId ready role).attempt) :
    AttemptMove now fresh (.action .ready) room.attempt x := by
  rcases @setReadiness_attempt room memberId ready role with hset | ⟨-, hset⟩
  · rw [choice, hset]
    exact .same _ _
  · rw [choice, hset]
    exact .drop _ _

theorem choice_finished {ready : Bool} {role : Option SwitchRoomRole}
    (idle : ∀ a, (room.setReadiness memberId ready role).attempt = some a →
      a.phase.terminal = true) : ∀ a, room.attempt = some a → a.phase.terminal = true := by
  rcases @setReadiness_attempt room memberId ready role with hset | ⟨finished, -⟩
  · rwa [hset] at idle
  · exact finished

theorem dispatch_move {act : Action}
    (h : room.dispatch now fresh memberId act payload = .ok (.write r event data revoked)) :
    AttemptMove now fresh (.action act) room.attempt r.attempt := by
  cases dispatch_dispatched h with
  | chosen _ a choice => exact choice_move (congrArg Room.attempt choice)
  | begun before creator choice idle =>
    subst choice
    exact beginAttempt_move (choice_finished idle)
  | settled before state choice =>
    have hchoice := congrArg Room.attempt choice
    exact choice_move hchoice
  | heartbeat => exact .same _ _
  | attempt creator idle => exact beginAttempt_move idle
  | claim a b held unlocked id =>
    rw [held]
    exact .assign _ _ _ unlocked id
  | transfer a target held unlocked =>
    rw [held]
    exact .assign _ _ _ unlocked rfl
  | lockRole a held =>
    rw [held]
    exact .lock a _
  | refine a code held asked valid refines =>
    rw [held]
    simp only [Room.refines, Bool.and_eq_true, decide_eq_true_eq] at refines
    exact .refine a code refines.1.1 refines.1.2 refines.2
  | enter a phase code held asked valid new active forward =>
    rw [held, enterPhase_attempt]
    exact .move a phase _ active forward
  | leave => exact .drop _ _
  | removeOffline => exact .drop _ _
  | close =>
    cases ha : room.attempt with
    | none => exact .same _ _
    | some a =>
      simp only [Option.map_some]
      split
      · exact .same _ _
      · rename_i hactive
        exact .cancel a (by simpa using hactive)

/-- What a `mutate` call that writes has passed. -/
theorem mutate_write {act : Action} {version : Option Nat}
    (h : room.mutate now fresh memberId act payload version = .ok (.write r event data revoked)) :
    room.isOpen = true ∧ (version.any (· ≠ room.roomVersion) = true → act.ignoresVersion = true) ∧
      (room.member? memberId).isSome ∧
      (act.namesAttempt = true → ∀ a, room.attempt = some a →
        payload.attemptId = some a.attemptId) ∧
      room.dispatch now fresh memberId act payload = .ok (.write r event data revoked) := by
  simp only [mutate, bind_eq_ok, raiseIf_eq_ok, not_not] at h
  obtain ⟨-, hopen, h⟩ := h
  split at h
  · cases h
  · simp only [bind_eq_ok, raiseIf_eq_ok, not_and, not_not] at h
    obtain ⟨-, hversion, -, hmember, -, hnamed, h⟩ := h
    refine ⟨hopen, hversion, Option.ne_none_iff_isSome.mp hmember, fun hact a ha => ?_, h⟩
    simpa [ha] using hnamed hact

/-- Everything `lock_role` is checked against before it writes. -/
structure LocksRole (room : Room) (memberId : MemberId) (payload : Payload)
    (version : Option Nat) (a : Attempt) : Prop where
  isOpen : room.isOpen = true
  current : ∀ v, version = some v → v = room.roomVersion
  member : (room.member? memberId).isSome
  held : room.attempt = some a
  named : payload.attemptId = some a.attemptId
  creator : a.creatorMemberId.isSome

theorem lockRole_write {version : Option Nat}
    (h : room.mutate now fresh memberId .lockRole payload version =
      .ok (.write r event data revoked)) :
    ∃ a, room.LocksRole memberId payload version a := by
  obtain ⟨hopen, hversion, hmember, hnamed, h⟩ := mutate_write h
  cases dispatch_dispatched h with
  | lockRole a held creator =>
    refine ⟨a, hopen, fun v hv => ?_, hmember, held, hnamed rfl a held, creator⟩
    simpa [hv, Action.ignoresVersion] using hversion

/-- Everything a `phase` command that writes is checked against: it changes the phase, or
it refines the code of a failure. -/
structure WritesPhase (room : Room) (memberId : MemberId) (payload : Payload)
    (version : Option Nat) (a : Attempt) (phase : AttemptPhase) (code : Option String) : Prop where
  isOpen : room.isOpen = true
  current : ∀ v, version = some v → v = room.roomVersion
  member : (room.member? memberId).isSome
  held : room.attempt = some a
  named : payload.attemptId = some a.attemptId
  asked : payload.phase = some phase
  valid : payload.phaseFailureCode phase = .ok code
  effective : (a.phase ≠ phase ∧ a.phase.terminal = false ∧
      attemptPhaseOrder a.phase ≤ attemptPhaseOrder phase) ∨
    (a.phase = phase ∧ refines a phase code = true)

theorem phase_write {version : Option Nat}
    (h : room.mutate now fresh memberId .phase payload version =
      .ok (.write r event data revoked)) :
    ∃ a phase code, room.WritesPhase memberId payload version a phase code := by
  obtain ⟨hopen, hversion, hmember, hnamed, h⟩ := mutate_write h
  have hcurrent : ∀ v, version = some v → v = room.roomVersion := by
    intro v hv
    simpa [hv, Action.ignoresVersion] using hversion
  cases dispatch_dispatched h with
  | refine a code held asked valid refines =>
    exact ⟨a, _, code, hopen, hcurrent, hmember, held, hnamed rfl a held, asked, valid,
      .inr ⟨rfl, refines⟩⟩
  | enter a phase code held asked valid new active forward =>
    exact ⟨a, phase, code, hopen, hcurrent, hmember, held, hnamed rfl a held, asked, valid,
      .inl ⟨new, active, forward⟩⟩

/-- Everything `close` is checked against. -/
structure ClosesRoom (room : Room) (memberId : MemberId) : Prop where
  isOpen : room.isOpen = true
  member : (room.member? memberId).isSome
  owner : room.ownerMemberId = memberId

theorem close_write {version : Option Nat}
    (h : room.mutate now fresh memberId .close payload version =
      .ok (.write r event data revoked)) :
    room.ClosesRoom memberId := by
  obtain ⟨hopen, -, hmember, -, h⟩ := mutate_write h
  cases dispatch_dispatched h with
  | close owner => exact ⟨hopen, hmember, owner⟩

theorem mutate_move {act : Action} {version : Option Nat}
    (h : room.mutate now fresh memberId act payload version = .ok (.write r event data revoked)) :
    AttemptMove now fresh (.action act) room.attempt r.attempt :=
  dispatch_move (mutate_write h).2.2.2.2

/-! ## Distributed D -/

theorem dIdentity_spec {attemptId : AttemptId} {a : Attempt} {m : Member}
    (h : room.dIdentity memberId attemptId = .ok (a, m)) :
    room.attempt = some a ∧ a.attemptId = attemptId ∧ room.member? memberId = some m ∧
      m.onlineState ≠ .left := by
  simp only [dIdentity, bind_eq_ok, orRaise_eq_ok, pure_eq_ok, Option.filter_eq_some_iff,
    decide_eq_true_eq, Prod.mk.injEq] at h
  obtain ⟨a', ⟨ha, hid⟩, m', ⟨hm, hleft⟩, rfl, rfl⟩ := h
  exact ⟨ha, hid, hm, hleft⟩

/-- The first closing intent: what `begin_d_closing` froze is what its payload asked for. -/
theorem beginDClosing_write {attemptId : AttemptId} {closing : DClosingPayload} {version : Nat}
    (h : room.beginDClosing now memberId attemptId closing version =
      .ok (.write r event data revoked)) :
    ∃ a d, room.attempt = some a ∧ a.attemptId = attemptId ∧ a.phase.terminal = false ∧
      a.d = none ∧ r = { room with attempt := some (a.closed d now) } ∧
      closing.intent = .ok (d.outcome, d.primaryFailureCode, d.lastPassedGate) ∧
      closing.activationGeneration = some d.activationGeneration ∧
      d.barrierStatus = .waitingForSides ∧ d.cleanupStatus = .pending := by
  simp only [beginDClosing, bind_eq_ok, raiseIf_eq_ok, not_not] at h
  obtain ⟨⟨a, m⟩, hid, -, -, -, -, -, hgen, ⟨outcome, code, gate⟩, hintent, h⟩ := h
  obtain ⟨ha, hid, -, -⟩ := dIdentity_spec hid
  cases hd : a.d with
  | some existing =>
    simp only [hd, bind_eq_ok, pure_eq_ok, reduceCtorEq, and_false, exists_false] at h
  | none =>
    simp only [hd, bind_eq_ok, raiseIf_eq_ok, pure_eq_ok, Effect.write.injEq,
      Bool.not_eq_true] at h
    obtain ⟨-, hactive, -, -, rfl, -⟩ := h
    exact ⟨a, _, ha, hid, hactive, hd, rfl, hintent, hgen, rfl, rfl⟩

theorem beginDClosing_move {attemptId : AttemptId} {closing : DClosingPayload} {version : Nat}
    (h : room.beginDClosing now memberId attemptId closing version =
      .ok (.write r event data revoked)) :
    AttemptMove now fresh .beginDClosing room.attempt r.attempt := by
  obtain ⟨a, d, ha, -, hactive, hd, rfl, -, -, hwaiting, hpending⟩ := beginDClosing_write h
  rw [ha]
  exact .close a d hactive hd hwaiting hpending

/-- A report is recorded alone, or it completes the pair and takes the D6 transition. -/
theorem recordQuiescent_cases (a : Attempt) (d : DState) (seat : Seat) (report : DSideReport) :
    (((d.sides.set seat report).memberA = none ∨ (d.sides.set seat report).memberB = none) ∧
      room.recordQuiescent a d seat report now =
        { room with attempt := some { a with
            updatedAt := now, d := some { d with sides := d.sides.set seat report } } }) ∨
    ∃ status code, { d with sides := d.sides.set seat report }.Concluded status ∧
      room.recordQuiescent a d seat report now =
        room.terminalizeD a { d with sides := d.sides.set seat report } .twoSideTerminal status code
          now := by
  cases hA : (d.sides.set seat report).memberA with
  | none => exact .inl ⟨.inl rfl, by simp only [recordQuiescent, hA]⟩
  | some sideA =>
    cases hB : (d.sides.set seat report).memberB with
    | none => exact .inl ⟨.inr rfl, by simp only [recordQuiescent, hA, hB]⟩
    | some sideB =>
      refine .inr ?_
      by_cases verified : (sideA.evidence.verified && sideB.evidence.verified) = true
      · exact ⟨.verified, none, ⟨sideA, sideB, hA, hB, by rw [if_pos verified]⟩,
          by simp only [recordQuiescent, hA, hB, if_pos verified]⟩
      · exact ⟨.failed, some "D_SIDE_CLEANUP_FAILED",
          ⟨sideA, sideB, hA, hB, by rw [if_neg verified]⟩,
          by simp only [recordQuiescent, hA, hB, if_neg verified]⟩

theorem recordQuiescent_move {a : Attempt} {d : DState} {seat : Seat} {report : DSideReport}
    (ha : room.attempt = some a) (hd : a.d = some d)
    (finishing : a.phase = .closing ∨ a.phase.terminal = true) (first : d.sides.get seat = none) :
    AttemptMove now fresh .acknowledgeDQuiescent room.attempt
      (room.recordQuiescent a d seat report now).attempt := by
  rw [ha]
  obtain ⟨alone, heq⟩ | ⟨status, code, both, heq⟩ :=
    @recordQuiescent_cases room now a d seat report
  · rw [heq]
    exact .report a d seat report hd finishing first alone
  · rw [heq]
    exact .conclude a d seat report status code hd finishing first both

/-- Everything an acknowledgement is checked against before it records `report`. -/
structure Acknowledges (room : Room) (now : Time) (memberId : MemberId) (attemptId : AttemptId)
    (payload : DQuiescentPayload) (version : Nat) (a : Attempt) (d : DState) (m : Member)
    (report : DSideReport) : Prop where
  held : room.attempt = some a
  named : a.attemptId = attemptId
  member : room.member? memberId = some m
  active : m.onlineState ≠ .left
  intent : a.d = some d
  finishing : a.phase = .closing ∨ a.phase.terminal = true
  contract : payload.contractVersion = "d-side-quiescent.v1"
  identity : payload.attemptId = some attemptId ∧ payload.sourceSeat = some m.seat ∧
    payload.activationGeneration = some d.activationGeneration
  valid : payload.report now = .ok report
  first : d.sides.get m.seat = none
  current : version = room.roomVersion

theorem acknowledgeDQuiescent_write {attemptId : AttemptId} {quiescent : DQuiescentPayload}
    {version : Nat}
    (h : room.acknowledgeDQuiescent now memberId attemptId quiescent version =
      .ok (.write r event data revoked)) :
    ∃ a d m report, room.Acknowledges now memberId attemptId quiescent version a d m report ∧
      r = room.recordQuiescent a d m.seat report now := by
  simp only [acknowledgeDQuiescent, bind_eq_ok, raiseIf_eq_ok, orRaise_eq_ok, not_not] at h
  obtain ⟨⟨a, m⟩, hid, d, hd, -, hphase, -, hcontract, -, hidentity, report, hreport, h⟩ := h
  simp only [not_or, not_not] at hidentity
  obtain ⟨ha, hid, hm, hactive⟩ := dIdentity_spec hid
  cases hside : d.sides.get m.seat with
  | some existing =>
    simp only [hside, bind_eq_ok, pure_eq_ok, reduceCtorEq, and_false, exists_false] at h
  | none =>
    simp only [hside, bind_eq_ok, raiseIf_eq_ok, pure_eq_ok, Effect.write.injEq, not_not] at h
    obtain ⟨-, hversion, rfl, -⟩ := h
    exact ⟨a, d, m, report,
      ⟨ha, hid, hm, hactive, hd, hphase, hcontract, hidentity, hreport, hside, hversion⟩, rfl⟩

theorem acknowledgeDQuiescent_move {attemptId : AttemptId} {quiescent : DQuiescentPayload}
    {version : Nat}
    (h : room.acknowledgeDQuiescent now memberId attemptId quiescent version =
      .ok (.write r event data revoked)) :
    AttemptMove now fresh .acknowledgeDQuiescent room.attempt r.attempt := by
  obtain ⟨a, d, m, report, checked, rfl⟩ := acknowledgeDQuiescent_write h
  exact recordQuiescent_move checked.held checked.intent checked.finishing checked.first

/-! ## The relay's own writers -/

theorem failTransportAttempt_some {attemptId : AttemptId} {code : String}
    (h : room.failTransportAttempt now attemptId code = some r) :
    ∃ a, room.attempt = some a ∧ room.isOpen = true ∧ a.attemptId = attemptId ∧
      a.phase.terminal = false ∧ a.phase ≠ .closing ∧
      r = { room.unreadyActive with
        attempt := some { a with phase := .failed, recoverableError := some code, updatedAt := now }
        state := .readyCheck } := by
  unfold failTransportAttempt at h
  split at h
  · cases h
  · rename_i a ha
    split at h
    · cases h
    · rename_i hguard
      split at h
      · cases h
      · rename_i hclosing
        simp only [not_or, not_not] at hguard
        obtain ⟨hopen, hid, hactive⟩ := hguard
        cases h
        exact ⟨a, ha, hopen, hid, (Bool.not_eq_true _).mp hactive, hclosing, rfl⟩

theorem failTransportAttempt_move {attemptId : AttemptId} {code : String}
    (h : room.failTransportAttempt now attemptId code = some r) :
    AttemptMove now fresh .failTransportAttempt room.attempt r.attempt := by
  obtain ⟨a, ha, -, -, hactive, hclosing, rfl⟩ := failTransportAttempt_some h
  rw [ha]
  exact .fail _ a code (.inl rfl) hactive hclosing

theorem forceDBarrier_some {attemptId : AttemptId} {code : String}
    (h : room.forceDBarrier now attemptId code = some r) :
    ∃ a d, room.attempt = some a ∧ a.d = some d ∧ room.isOpen = true ∧ a.attemptId = attemptId ∧
      a.phase = .closing ∧ r = room.terminalizeD a d .forcedFailure .failed (some code) now := by
  unfold forceDBarrier at h
  split at h
  · cases h
  · rename_i a ha
    split at h
    · cases h
    · rename_i d hd
      split at h
      · cases h
      · rename_i hguard
        simp only [not_or, not_not] at hguard
        obtain ⟨hopen, hid, hclosing⟩ := hguard
        cases h
        exact ⟨a, d, ha, hd, hopen, hid, hclosing, rfl⟩

theorem forceDBarrier_move {attemptId : AttemptId} {code : String}
    (h : room.forceDBarrier now attemptId code = some r) :
    AttemptMove now fresh .forceDBarrier room.attempt r.attempt := by
  obtain ⟨a, d, ha, hd, -, -, hclosing, rfl⟩ := forceDBarrier_some h
  rw [ha]
  exact .force _ a d _ _ (.inl rfl) hclosing hd (.inl rfl)

theorem sweepBarrier_some (h : room.sweepBarrier now = some r) :
    ∃ a d, room.attempt = some a ∧ a.d = some d ∧ a.phase = .closing ∧ d.deadlineAt ≤ now ∧
      r = room.terminalizeD a d .forcedTimeout .failed (some "D_BARRIER_TIMEOUT") now := by
  unfold sweepBarrier at h
  split at h
  · cases h
  · rename_i a ha
    split at h
    · cases h
    · rename_i d hd
      split at h
      · rename_i hguard
        cases h
        exact ⟨a, d, ha, hd, hguard.1, hguard.2, rfl⟩
      · cases h

theorem sweepBarrier_move (h : room.sweepBarrier now = some r) :
    AttemptMove now fresh .sweepBarrier room.attempt r.attempt := by
  obtain ⟨a, d, ha, hd, hclosing, -, rfl⟩ := sweepBarrier_some h
  rw [ha]
  exact .force _ a d _ _ (.inr rfl) hclosing hd (.inr rfl)

theorem expireMember_move {i : Nat} :
    AttemptMove now fresh .sweepMember room.attempt (room.expireMember now i).attempt := by
  cases ha : room.attempt with
  | none =>
    simp only [expireMember, modifyAt_attempt, ha]
    exact .same _ _
  | some a =>
    simp only [expireMember, modifyAt_attempt, ha]
    split
    · rw [modifyAt_attempt, ha]
      exact .same _ _
    · rename_i hguard
      simp only [not_or, Bool.not_eq_true] at hguard
      exact .fail _ a _ (.inr rfl) hguard.2 hguard.1

/-- The two things a sweep does to a member: it was online and is given up for a while, or
its time to reconnect ran out. -/
theorem sweepMember_some {i : Nat} {offline : Bool}
    (h : room.sweepMember now i = some (r, event, memberId, offline)) :
    ∃ m, room.members[i]? = some m ∧ m.memberId = memberId ∧
      ((m.onlineState = .online ∧ offline = false ∧
          r = room.modifyAt i fun m => { m with
            onlineState := .reconnecting, reconnectDeadline := some (now + reconnectSeconds) }) ∨
        (m.onlineState = .reconnecting ∧ offline = true ∧ r = room.expireMember now i)) := by
  unfold sweepMember at h
  split at h
  · cases h
  · rename_i m hm
    split at h
    · rename_i hlost
      cases h
      exact ⟨m, hm, rfl, .inl ⟨hlost.1, rfl, rfl⟩⟩
    · split at h
      · rename_i hexpired
        cases h
        exact ⟨m, hm, rfl, .inr ⟨hexpired.1, rfl, rfl⟩⟩
      · cases h

theorem sweepMember_move {i : Nat} {offline : Bool}
    (h : room.sweepMember now i = some (r, event, memberId, offline)) :
    AttemptMove now fresh .sweepMember room.attempt r.attempt := by
  obtain ⟨m, -, -, ⟨-, -, rfl⟩ | ⟨-, -, rfl⟩⟩ := sweepMember_some h
  · exact .same _ _
  · exact expireMember_move

end Room

end SwitchTrade.Authority

import SwitchTrade.Authority.AttemptRun

/-!
# The D6 transition happens once

Three calls take the barrier of a closing attempt out of `waiting_for_sides`: the second
side's report, the sweep after the deadline, and the relay that gives up. The last two need
the phase `closing`, which the transition ends. The report does not: the one that completes
the pair takes the transition whatever the barrier did before. In every run without such a
late report, and without a `lock_role` of the ended attempt, the four fields of the
transition stay, and no further call on the attempt touches the room or its members.
-/

namespace SwitchTrade.Authority

open Fallible Transition

/-- Two readings of `attempt.d` with one D6 transition. -/
def SameTransition (d d' : DState) : Prop :=
  d'.barrierStatus = d.barrierStatus ∧ d'.cleanupStatus = d.cleanupStatus ∧
    d'.secondaryFailureCode = d.secondaryFailureCode ∧ d'.terminalizedAt = d.terminalizedAt

theorem SameTransition.refl (d : DState) : SameTransition d d := ⟨rfl, rfl, rfl, rfl⟩

theorem SameTransition.trans {d d' d'' : DState} (h : SameTransition d d')
    (h' : SameTransition d' d'') : SameTransition d d'' :=
  ⟨h'.1.trans h.1, h'.2.1.trans h.2.1, h'.2.2.1.trans h.2.2.1, h'.2.2.2.trans h.2.2.2⟩

/-- Two readings of one attempt: a transition that was taken stands. -/
def TransitionStands (a b : Attempt) : Prop :=
  ∀ d, a.d = some d → d.barrierStatus ≠ .waitingForSides → ∃ d', b.d = some d' ∧ SameTransition d d'

theorem TransitionStands.of_eq {a b : Attempt} (h : b.d = a.d) : TransitionStands a b :=
  fun d hd _ => ⟨d, h.trans hd, .refl d⟩

theorem TransitionStands.of_waiting {a b : Attempt}
    (h : ∀ d, a.d = some d → d.barrierStatus = .waitingForSides) : TransitionStands a b :=
  fun d hd left => absurd (h d hd) left

theorem TransitionStands.trans {a b c : Attempt} (hab : TransitionStands a b)
    (hbc : TransitionStands b c) : TransitionStands a c := by
  intro d hd left
  obtain ⟨d', hd', h⟩ := hab d hd left
  obtain ⟨d'', hd'', h'⟩ := hbc d' hd' (h.1 ▸ left)
  exact ⟨d'', hd'', h.trans h'⟩

/-! ## The invariant of one attempt -/

/-- A verified cleanup rests on two recorded reports of a clean teardown. -/
def VerifiedBySides (d : DState) : Prop :=
  d.cleanupStatus = .verified → ∃ a b, d.sides.memberA = some a ∧ d.sides.memberB = some b ∧
    a.evidence.verified = true ∧ b.evidence.verified = true

theorem VerifiedBySides.of_concluded {d : DState} {status : CleanupStatus}
    (h : d.Concluded status) (hstatus : status = .verified) :
    ∃ a b, d.sides.memberA = some a ∧ d.sides.memberB = some b ∧
      a.evidence.verified = true ∧ b.evidence.verified = true := by
  obtain ⟨a, b, hA, hB, hverified⟩ := h
  refine ⟨a, b, hA, hB, ?_⟩
  rw [hstatus] at hverified
  split at hverified
  · rename_i both
    exact (Bool.and_eq_true _ _).mp both
  · cases hverified

/-- A recorded pair has no missing seat. -/
theorem DSides.get_of_both {sides : DSides} {a b : DSideReport} (hA : sides.memberA = some a)
    (hB : sides.memberB = some b) (seat : Seat) : sides.get seat ≠ none := by
  cases seat <;> simp [DSides.get, hA, hB]

/-- The barrier of an attempt: an ended one is terminal, a verified one has its reports. -/
def BarrierSound (a : Attempt) : Prop :=
  a.roleLocked = true ∧ ∀ d, a.d = some d →
    (d.barrierStatus ≠ .waitingForSides → a.phase.terminal = true) ∧ VerifiedBySides d

theorem BarrierSound.of_none {a : Attempt} (locked : a.roleLocked = true) (h : a.d = none) :
    BarrierSound a :=
  ⟨locked, fun d hd => by simp [h] at hd⟩

/-- A change of the phase that leaves the intent alone and does not reopen the attempt. -/
theorem BarrierSound.of_eq {a b : Attempt} (h : BarrierSound a)
    (locked : b.roleLocked = a.roleLocked)
    (hd : b.d = a.d) (hphase : a.phase.terminal = true → b.phase.terminal = true) :
    BarrierSound b :=
  ⟨locked ▸ h.1, fun d hbd =>
    ⟨fun left => hphase ((h.2 d (hd ▸ hbd)).1 left), (h.2 d (hd ▸ hbd)).2⟩⟩

theorem BarrierSound.terminalized {a : Attempt} (locked : a.roleLocked = true) {d : DState}
    {barrier : BarrierStatus} {status : CleanupStatus} {code : Option String} {now : Time}
    (verified : status = .verified → ∃ a b, d.sides.memberA = some a ∧ d.sides.memberB = some b ∧
      a.evidence.verified = true ∧ b.evidence.verified = true) :
    BarrierSound (a.terminalized d barrier status code now) := by
  refine ⟨locked, fun d' hd' => ?_⟩
  obtain rfl := Option.some.inj hd'
  exact ⟨fun _ => DOutcome.terminal_phase _, verified⟩

/-- The two late calls are not made: a report that completes the pair after the barrier was
left, and `lock_role` of an attempt whose barrier was left. -/
def KeepsBarrier (s : Store) : Op → Prop
  | .mutate now roomId bearer commandId .lockRole payload version =>
    ∀ room memberId a,
      s.db.Addresses now roomId bearer commandId (.member · .lockRole) room memberId →
      room.LocksRole memberId payload version a →
      ∀ d, a.d = some d → d.barrierStatus = .waitingForSides
  | .acknowledgeDQuiescent now roomId bearer commandId attemptId payload version =>
    ∀ room memberId a d m report,
      s.db.Addresses now roomId bearer commandId (.dQuiescent · attemptId) room memberId →
      room.Acknowledges now memberId attemptId payload version a d m report →
      (d.sides.get m.seat.other).isSome → d.barrierStatus = .waitingForSides
  | _ => True

/-- What one write does to the barrier. -/
theorem RoomWrite.barrier {s : Store} {op : Op} {room r : Room} (hg : KeepsBarrier s op)
    (h : RoomWrite s op room r) :
    Kept s.supply BarrierSound TransitionStands room.attempt r.attempt := by
  obtain ⟨w, hmove, hby⟩ := h.move
  intro sound b hb
  generalize hx : room.attempt = x at hmove sound
  generalize hy : r.attempt = y at hmove hb
  cases hmove with
  | same => exact ⟨sound b hb, fun _ => ⟨b, hb, rfl, .of_eq rfl⟩⟩
  | drop => cases hb
  | begin act x b' finished id phase begunLocked intent =>
    cases hb
    exact ⟨.of_none begunLocked intent, fun hlt => absurd id hlt.ne⟩
  | assign act a b' unlocked =>
    have := (sound a rfl).1
    simp [unlocked] at this
  | lock a version =>
    cases hb
    obtain ⟨now, roomId, bearer, commandId, payload, v, memberId, event, data, revoked, rfl,
      haddressed, hwritten⟩ := hby
    obtain ⟨a', haccepted⟩ := Room.lockRole_write hwritten
    obtain rfl : a' = a := Option.some.inj (haccepted.held.symm.trans hx)
    have hwaiting := hg room memberId a' haddressed haccepted
    refine ⟨⟨rfl, fun d hd => ⟨fun left => absurd (hwaiting d hd) left, ?_⟩⟩,
      fun _ => ⟨a', rfl, rfl, .of_eq rfl⟩⟩
    exact ((sound a' rfl).2 d hd).2
  | refine a =>
    cases hb
    exact ⟨(sound a rfl).of_eq rfl rfl fun finished => finished, fun _ => ⟨a, rfl, rfl, .of_eq rfl⟩⟩
  | move a phase error active =>
    cases hb
    exact ⟨(sound a rfl).of_eq rfl rfl fun finished => by simp [active] at finished,
      fun _ => ⟨a, rfl, rfl, .of_eq rfl⟩⟩
  | cancel a | fail _ a =>
    cases hb
    exact ⟨(sound a rfl).of_eq rfl rfl fun _ => rfl, fun _ => ⟨a, rfl, rfl, .of_eq rfl⟩⟩
  | close a d active first waiting pending =>
    cases hb
    refine ⟨⟨(sound a rfl).1, fun d' hd' => ?_⟩,
      fun _ => ⟨a, rfl, rfl, .of_waiting fun d hd => by simp [first] at hd⟩⟩
    obtain rfl := Option.some.inj hd'
    exact ⟨fun left => absurd waiting left, fun verified => by simp [pending] at verified⟩
  | report a d seat report intent finishing first =>
    cases hb
    refine ⟨⟨(sound a rfl).1, fun d' hd' => ?_⟩, fun _ => ⟨a, rfl, rfl, fun d' hd' _ => ?_⟩⟩
    · obtain rfl := Option.some.inj hd'
      refine ⟨((sound a rfl).2 d intent).1, fun verified => ?_⟩
      obtain ⟨sideA, sideB, hA, hB, -⟩ := ((sound a rfl).2 d intent).2 verified
      exact absurd first (DSides.get_of_both hA hB seat)
    · obtain rfl : d = d' := Option.some.inj (intent.symm.trans hd')
      exact ⟨_, rfl, rfl, rfl, rfl, rfl⟩
  | conclude a d seat report status code intent finishing first both =>
    cases hb
    obtain ⟨now, roomId, bearer, commandId, attemptId, payload, v, memberId, event, data, revoked,
      rfl, haddressed, hwritten⟩ := hby
    obtain ⟨a', d', m, report', checked, -⟩ := Room.acknowledgeDQuiescent_write hwritten
    obtain rfl : a' = a := Option.some.inj (checked.held.symm.trans hx)
    obtain rfl : d' = d := Option.some.inj (checked.intent.symm.trans intent)
    have hverified := VerifiedBySides.of_concluded both
    obtain ⟨sideA, sideB, hA, hB, -⟩ := both
    have hother := DSides.other_of_both first checked.first hA hB
    have hwaiting := hg room memberId a' d' m report' haddressed checked hother
    refine ⟨.terminalized (sound a' rfl).1 hverified,
      fun _ => ⟨a', rfl, rfl, .of_waiting fun d hd => ?_⟩⟩
    obtain rfl : d' = d := Option.some.inj (intent.symm.trans hd)
    exact hwaiting
  | force _ a d barrier code writer closing intent =>
    cases hb
    refine ⟨.terminalized (sound a rfl).1 nofun,
      fun _ => ⟨a, rfl, rfl, .of_waiting fun d' hd' => ?_⟩⟩
    by_contra left
    have := ((sound a rfl).2 d' hd').1 left
    simp [closing, AttemptPhase.terminal] at this

theorem reachable_barrier_sound {s : Store} (hs : system.Reachable KeepsBarrier s) {room : Room}
    (hr : room ∈ s.db.rooms) {a : Attempt} (ha : room.attempt = some a) : BarrierSound a :=
  reachable_attempts (fun _ _ _ _ hg h hx b hb => (h.barrier hg hx b hb).1) hs hr ha

theorem run_transition_stands {s t : Store} (hs : system.Reachable KeepsBarrier s)
    (hrun : system.Run KeepsBarrier s t) : AttemptTrace TransitionStands s t :=
  run_attempts (R := TransitionStands) (fun _ => .of_eq rfl) (fun _ _ _ => TransitionStands.trans)
    (fun _ _ _ _ hg h => h.barrier hg) hs hrun

/-! ## The room of an ended attempt -/

/-- A member keeps its readiness and its role, unless it went offline. -/
def MemberKept (m m' : Member) : Prop :=
  m'.memberId = m.memberId ∧
    ((m'.readyState = m.readyState ∧ m'.switchRoomRole = m.switchRoomRole ∧
        (m.onlineState = .offline → m'.onlineState = .offline)) ∨
      (m.onlineState ≠ .offline ∧ m'.onlineState = .offline))

theorem MemberKept.refl (m : Member) : MemberKept m m := ⟨rfl, .inl ⟨rfl, rfl, id⟩⟩

theorem MemberKept.trans {m m' m'' : Member} (h : MemberKept m m') (h' : MemberKept m' m'') :
    MemberKept m m'' := by
  refine ⟨h'.1.trans h.1, ?_⟩
  rcases h.2 with ⟨hready, hrole, hoff⟩ | ⟨hon, hoff⟩
  · rcases h'.2 with ⟨hready', hrole', hoff'⟩ | ⟨hon', hoff'⟩
    · exact .inl ⟨hready'.trans hready, hrole'.trans hrole, fun h => hoff' (hoff h)⟩
    · exact .inr ⟨fun h => hon' (hoff h), hoff'⟩
  · rcases h'.2 with ⟨-, -, hoff'⟩ | ⟨hon', -⟩
    · exact .inr ⟨hon, hoff' hoff⟩
    · exact absurd hoff hon'

/-- The room keeps its state unless it expired, and every member what `MemberKept` says. -/
def RoomKept (room room' : Room) : Prop :=
  (room'.state = room.state ∨ room'.state = .expired) ∧
    ∀ (i : Nat) (m : Member), room.members[i]? = some m →
      ∃ m', room'.members[i]? = some m' ∧ MemberKept m m'

theorem RoomKept.of_eq {room room' : Room}
    (hstate : room'.state = room.state ∨ room'.state = .expired)
    (hmembers : room'.members = room.members) : RoomKept room room' :=
  ⟨hstate, fun _ m hm => ⟨m, hmembers ▸ hm, .refl m⟩⟩

theorem RoomKept.trans {room room' room'' : Room} (h : RoomKept room room')
    (h' : RoomKept room' room'') : RoomKept room room'' := by
  refine ⟨?_, fun i m hm => ?_⟩
  · rcases h'.1 with hstate | hexpired
    · rw [hstate]
      exact h.1
    · exact .inr hexpired
  · obtain ⟨m', hm', hkept⟩ := h.2 i m hm
    obtain ⟨m'', hm'', hkept'⟩ := h'.2 i m' hm'
    exact ⟨m'', hm'', hkept.trans hkept'⟩

theorem RoomKept.modifyAt {room : Room} {i : Nat} {f : Member → Member} {m : Member}
    (hm : room.members[i]? = some m) (hf : MemberKept m (f m)) :
    RoomKept room (room.modifyAt i f) := by
  refine ⟨.inl rfl, fun j n hn => ?_⟩
  simp only [Room.modifyAt, List.getElem?_modify, hn, Option.map_eq_map, Option.map_some]
  by_cases hij : i = j
  · subst hij
    obtain rfl : m = n := Option.some.inj (hm.symm.trans hn)
    exact ⟨f m, by rw [if_pos rfl], hf⟩
  · exact ⟨n, by rw [if_neg hij], .refl n⟩

/-- The call is one on this attempt: it names it, or it goes through all attempts. -/
def Op.concerns (attemptId : AttemptId) : Op → Bool
  | .mutate _ _ _ _ action payload _ => action.namesAttempt && payload.attemptId = some attemptId
  | .beginDClosing _ _ _ _ id _ _ => id = attemptId
  | .acknowledgeDQuiescent _ _ _ _ id _ _ => id = attemptId
  | .failTransportAttempt _ _ id _ => id = attemptId
  | .forceDBarrier _ _ id _ => id = attemptId
  | .failActiveAttempts .. | .sweepPresence .. | .restart .. => true
  | _ => false

/-- The attempt with this identifier took its D6 transition. -/
def Ended (attemptId : AttemptId) (a : Attempt) : Prop :=
  a.attemptId = attemptId ∧ BarrierSound a ∧ ∃ d, a.d = some d ∧ d.barrierStatus ≠ .waitingForSides

theorem Ended.terminal {attemptId : AttemptId} {a : Attempt} (h : Ended attemptId a) :
    a.phase.terminal = true := by
  obtain ⟨-, sound, d, hd, left⟩ := h
  exact (sound.2 d hd).1 left

/-- A command that names an ended attempt changes nothing but the attempt. -/
theorem Room.mutate_ended {room r : Room} {now : Time} {fresh : AttemptId} {memberId : MemberId}
    {action : Action} {payload : Payload} {version : Option Nat} {event : String} {data : EventData}
    {revoked : Revoked} {a : Attempt} (ha : room.attempt = some a) (locked : a.roleLocked = true)
    (finished : a.phase.terminal = true) (names : action.namesAttempt = true)
    (h : room.mutate now fresh memberId action payload version =
      .ok (.write r event data revoked)) :
    ∃ b, b.attemptId = a.attemptId ∧ r = { room with attempt := some b } := by
  obtain ⟨-, -, -, -, h⟩ := Room.mutate_write h
  cases action with
  | claimCreator =>
    simp only [Room.dispatch, Room.claimCreatorCommand, bind_eq_ok, orRaise_eq_ok,
      Option.filter_eq_some_iff] at h
    obtain ⟨b, ⟨hb, hunlocked⟩, -⟩ := h
    obtain rfl : a = b := Option.some.inj (ha.symm.trans hb)
    simp [locked] at hunlocked
  | transferCreator =>
    simp only [Room.dispatch, Room.transferCreatorCommand, bind_eq_ok, orRaise_eq_ok,
      Option.filter_eq_some_iff] at h
    obtain ⟨b, ⟨hb, hunlocked⟩, -⟩ := h
    obtain rfl : a = b := Option.some.inj (ha.symm.trans hb)
    simp [locked] at hunlocked
  | lockRole =>
    simp only [Room.dispatch, Room.lockRoleCommand, bind_eq_ok, orRaise_eq_ok, pure_eq_ok,
      Effect.write.injEq, Option.filter_eq_some_iff] at h
    obtain ⟨b, ⟨hb, -⟩, rfl, -⟩ := h
    obtain rfl : a = b := Option.some.inj (ha.symm.trans hb)
    refine ⟨_, ?_, rfl⟩
    rfl
  | phase =>
    simp only [Room.dispatch, Room.phaseCommand, bind_eq_ok, orRaise_eq_ok] at h
    obtain ⟨phase, -, b, hb, code, -, h⟩ := h
    obtain rfl : a = b := Option.some.inj (ha.symm.trans hb)
    split at h
    · split at h
      · simp only [pure_eq_ok, Effect.write.injEq] at h
        obtain ⟨rfl, -⟩ := h
        refine ⟨_, ?_, rfl⟩
        rfl
      · cases h
    · simp only [bind_eq_ok, raiseIf_eq_ok, not_or] at h
      obtain ⟨-, ⟨hactive, -⟩, -⟩ := h
      exact absurd finished hactive
  | ready | heartbeat | attempt | leave | removeOffline | close | other => cases names

/-- What one write of a call on an ended attempt does to its room: it keeps it, and the
attempt with it. -/
theorem RoomWrite.kept {s : Store} {op : Op} {room r : Room} (hg : KeepsBarrier s op)
    (h : RoomWrite s op room r) {attemptId : AttemptId} (hop : op.concerns attemptId = true)
    {a : Attempt} (ha : room.attempt = some a) (ended : Ended attemptId a) :
    RoomKept room r ∧ ∃ b, r.attempt = some b ∧ b.attemptId = a.attemptId := by
  have finished := ended.terminal
  obtain ⟨hid, sound, d, hd, left⟩ := ended
  cases h with
  | expire => exact ⟨.of_eq (.inr rfl) rfl, a, ha, rfl⟩
  | mutate call addressed written =>
    subst call
    simp only [Op.concerns, Bool.and_eq_true] at hop
    obtain ⟨b, hb, rfl⟩ := Room.mutate_ended ha sound.1 finished hop.1 written
    exact ⟨.of_eq (.inl rfl) rfl, b, rfl, hb⟩
  | beginDClosing call addressed written =>
    obtain ⟨a', d', ha', -, hactive, -⟩ := Room.beginDClosing_write written
    obtain rfl : a' = a := Option.some.inj (ha'.symm.trans ha)
    simp [hactive] at finished
  | acknowledgeDQuiescent call addressed written =>
    subst call
    obtain ⟨a', d', m, report, checked, rfl⟩ := Room.acknowledgeDQuiescent_write written
    obtain rfl : a' = a := Option.some.inj (checked.held.symm.trans ha)
    obtain rfl : d' = d := Option.some.inj (checked.intent.symm.trans hd)
    rcases @Room.recordQuiescent_cases room _ a' d' m.seat report with
      ⟨-, heq⟩ | ⟨status, code, ⟨sideA, sideB, hA, hB, -⟩, -⟩
    · rw [heq]
      exact ⟨.of_eq (.inl rfl) rfl, _, rfl, rfl⟩
    · have hother := DSides.other_of_both checked.first checked.first hA hB
      exact absurd (hg room _ a' d' m report addressed checked hother) left
  | join call => cases op <;> simp [Op.joins, Op.concerns] at call hop
  | reconnect call => cases op <;> simp [Op.reconnects, Op.concerns] at call hop
  | fail call written =>
    obtain ⟨a', ha', -, -, hactive, -⟩ := Room.failTransportAttempt_some written
    obtain rfl : a' = a := Option.some.inj (ha'.symm.trans ha)
    simp [hactive] at finished
  | force call written =>
    obtain ⟨a', d', ha', -, -, -, hclosing, -⟩ := Room.forceDBarrier_some written
    obtain rfl : a' = a := Option.some.inj (ha'.symm.trans ha)
    simp [hclosing, AttemptPhase.terminal] at finished
  | sweepBarrier call written =>
    obtain ⟨a', d', ha', -, hclosing, -⟩ := Room.sweepBarrier_some written
    obtain rfl : a' = a := Option.some.inj (ha'.symm.trans ha)
    simp [hclosing, AttemptPhase.terminal] at finished
  | sweepMember call written =>
    rename_i i event memberId offline
    obtain ⟨m, hm, -, ⟨honline, -, rfl⟩ | ⟨hreconnecting, -, rfl⟩⟩ := Room.sweepMember_some written
    · exact ⟨.modifyAt hm ⟨rfl, .inl ⟨rfl, rfl, fun hoff => by simp [honline] at hoff⟩⟩, a, ha, rfl⟩
    · have hroom : room.expireMember op.now i =
          room.modifyAt i fun m => { m.unready with onlineState := .offline } := by
        simp only [Room.expireMember, Room.modifyAt_attempt, ha, finished, or_true, if_true]
      rw [hroom]
      exact ⟨.modifyAt hm ⟨rfl, .inr ⟨by simp [hreconnecting], rfl⟩⟩, a, ha, rfl⟩

/-- Along the writes of a call on an ended attempt the attempt stays, and stays ended. -/
theorem RoomChange.room_kept {s : Store} {op : Op} {room room' : Room} (hg : KeepsBarrier s op)
    (h : RoomChange s op room room') {attemptId : AttemptId} (older : attemptId < s.supply)
    (hop : op.concerns attemptId = true) {a : Attempt} (ha : room.attempt = some a)
    (ended : Ended attemptId a) :
    RoomKept room room' ∧ ∃ b, room'.attempt = some b ∧ Ended attemptId b := by
  induction h with
  | refl => exact ⟨.of_eq (.inl rfl) rfl, a, ha, ended⟩
  | tail _ hlast ih =>
    obtain ⟨hkept, b, hb, hended⟩ := ih
    obtain ⟨r, sequence, hwritten, rfl⟩ := hlast
    obtain ⟨hkept', c, hc, hid⟩ := hwritten.kept hg hop hb hended
    refine ⟨hkept.trans ⟨hkept'.1, hkept'.2⟩, c, hc, hid.trans hended.1, ?_⟩
    obtain ⟨hbid, sound, d, hd, left⟩ := hended
    have hsound : ∀ a, Room.attempt _ = some a → BarrierSound a := fun a ha =>
      Option.some.inj (hb.symm.trans ha) ▸ sound
    obtain ⟨hcsound, hstands⟩ := hwritten.barrier hg hsound c hc
    obtain ⟨b', hb', -, hstands⟩ := hstands ((hid.trans hbid) ▸ older)
    obtain rfl : b = b' := Option.some.inj (hb.symm.trans hb')
    obtain ⟨d', hd', hsame⟩ := hstands d hd left
    exact ⟨hcsound, d', hd', hsame.1 ▸ left⟩

/-- A call on an ended attempt leaves the room of that attempt alone. -/
theorem step_room_kept {s : Store} (hs : system.Reachable KeepsBarrier s) {op : Op}
    (hg : KeepsBarrier s op) {room room' : Room} (hr : room ∈ s.db.rooms)
    (hr' : room' ∈ (s.step op).db.rooms) (hroom : room'.roomId = room.roomId) {a : Attempt}
    (ha : room.attempt = some a) (hop : op.concerns a.attemptId = true) {d : DState}
    (hd : a.d = some d) (left : d.barrierStatus ≠ .waitingForSides) : RoomKept room room' := by
  have ids := reachable_ids hs
  rcases step_rooms ids hr' with ⟨hid, -⟩ | ⟨room₀, hr₀, hchange⟩
  · exact absurd (hroom.symm.trans hid) (ids.rooms room hr).ne
  obtain rfl := ids.unique hr₀ hr (hchange.roomId.symm.trans hroom)
  have ended : Ended a.attemptId a := ⟨rfl, reachable_barrier_sound hs hr ha, d, hd, left⟩
  exact (hchange.room_kept hg (ids.attempts room₀ hr a ha) hop ha ended).1

/-! ## The transition happens once -/

/-- In every run that keeps to `KeepsBarrier`: once the barrier was left, the four fields of
the transition stay and no call on the attempt resets its room or a member's readiness; and
a verified cleanup has the reports of both seats, with every flag of a clean teardown. -/
theorem d6_transition_once {s : Store} (hs : system.Reachable KeepsBarrier s) {room : Room}
    (hr : room ∈ s.db.rooms) {a : Attempt} {d : DState} (ha : room.attempt = some a)
    (hd : a.d = some d) :
    (d.barrierStatus ≠ .waitingForSides →
      (∀ t b, system.Run KeepsBarrier s t → t.attemptOf room.roomId = some b →
        b.attemptId = a.attemptId → ∃ d', b.d = some d' ∧ SameTransition d d') ∧
      ∀ op room', KeepsBarrier s op → op.concerns a.attemptId = true →
        room' ∈ (s.step op).db.rooms → room'.roomId = room.roomId → RoomKept room room') ∧
    (d.cleanupStatus = .verified → ∃ sideA sideB,
      d.sides.memberA = some sideA ∧ d.sides.memberB = some sideB ∧
        sideA.evidence.verified = true ∧ sideB.evidence.verified = true) := by
  refine ⟨fun left => ⟨fun t b hrun hb hid => ?_, fun op room' hg hop hr' hroom => ?_⟩, ?_⟩
  · obtain ⟨room', hr', hroom, hb⟩ := attemptOf_room hb
    have hlt : b.attemptId < s.supply := hid ▸ (reachable_ids hs).attempts room hr a ha
    obtain ⟨room₀, hr₀, hid₀, a₀, ha₀, -, hstands⟩ :=
      (run_transition_stands hs hrun).2 room' hr' b hb hlt
    obtain rfl := (reachable_ids hs).unique hr₀ hr (hid₀.trans hroom)
    obtain rfl : a₀ = a := Option.some.inj (ha₀.symm.trans ha)
    exact hstands d hd left
  · exact step_room_kept hs hg hr hr' hroom ha hop hd left
  · exact ((reachable_barrier_sound hs hr ha).2 d hd).2

theorem d6_transition_once_forced :
    ∃ s : Store, ∃ room ∈ s.db.rooms, ∃ a d, room.attempt = some a ∧ a.d = some d ∧
      d.barrierStatus = .forcedFailure ∧
      ∀ op room', KeepsBarrier s op → op.concerns a.attemptId = true →
        room' ∈ (s.step op).db.rooms → room'.roomId = room.roomId → RoomKept room room' := by
  obtain ⟨a, -, ha, -, hforced⟩ :=
    readings 0
      (s := Store.initial.run (startedCalls ++
        [closingCall .canceled, .forceDBarrier 2 0 15 "D_RELAY_RESTART"]))
      (t := Store.initial.run (startedCalls ++
        [closingCall .canceled, .forceDBarrier 2 0 15 "D_RELAY_RESTART"]))
      (p := fun a _ => a.d.map (·.barrierStatus) = some .forcedFailure) (by decide)
  obtain ⟨d, hd, hstatus⟩ := Option.map_eq_some_iff.mp hforced
  obtain ⟨room, hr, -, hheld⟩ := attemptOf_room ha
  have hreachable : system.Reachable KeepsBarrier (Store.initial.run (startedCalls ++
      [closingCall .canceled, .forceDBarrier 2 0 15 "D_RELAY_RESTART"])) :=
    reachable_calls _ fun s => ⟨trivial, trivial, trivial, trivial, trivial, trivial⟩
  exact ⟨_, room, hr, a, d, hheld, hd, hstatus,
    ((d6_transition_once hreachable hr hheld hd).1 (by simp [hstatus])).2⟩

/-- The report of one side: the calls of the run below. -/
def reportCall (now : Time) (bearer : Token) (seat : Seat) (version : Nat) : Op :=
  .acknowledgeDQuiescent now 0 bearer "q" 15
    { contractVersion := "d-side-quiescent.v1", attemptId := some 15, activationGeneration := some 1
      sourceSeat := some seat, runId := some "run", stageGeneration := some 1
      launchIdentitySha256 := some
        "0000000000000000000000000000000000000000000000000000000000000000"
      evidence := some
        { endpointExited := true, transportExited := true, threadsExited := true
          ldnReleased := true, interfacesAbsent := true, forced := false } }
    version

/-- The second side's report arrives after the deadline and takes the transition again. -/
theorem late_report_transitions_again :
    ¬ ∀ (s : Store) (room : Room) (a : Attempt) (d : DState), system.Reachable System.Free s →
      room ∈ s.db.rooms → room.attempt = some a → a.d = some d →
      (d.barrierStatus ≠ .waitingForSides →
        (∀ t b, system.Run System.Free s t → t.attemptOf room.roomId = some b →
          b.attemptId = a.attemptId → ∃ d', b.d = some d' ∧ SameTransition d d') ∧
        ∀ op room', op.concerns a.attemptId = true →
          room' ∈ (s.step op).db.rooms → room'.roomId = room.roomId → RoomKept room room') ∧
      (d.cleanupStatus = .verified → ∃ sideA sideB,
        d.sides.memberA = some sideA ∧ d.sides.memberB = some sideB ∧
          sideA.evidence.verified = true ∧ sideB.evidence.verified = true) := by
  intro h
  obtain ⟨a, b, ha, hb, hid, hleft, hleft'⟩ :=
    readings 0
      (s := Store.initial.run (startedCalls ++
        [closingCall .canceled, reportCall 2 3 .memberA 5, .sweepPresence (31 * second)]))
      (t := (Store.initial.run (startedCalls ++
        [closingCall .canceled, reportCall 2 3 .memberA 5, .sweepPresence (31 * second)])).step
          (reportCall (32 * second) 8 .memberB 7))
      (p := fun a b => b.attemptId = a.attemptId ∧
        a.d.map (·.barrierStatus) = some .forcedTimeout ∧
        b.d.map (·.barrierStatus) = some .twoSideTerminal) (by decide)
  obtain ⟨d, hd, hstatus⟩ := Option.map_eq_some_iff.mp hleft
  obtain ⟨d', hd', hstatus'⟩ := Option.map_eq_some_iff.mp hleft'
  obtain ⟨room, hr, hroom, hheld⟩ := attemptOf_room ha
  have hstep := ((h _ room a d (reachable_free _) hr hheld hd).1 (by simp [hstatus])).1 _ b
    (.step (i := reportCall (32 * second) 8 .memberB 7) trivial rfl) (hroom ▸ hb) hid
  obtain ⟨d'', hd'', hsame, -⟩ := hstep
  obtain rfl : d' = d'' := Option.some.inj (hd'.symm.trans hd'')
  simp [hstatus, hstatus'] at hsame

end SwitchTrade.Authority

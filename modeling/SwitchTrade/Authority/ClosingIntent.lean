import SwitchTrade.Authority.AttemptRun

/-!
# The closing intent of an attempt

`begin_d_closing` writes the four fields of the intent once and nothing writes them again:
that holds of every run (`run_intents_frozen`, `reachable_intents_recorded`). That the
attempt then ends through the D6 barrier, in the recorded outcome, needs more: `phase`,
`close` and `lock_role` do not look at the intent.
-/

namespace SwitchTrade.Authority

open Fallible Transition

/-! ## The four fields of the intent are frozen -/

/-- Two readings of `attempt.d` with one closing intent. -/
def SameIntent (d d' : DState) : Prop :=
  d'.outcome = d.outcome ∧ d'.primaryFailureCode = d.primaryFailureCode ∧
    d'.lastPassedGate = d.lastPassedGate ∧ d'.activationGeneration = d.activationGeneration

theorem SameIntent.refl (d : DState) : SameIntent d d := ⟨rfl, rfl, rfl, rfl⟩

theorem SameIntent.trans {d d' d'' : DState} (h : SameIntent d d') (h' : SameIntent d' d'') :
    SameIntent d d'' :=
  ⟨h'.1.trans h.1, h'.2.1.trans h.2.1, h'.2.2.1.trans h.2.2.1, h'.2.2.2.trans h.2.2.2⟩

/-- Two readings of one attempt: an intent that was there is still there. -/
def IntentFrozen (a b : Attempt) : Prop :=
  ∀ d, a.d = some d → ∃ d', b.d = some d' ∧ SameIntent d d'

theorem IntentFrozen.of_eq {a b : Attempt} (h : b.d = a.d) : IntentFrozen a b :=
  fun d hd => ⟨d, h.trans hd, .refl d⟩

theorem IntentFrozen.trans {a b c : Attempt} (hab : IntentFrozen a b) (hbc : IntentFrozen b c) :
    IntentFrozen a c := by
  intro d hd
  obtain ⟨d', hd', h⟩ := hab d hd
  obtain ⟨d'', hd'', h'⟩ := hbc d' hd'
  exact ⟨d'', hd'', h.trans h'⟩

/-- The call that recorded an intent asked for its four fields. -/
def Op.Records (op : Op) (attemptId : AttemptId) (d : DState) : Prop :=
  ∃ now roomId bearer commandId payload version,
    op = .beginDClosing now roomId bearer commandId attemptId payload version ∧
    payload.intent = .ok (d.outcome, d.primaryFailureCode, d.lastPassedGate) ∧
    payload.activationGeneration = some d.activationGeneration

theorem Op.Records.congr {op : Op} {attemptId : AttemptId} {d d' : DState}
    (h : op.Records attemptId d) (same : SameIntent d d') : op.Records attemptId d' := by
  obtain ⟨now, roomId, bearer, commandId, payload, version, hop, hintent, hgen⟩ := h
  obtain ⟨ho, hc, hg, ha⟩ := same
  exact ⟨now, roomId, bearer, commandId, payload, version, hop, by rw [ho, hc, hg]; exact hintent,
    by rw [ha]; exact hgen⟩

/-- What one write does to the intent: an attempt with an intent had the same one before,
or this call recorded it. -/
theorem RoomWrite.intents {s : Store} {op : Op} {room r : Room} (h : RoomWrite s op room r)
    (locked : ∀ a, room.attempt = some a → a.roleLocked = true) {b : Attempt}
    (hb : r.attempt = some b) :
    b.roleLocked = true ∧
      ((b.attemptId = s.supply ∧ b.d = none) ∨
        ∃ a, room.attempt = some a ∧ a.attemptId = b.attemptId ∧ IntentFrozen a b ∧
          ∀ d', b.d = some d' → (∃ d, a.d = some d ∧ SameIntent d d') ∨
            op.Records b.attemptId d') := by
  obtain ⟨w, hmove, hby⟩ := h.move
  -- A write that leaves the intent alone.
  have keep : ∀ a b : Attempt, room.attempt = some a → a.attemptId = b.attemptId → b.d = a.d →
      ∃ a, room.attempt = some a ∧ a.attemptId = b.attemptId ∧ IntentFrozen a b ∧
        ∀ d', b.d = some d' → (∃ d, a.d = some d ∧ SameIntent d d') ∨ op.Records b.attemptId d' :=
    fun a b ha hid hd => ⟨a, ha, hid, .of_eq hd, fun d' hd' => .inl ⟨d', hd ▸ hd', .refl d'⟩⟩
  generalize hx : room.attempt = x at hmove locked keep
  generalize hy : r.attempt = y at hmove hb
  cases hmove with
  | same => exact ⟨locked b hb, .inr (keep b b hb rfl rfl)⟩
  | drop => cases hb
  | begin act x b' finished id phase begunLocked intent =>
    cases hb
    exact ⟨begunLocked, .inl ⟨id, intent⟩⟩
  | assign act a b' unlocked =>
    have := locked a rfl
    simp [unlocked] at this
  | lock a version =>
    cases hb
    exact ⟨rfl, .inr (keep a _ rfl rfl rfl)⟩
  | refine a | move a | cancel a | fail _ a =>
    cases hb
    exact ⟨locked a rfl, .inr (keep a _ rfl rfl rfl)⟩
  | close a d active first waiting pending =>
    cases hb
    obtain ⟨now, roomId, bearer, commandId, attemptId, payload, v, memberId, event, data, revoked,
      rfl, -, hwritten⟩ := hby
    obtain ⟨a', d', ha', hid, -, -, rfl, hintent, hgen, -⟩ := Room.beginDClosing_write hwritten
    obtain rfl : a' = a := Option.some.inj (ha'.symm.trans hx)
    obtain rfl : d' = d := by
      have hd : (a'.closed d' now).d = (a'.closed d now).d :=
        congrArg Attempt.d (Option.some.inj hy)
      exact Option.some.inj hd
    refine ⟨locked a' rfl, .inr ⟨a', rfl, rfl, fun d hd => ?_, fun d hd => .inr ?_⟩⟩
    · simp [first] at hd
    · obtain rfl : d' = d := Option.some.inj hd
      exact ⟨now, roomId, bearer, commandId, payload, v, by rw [← hid]; rfl, hintent, hgen⟩
  | report a d _ _ intent | conclude a d _ _ _ _ intent | force _ a d _ _ _ _ intent =>
    cases hb
    refine ⟨locked a rfl, .inr ⟨a, rfl, rfl, fun d' hd' => ?_, fun d' hd' => ?_⟩⟩
    · obtain rfl : d = d' := Option.some.inj (intent.symm.trans hd')
      exact ⟨_, rfl, .refl d⟩
    · obtain rfl := Option.some.inj hd'
      exact .inl ⟨d, intent, .refl d⟩

/-- Along every run the four fields of an intent stay what they are. -/
theorem run_intents_frozen {G : Store → Op → Prop} {s t : Store} (hs : system.Reachable G s)
    (hrun : system.Run G s t) : AttemptTrace IntentFrozen s t := by
  refine run_attempts (P := (·.roleLocked = true)) (R := IntentFrozen) (fun a => .of_eq rfl)
    (fun _ _ _ => IntentFrozen.trans) (fun s op room r _ h locked b hb => ?_) hs hrun
  obtain ⟨hlocked, ⟨hfresh, -⟩ | ⟨a, ha, hid, hfrozen, -⟩⟩ := h.intents locked hb
  · exact ⟨hlocked, fun hlt => absurd hfresh hlt.ne⟩
  · exact ⟨hlocked, fun _ => ⟨a, ha, hid, hfrozen⟩⟩

/-- Some call on the way to `s` recorded the intent. -/
def IntentRecorded (G : Store → Op → Prop) (s : Store) (attemptId : AttemptId) (d : DState) :
    Prop :=
  ∃ t op, system.Reachable G t ∧ G t op ∧ op.Records attemptId d ∧ system.Run G (t.step op) s

/-- Every intent of a reachable state is the one a `begin_d_closing` call recorded. -/
theorem reachable_intents_recorded {G : Store → Op → Prop} {s : Store}
    (hs : system.Reachable G s) {room : Room} (hr : room ∈ s.db.rooms) {a : Attempt} {d : DState}
    (ha : room.attempt = some a) (hd : a.d = some d) : IntentRecorded G s a.attemptId d := by
  have hinv : system.Reachable G s ∧ ∀ room ∈ s.db.rooms, ∀ a, room.attempt = some a →
      a.roleLocked = true ∧ ∀ d, a.d = some d → IntentRecorded G s a.attemptId d := by
    refine hs.invariant (P := fun s => system.Reachable G s ∧ ∀ room ∈ s.db.rooms, ∀ a,
        room.attempt = some a →
          a.roleLocked = true ∧ ∀ d, a.d = some d → IntentRecorded G s a.attemptId d)
      (fun s hs => ⟨.init hs, ?_⟩) fun s op t ⟨hs, hrooms⟩ hg ht => ⟨hs.step hg ht, ?_⟩
    · subst hs
      exact fun room hr => (List.not_mem_nil hr).elim
    · subst ht
      intro room' hr' b hb
      rcases step_rooms (reachable_ids hs) hr' with ⟨-, hnone⟩ | ⟨room, hr, hchange⟩
      · simp [hnone] at hb
      -- What was recorded before this call is still recorded after it.
      have hlater : ∀ a, room.attempt = some a → a.roleLocked = true ∧ ∀ d, a.d = some d →
          IntentRecorded G (s.step op) a.attemptId d := by
        intro a ha
        refine ⟨(hrooms room hr a ha).1, fun d hd => ?_⟩
        obtain ⟨t, op', ht, hg', hrecords, hrun⟩ := (hrooms room hr a ha).2 d hd
        exact ⟨t, op', ht, hg', hrecords, hrun.trans (System.Run.step hg rfl)⟩
      have hwrite : ∀ room r, RoomWrite s op room r →
          Kept s.supply (fun a => a.roleLocked = true ∧ ∀ d, a.d = some d →
            IntentRecorded G (s.step op) a.attemptId d) (fun _ _ => True)
            room.attempt r.attempt := by
        intro room r h hx b hb
        obtain ⟨hlocked, ⟨hfresh, hnone⟩ | ⟨a, ha, hid, -, hsource⟩⟩ :=
          h.intents (fun a ha => (hx a ha).1) hb
        · exact ⟨⟨hlocked, fun d hd => by simp [hnone] at hd⟩, fun hlt => absurd hfresh hlt.ne⟩
        · refine ⟨⟨hlocked, fun d' hd' => ?_⟩, fun _ => ⟨a, ha, hid, trivial⟩⟩
          rcases hsource d' hd' with ⟨d, hd, hsame⟩ | hrecords
          · obtain ⟨t, op', ht, hg', hrecords, hrun⟩ := (hx a ha).2 d hd
            exact ⟨t, op', ht, hg', hid ▸ hrecords.congr hsame, hrun⟩
          · exact ⟨s, op, hs, hg, hrecords, .refl⟩
      exact (hchange.kept (fun _ => trivial) (fun _ _ _ _ _ => trivial) hwrite hlater b hb).1
  exact (hinv.2 room hr a ha).2 d hd

/-! ## The attempt ends as recorded -/

/-- If the attempt has an intent and a terminal phase, the phase is the recorded outcome,
the error is the recorded one, and the D6 barrier is behind it. -/
def EndsAsRecorded (a : Attempt) : Prop :=
  ∀ d, a.d = some d → a.phase.terminal = true →
    a.phase = d.outcome.phase ∧
    a.recoverableError = (if d.outcome = .failed then d.primaryFailureCode else none) ∧
    d.barrierStatus ≠ .waitingForSides

/-- The three commands that pass the barrier by are not accepted for an attempt with an
intent: a change of `phase`, `lock_role`, and `close` before the attempt ended. -/
def KeepsIntent (s : Store) : Op → Prop
  | .mutate now roomId bearer commandId action payload version =>
    ∀ room memberId a,
      s.db.Addresses now roomId bearer commandId (.member · action) room memberId →
      room.attempt = some a →
      match action with
      | .phase => ∀ phase code, room.WritesPhase memberId payload version a phase code → a.d = none
      | .lockRole => room.LocksRole memberId payload version a → a.d = none
      | .close => room.ClosesRoom memberId → a.phase.terminal = true ∨ a.d = none
      | _ => True
  | _ => True

/-- An attempt with an intent closes, or has ended as recorded. -/
def ClosesAsRecorded (a : Attempt) : Prop :=
  a.roleLocked = true ∧ ∀ d, a.d = some d → a.phase = .closing ∨
    (a.phase = d.outcome.phase ∧
      a.recoverableError = (if d.outcome = .failed then d.primaryFailureCode else none) ∧
      d.barrierStatus ≠ .waitingForSides)

theorem ClosesAsRecorded.ends {a : Attempt} (h : ClosesAsRecorded a) : EndsAsRecorded a := by
  intro d hd finished
  rcases h.2 d hd with hclosing | hended
  · simp [hclosing, AttemptPhase.terminal] at finished
  · exact hended

theorem ClosesAsRecorded.of_none {a : Attempt} (locked : a.roleLocked = true) (h : a.d = none) :
    ClosesAsRecorded a :=
  ⟨locked, fun d hd => by simp [h] at hd⟩

theorem ClosesAsRecorded.terminalized {a : Attempt} (locked : a.roleLocked = true) {d : DState}
    {barrier : BarrierStatus} {status : CleanupStatus} {code : Option String} {now : Time}
    (left : barrier ≠ .waitingForSides) :
    ClosesAsRecorded (a.terminalized d barrier status code now) := by
  refine ⟨locked, fun d' hd' => .inr ?_⟩
  obtain rfl := Option.some.inj hd'
  exact ⟨rfl, rfl, left⟩

/-- What one write does to an attempt that closes. -/
theorem RoomWrite.closes {s : Store} {op : Op} {room r : Room} (hg : KeepsIntent s op)
    (h : RoomWrite s op room r) (hx : ∀ a, room.attempt = some a → ClosesAsRecorded a)
    {b : Attempt} (hb : r.attempt = some b) : ClosesAsRecorded b := by
  obtain ⟨w, hmove, hby⟩ := h.move
  generalize hroom : room.attempt = x at hmove hx
  generalize hr : r.attempt = y at hmove hb
  cases hmove with
  | same => exact hx b hb
  | drop => cases hb
  | begin act x b' finished id phase begunLocked intent =>
    cases hb
    exact .of_none begunLocked intent
  | assign act a b' unlocked =>
    have := (hx a rfl).1
    simp [unlocked] at this
  | lock a version =>
    cases hb
    obtain ⟨now, roomId, bearer, commandId, payload, v, memberId, event, data, revoked, rfl,
      haddressed, hwritten⟩ := hby
    obtain ⟨a', haccepted⟩ := Room.lockRole_write hwritten
    obtain rfl : a' = a := Option.some.inj (haccepted.held.symm.trans hroom)
    exact .of_none rfl (hg room memberId a' haddressed hroom haccepted)
  | refine a | move a =>
    cases hb
    obtain ⟨now, roomId, bearer, commandId, payload, v, memberId, event, data, revoked, rfl,
      haddressed, hwritten⟩ := hby
    obtain ⟨a', phase, code, haccepted⟩ := Room.phase_write hwritten
    obtain rfl : a' = a := Option.some.inj (haccepted.held.symm.trans hroom)
    exact .of_none (hx a' rfl).1 (hg room memberId a' haddressed hroom phase code haccepted)
  | cancel a active =>
    cases hb
    obtain ⟨now, roomId, bearer, commandId, payload, v, memberId, event, data, revoked, rfl,
      haddressed, hwritten⟩ := hby
    rcases hg room memberId a haddressed hroom (Room.close_write hwritten) with finished | hnone
    · simp [active] at finished
    · exact .of_none (hx a rfl).1 hnone
  | close a d =>
    cases hb
    exact ⟨(hx a rfl).1, fun _ _ => .inl rfl⟩
  | report a d seat report intent =>
    cases hb
    refine ⟨(hx a rfl).1, fun d' hd' => ?_⟩
    obtain rfl := Option.some.inj hd'
    exact (hx a rfl).2 d intent
  | conclude a =>
    cases hb
    exact .terminalized (hx a rfl).1 (by decide)
  | force _ a d barrier code writer closing intent forced =>
    cases hb
    refine .terminalized (hx a rfl).1 ?_
    rcases forced with rfl | rfl <;> decide
  | fail _ a code writer active open_ =>
    cases hb
    refine .of_none (hx a rfl).1 (Option.eq_none_iff_forall_ne_some.mpr fun d hd => ?_)
    rcases (hx a rfl).2 d hd with hclosing | ⟨hended, -⟩
    · exact open_ hclosing
    · simp [hended] at active

theorem reachable_ends_as_recorded {s : Store} (hs : system.Reachable KeepsIntent s) {room : Room}
    (hr : room ∈ s.db.rooms) {a : Attempt} (ha : room.attempt = some a) : EndsAsRecorded a :=
  (reachable_attempts (fun _ _ _ _ hg h hx _ hb => h.closes hg hx hb) hs hr ha).ends

/-- In every run that keeps to `KeepsIntent`, an intent is what `begin_d_closing` recorded,
never changes, and the attempt ends through the D6 barrier in the recorded outcome. -/
theorem closing_intent_kept {s : Store} (hs : system.Reachable KeepsIntent s) {roomId : RoomId}
    {a : Attempt} {d : DState} (ha : s.attemptOf roomId = some a) (hd : a.d = some d) :
    IntentRecorded KeepsIntent s a.attemptId d ∧
      (∀ t b, system.Run KeepsIntent s t → t.attemptOf roomId = some b →
        b.attemptId = a.attemptId → ∃ d', b.d = some d' ∧ SameIntent d d') ∧
      (a.phase.terminal = true → a.phase = d.outcome.phase ∧
        a.recoverableError = (if d.outcome = .failed then d.primaryFailureCode else none) ∧
        d.barrierStatus ≠ .waitingForSides) := by
  obtain ⟨room, hr, -, hheld⟩ := attemptOf_room ha
  refine ⟨reachable_intents_recorded hs hr hheld hd, fun t b hrun hb hid => ?_, ?_⟩
  · exact (run_intents_frozen hs hrun).read (reachable_ids hs) ha hb hid d hd
  · exact reachable_ends_as_recorded hs hr hheld d hd

theorem closing_intent_kept_canceled :
    ∃ a d, (Store.initial.run (startedCalls ++ [closingCall .canceled])).attemptOf 0 = some a ∧
      a.d = some d ∧
      IntentRecorded KeepsIntent (Store.initial.run (startedCalls ++ [closingCall .canceled]))
        a.attemptId d := by
  obtain ⟨a, -, ha, -, hclosing⟩ :=
    readings (s := Store.initial.run (startedCalls ++ [closingCall .canceled])) 0
      (t := Store.initial.run (startedCalls ++ [closingCall .canceled]))
      (p := fun a _ => a.d.isSome = true) (by decide)
  obtain ⟨d, hd⟩ := Option.isSome_iff_exists.mp hclosing
  have hreachable : system.Reachable KeepsIntent
      (Store.initial.run (startedCalls ++ [closingCall .canceled])) :=
    reachable_calls _ fun s => ⟨trivial, trivial, fun _ _ _ _ _ => trivial,
      fun _ _ _ _ _ => trivial, trivial⟩
  exact ⟨a, d, ha, hd, (closing_intent_kept hreachable ha hd).1⟩

/-- A `phase` command finishes the closing attempt around the barrier. -/
theorem phase_passes_barrier :
    ¬ ∀ (s : Store) (roomId : RoomId) (a : Attempt) (d : DState),
      system.Reachable System.Free s → s.attemptOf roomId = some a → a.d = some d →
      IntentRecorded System.Free s a.attemptId d ∧
        (∀ t b, system.Run System.Free s t → t.attemptOf roomId = some b →
          b.attemptId = a.attemptId → ∃ d', b.d = some d' ∧ SameIntent d d') ∧
        (a.phase.terminal = true → a.phase = d.outcome.phase ∧
          a.recoverableError = (if d.outcome = .failed then d.primaryFailureCode else none) ∧
          d.barrierStatus ≠ .waitingForSides) := by
  intro h
  obtain ⟨a, -, ha, -, hsome, finished, hother⟩ :=
    readings 0
      (s := Store.initial.run (startedCalls ++ [closingCall .canceled,
        .mutate 2 0 8 "p" .phase { attemptId := some 15, phase := some .completed } (some 5)]))
      (t := Store.initial.run (startedCalls ++ [closingCall .canceled,
        .mutate 2 0 8 "p" .phase { attemptId := some 15, phase := some .completed } (some 5)]))
      (p := fun a _ => a.d.isSome = true ∧ a.phase.terminal = true ∧
        ¬ ∀ d, a.d = some d → a.phase = d.outcome.phase) (by decide)
  refine hother fun d hd => ?_
  exact ((h _ 0 a d (reachable_free _) ha hd).2.2 finished).1

end SwitchTrade.Authority

import SwitchTrade.Authority.Idempotency

/-!
# Where a remembered acknowledgement comes from

A row of the commands table under the scope of a quiescent report was left by an
acknowledgement with the row's own command id (`step_quiescent_rows`). An acknowledgement
that is answered has such a row already, or leaves its report recorded in the room it is
for (`acknowledge_recorded`).
-/

namespace SwitchTrade.Authority

open Fallible

/-- The scope of a quiescent report on one attempt. -/
def Scope.quiescentOn (scope : Scope) (attemptId : AttemptId) : Prop :=
  ∃ id, scope = .dQuiescent id attemptId

def Scope.isQuiescent : Scope → Bool
  | .dQuiescent _ _ => true
  | _ => false

/-- No row of the commands table is new. -/
def Forgets (db db' : Database) : Prop := ∀ row ∈ db'.commands, row ∈ db.commands

theorem Forgets.refl (db : Database) : Forgets db db := fun _ h => h

theorem Forgets.trans {db db' db'' : Database} (h : Forgets db db') (h' : Forgets db' db'') :
    Forgets db db'' := fun row hrow => h row (h' row hrow)

theorem Forgets.of_eq {db db' : Database} (h : db'.commands = db.commands) : Forgets db db' :=
  fun _ hrow => h ▸ hrow

section Bodies

variable {db db' : Database} {now : Time} {supply : Nat} {room : Room} {roomId : RoomId}
  {result : RoomView × Token × Token}

theorem load_forgets (h : db.load now roomId = .ok (db', room)) : Forgets db db' :=
  .of_eq (load_commands h)

theorem credentialsFor_forgets {bearer : Token} {roomId : Option RoomId} {id : MemberId}
    (h : db.credentialsFor now bearer roomId = .ok (db', room, id)) : Forgets db db' := by
  simp only [Database.credentialsFor, bind_eq_ok, orRaise_eq_ok, pure_eq_ok, Prod.mk.injEq] at h
  obtain ⟨row, -, -, -, ⟨db₁, room₁⟩, hload, rfl, -, -⟩ := h
  exact load_forgets hload

theorem create_forgets {payload : CreatePayload} {codes : List RoomCode}
    (h : db.create now supply payload codes = .ok (result, db')) : Forgets db db' := by
  simp only [Database.create, bind_eq_ok, raiseIf_eq_ok, orRaise_eq_ok, pure_eq_ok,
    Prod.mk.injEq] at h
  obtain ⟨-, -, -, -, visibility, -, -, -, code, -, -, rfl⟩ := h
  exact .refl _

theorem joinRoom_forgets {display : String}
    (h : db.joinRoom now supply room display = .ok (result, db')) : Forgets db db' := by
  simp only [Database.joinRoom, bind_eq_ok, pure_eq_ok, Prod.mk.injEq] at h
  obtain ⟨r, -, -, rfl⟩ := h
  exact .refl _

theorem join_forgets {roomCode : RoomCode} {display : String}
    (h : db.join now supply roomCode display = .ok (result, db')) : Forgets db db' := by
  simp only [Database.join, bind_eq_ok, orRaise_eq_ok, raiseIf_eq_ok] at h
  obtain ⟨found, -, ⟨db₁, r⟩, hload, -, -, hjoin⟩ := h
  exact (load_forgets hload).trans (joinRoom_forgets hjoin)

theorem joinPublic_forgets {listingId : ListingId} {display : String}
    (h : db.joinPublic now supply listingId display = .ok (result, db')) : Forgets db db' := by
  simp only [Database.joinPublic, bind_eq_ok, orRaise_eq_ok, raiseIf_eq_ok] at h
  obtain ⟨found, -, ⟨db₁, r⟩, hload, -, -, hjoin⟩ := h
  exact (load_forgets hload).trans (joinRoom_forgets hjoin)

theorem reconnect_forgets {token : Token}
    (h : db.reconnect now supply roomId token = .ok (result, db')) : Forgets db db' := by
  simp only [Database.reconnect, bind_eq_ok, orRaise_eq_ok, pure_eq_ok, Prod.mk.injEq] at h
  obtain ⟨row, -, ⟨db₁, r⟩, hload, r', -, -, rfl⟩ := h
  exact (load_forgets hload).trans (.refl _)

theorem failTransportAttempt_forgets {attemptId : AttemptId} {code : String} {b : Bool}
    (h : db.failTransportAttempt now roomId attemptId code = .ok (b, db')) : Forgets db db' := by
  simp only [Database.failTransportAttempt, bind_eq_ok] at h
  obtain ⟨⟨db₁, r⟩, hload, h⟩ := h
  refine (load_forgets hload).trans ?_
  split at h
  · simp only [pure_eq_ok, Prod.mk.injEq] at h
    exact h.2 ▸ .refl _
  · simp only [pure_eq_ok, Prod.mk.injEq] at h
    obtain ⟨-, rfl⟩ := h
    exact .refl _

theorem forceDBarrier_forgets {attemptId : AttemptId} {code : String} {b : Bool}
    (h : db.forceDBarrier now roomId attemptId code = .ok (b, db')) : Forgets db db' := by
  simp only [Database.forceDBarrier, bind_eq_ok] at h
  obtain ⟨-, -, ⟨db₁, r⟩, hload, h⟩ := h
  refine (load_forgets hload).trans ?_
  split at h
  · simp only [pure_eq_ok, Prod.mk.injEq] at h
    exact h.2 ▸ .refl _
  · simp only [pure_eq_ok, Prod.mk.injEq] at h
    obtain ⟨-, rfl⟩ := h
    exact .refl _

/-! ## The sweep -/

theorem sweepMemberAt_forgets (acc : Database × Room) (i : Nat) :
    Forgets acc.1 (Database.sweepMemberAt now acc i).1 := by
  unfold Database.sweepMemberAt
  split
  · exact .refl _
  · simp only [Database.record, Database.event]
    split <;> exact .refl _

theorem sweepMembers_forgets (is : List Nat) (acc : Database × Room) :
    Forgets acc.1 (is.foldl (Database.sweepMemberAt now) acc).1 := by
  induction is generalizing acc with
  | nil => exact .refl _
  | cons i is ih => exact (sweepMemberAt_forgets acc i).trans (ih _)

theorem sweepRoom_forgets {acc acc' : Database × List (RoomCode × AttemptId)}
    (h : Database.sweepRoom now acc roomId = .ok acc') : Forgets acc.1 acc'.1 := by
  simp only [Database.sweepRoom, bind_eq_ok] at h
  obtain ⟨⟨db₁, r⟩, hload, h⟩ := h
  refine (load_forgets hload).trans ?_
  split at h
  · simp only [pure_eq_ok] at h
    subst h
    exact .refl _
  · simp only [pure_eq_ok] at h
    subst h
    refine (Forgets.trans ?_ (sweepMembers_forgets _ _)).trans (.of_eq rfl)
    split <;> exact .refl _

theorem sweepPresence_forgets {expired : List (RoomCode × AttemptId)}
    (h : db.sweepPresence now = .ok (expired, db')) : Forgets db db' := by
  simp only [Database.sweepPresence, bind_eq_ok, pure_eq_ok, Prod.mk.injEq] at h
  obtain ⟨⟨db₁, swept⟩, hloop, -, rfl⟩ := h
  have hswept : Forgets db db₁ := by
    refine foldlM_keeps (P := fun acc => Forgets db acc.1) ?_ hloop (.refl _)
    exact fun acc roomId acc' hacc hroom => hacc.trans (sweepRoom_forgets hroom)
  exact fun row hrow => hswept row (List.mem_filter.mp hrow).1

end Bodies

/-! ## One call -/

section Calls

variable {s : Store} {now : Time} {α : Type}

theorem transaction_forgets {body : Database → Except Exn (α × Database)}
    (h : ∀ a db', body s.db = .ok (a, db') → Forgets s.db db') :
    Forgets s.db (s.transaction body).2.db := by
  unfold Store.transaction
  simp only
  split
  · rename_i a db' hok
    exact h a db' hok
  · exact .refl _

theorem failActiveRow_forgets {code : String} (acc : Except Exn Nat × Store) (row : Room) :
    Forgets acc.2.db (Store.failActiveRow now code acc row).2.db := by
  unfold Store.failActiveRow
  split
  · rename_i failed attempt _ _
    have hforced : Forgets acc.2.db (if attempt.phase = .closing then
        acc.2.forceDBarrier now row.roomId attempt.attemptId "D_RELAY_RESTART"
        else (.ok false, acc.2)).2.db := by
      split
      · exact transaction_forgets fun _ _ => forceDBarrier_forgets
      · exact .refl _
    have hlost : ∀ t : Store, Forgets t.db
        (t.failTransportAttempt now row.roomId attempt.attemptId code).2.db :=
      fun t => transaction_forgets fun _ _ => failTransportAttempt_forgets
    simp only
    split
    · exact hforced
    · exact hforced
    · split <;> exact hforced.trans (hlost _)
  · exact .refl _

theorem failActiveAttempts_forgets (s : Store) (now : Time) (code : String) :
    Forgets s.db (s.failActiveAttempts now code).2.db := by
  suffices hrows : ∀ (rows : List Room) (acc : Except Exn Nat × Store),
      Forgets acc.2.db (rows.foldl (Store.failActiveRow now code) acc).2.db from
    hrows s.db.rooms (.ok 0, { s with supply := s.supply + drawsPerCall })
  intro rows
  induction rows with
  | nil => exact fun acc => .refl _
  | cons row rows ih => exact fun acc => (failActiveRow_forgets acc row).trans (ih _)

/-- A snapshot remembers nothing. -/
theorem snapshot_forgets (s : Store) (now : Time) (roomId : RoomId) (bearer : Token) :
    Forgets s.db (s.snapshot now roomId bearer).2.db := by
  refine transaction_forgets fun view db' h => ?_
  simp only [bind_eq_ok, pure_eq_ok, Prod.mk.injEq] at h
  obtain ⟨⟨db₁, room, id⟩, hcredentials, -, rfl⟩ := h
  exact credentialsFor_forgets hcredentials

/-- The rows after a command that hands out tokens: those from before it, and its own. -/
theorem secretCommand_rows {scope : Scope} {commandId : CommandId}
    {body : Database → Except Exn ((RoomView × Token × Token) × Database)}
    (hbody : ∀ result db', body s.db = .ok (result, db') → Forgets s.db db') {row : CommandRow}
    (h : row ∈ (s.secretCommand now scope commandId body).2.db.commands) :
    row ∈ s.db.commands ∨ row.scope = scope := by
  unfold Store.secretCommand at h
  simp only at h
  split at h
  · exact .inl h
  · exact .inl h
  · split at h
    · exact .inl h
    · rename_i hok
      rcases List.mem_append.mp h with h | h
      · exact .inl (hbody _ _ hok row h)
      · rw [List.mem_singleton.mp h]
        exact .inr rfl

/-- The rows after a command of a member: those from before it, and its own. -/
theorem memberCommand_rows {db db' : Database} {roomId : RoomId} {bearer : Token}
    {commandId : CommandId} {scope : MemberId → Scope}
    {command : Room → MemberId → Except Exn Effect} {response : Response}
    (h : db.memberCommand now roomId bearer commandId scope command = .ok (response, db'))
    {row : CommandRow} (hrow : row ∈ db'.commands) :
    row ∈ db.commands ∨ (∃ id, row.scope = scope id) ∧ row.commandId = commandId := by
  simp only [Database.memberCommand, bind_eq_ok] at h
  obtain ⟨⟨db₁, room, id⟩, hcredentials, cached, -, h⟩ := h
  have hold := credentialsFor_forgets hcredentials
  have hnew : ∀ db₂ : Database, db₂.commands = db₁.commands →
      row ∈ (db₂.remember now (scope id) commandId response).commands →
        row ∈ db.commands ∨ (∃ id, row.scope = scope id) ∧ row.commandId = commandId := by
    intro db₂ same hrow
    rcases List.mem_append.mp hrow with hrow | hrow
    · exact .inl (hold row (same ▸ hrow))
    · rw [List.mem_singleton.mp hrow]
      exact .inr ⟨⟨id, rfl⟩, rfl⟩
  cases cached with
  | some cached =>
    simp only [pure_eq_ok, Prod.mk.injEq] at h
    obtain ⟨-, rfl⟩ := h
    exact .inl (hold row hrow)
  | none =>
    simp only [bind_eq_ok] at h
    obtain ⟨effect, -, h⟩ := h
    cases effect with
    | replay =>
      simp only [pure_eq_ok, Prod.mk.injEq] at h
      obtain ⟨rfl, rfl⟩ := h
      exact hnew db₁ rfl hrow
    | write r event data revoked =>
      simp only [pure_eq_ok, Prod.mk.injEq] at h
      obtain ⟨rfl, rfl⟩ := h
      exact hnew _ rfl hrow

theorem memberTransaction_rows {roomId : RoomId} {bearer : Token} {commandId : CommandId}
    {scope : MemberId → Scope} {command : Room → MemberId → Except Exn Effect} {row : CommandRow}
    (h : row ∈ (s.transaction fun db =>
      db.memberCommand now roomId bearer commandId scope command).2.db.commands) :
    row ∈ s.db.commands ∨ (∃ id, row.scope = scope id) ∧ row.commandId = commandId := by
  unfold Store.transaction at h
  simp only at h
  split at h
  · rename_i response db' hok
    exact memberCommand_rows hok h
  · exact .inl h

/-- A row under the scope of a quiescent report is an acknowledgement's, under the command id
it came with. -/
theorem step_quiescent_rows {op : Op} {row : CommandRow} {attemptId : AttemptId}
    (hscope : row.scope.quiescentOn attemptId) (h : row ∈ (s.step op).db.commands) :
    row ∈ s.db.commands ∨ ∃ now roomId bearer payload version,
      op = .acknowledgeDQuiescent now roomId bearer row.commandId attemptId payload version := by
  obtain ⟨id, hscope⟩ := hscope
  have hsecret : row ∈ s.db.commands ∨
      (∃ scope, row.scope = scope ∧ scope ≠ .dQuiescent id attemptId) →
      row ∈ s.db.commands ∨ ∃ now roomId bearer payload version,
        op = .acknowledgeDQuiescent now roomId bearer row.commandId attemptId payload version := by
    rintro (h | ⟨scope, hrow, hother⟩)
    · exact .inl h
    · exact absurd (hrow.symm.trans hscope) hother
  cases op with
  | create now payload commandId client codes =>
    exact hsecret ((secretCommand_rows (fun _ _ => create_forgets) h).imp_right
      fun h => ⟨_, h, by simp⟩)
  | join now roomCode display commandId client =>
    exact hsecret ((secretCommand_rows (fun _ _ => join_forgets) h).imp_right
      fun h => ⟨_, h, by simp⟩)
  | joinPublic now listingId display commandId client =>
    exact hsecret ((secretCommand_rows (fun _ _ => joinPublic_forgets) h).imp_right
      fun h => ⟨_, h, by simp⟩)
  | reconnect now roomId token commandId =>
    exact hsecret ((secretCommand_rows (fun _ _ => reconnect_forgets) h).imp_right
      fun h => ⟨_, h, by simp⟩)
  | expire now roomId =>
    refine .inl (transaction_forgets (fun _ db' hok => ?_) row h)
    cases hload : s.db.load now roomId with
    | error e => simp [hload, Except.map] at hok
    | ok loaded =>
      simp only [hload, Except.map, Except.ok.injEq, Prod.mk.injEq, true_and] at hok
      subst hok
      exact load_forgets hload
  | mutate now roomId bearer commandId action payload version =>
    exact hsecret ((memberTransaction_rows h).imp_right fun ⟨⟨id', h⟩, _⟩ => ⟨_, h, by simp⟩)
  | beginDClosing now roomId bearer commandId attempt payload version =>
    exact hsecret ((memberTransaction_rows h).imp_right fun ⟨⟨id', h⟩, _⟩ => ⟨_, h, by simp⟩)
  | acknowledgeDQuiescent now roomId bearer commandId attempt payload version =>
    rcases memberTransaction_rows h with h | ⟨⟨id', hown⟩, rfl⟩
    · exact .inl h
    · obtain ⟨-, rfl⟩ := Scope.dQuiescent.inj (hown.symm.trans hscope)
      exact .inr ⟨now, roomId, bearer, payload, version, rfl⟩
  | failTransportAttempt now roomId attempt code =>
    exact .inl (transaction_forgets (fun _ _ => failTransportAttempt_forgets) row h)
  | forceDBarrier now roomId attempt code =>
    exact .inl (transaction_forgets (fun _ _ => forceDBarrier_forgets) row h)
  | failActiveAttempts now code => exact .inl (failActiveAttempts_forgets s now code row h)
  | sweepPresence now =>
    exact .inl (transaction_forgets (fun _ _ => sweepPresence_forgets) row h)
  | restart now =>
    exact .inl (failActiveAttempts_forgets { s with ephemeral := [] } now "relay.restart" row h)

end Calls

/-! ## What an answered acknowledgement leaves -/

/-- The recorded side is the payload's, field by field. -/
def DSideReport.Of (side : DSideReport) (payload : DQuiescentPayload) : Prop :=
  payload.runId = some side.runId ∧ payload.stageGeneration = some side.stageGeneration ∧
    payload.launchIdentitySha256 = some side.launchIdentitySha256 ∧
    payload.evidence = some side.evidence

/-- The room holds the attempt with the payload as the report of the payload's seat. -/
def Room.Records (room : Room) (attemptId : AttemptId) (payload : DQuiescentPayload) : Prop :=
  ∃ a d seat side, room.attempt = some a ∧ a.attemptId = attemptId ∧ a.d = some d ∧
    payload.attemptId = some attemptId ∧ payload.sourceSeat = some seat ∧
    payload.activationGeneration = some d.activationGeneration ∧
    d.sides.get seat = some side ∧ side.Of payload

/-- A quiescent report is recorded in the document of a room. -/
def Store.Records (s : Store) (roomId : RoomId) (attemptId : AttemptId)
    (payload : DQuiescentPayload) : Prop :=
  ∃ room ∈ s.db.rooms, room.roomId = roomId ∧ room.Records attemptId payload

theorem DQuiescentPayload.report_of {payload : DQuiescentPayload} {now : Time} {side : DSideReport}
    (h : payload.report now = .ok side) : side.Of payload := by
  simp only [report, bind_eq_ok, orRaise_eq_ok, pure_eq_ok, Option.filter_eq_some_iff] at h
  obtain ⟨evidence, hevidence, runId, hrun, stage, ⟨hstage, -⟩, launch, ⟨hlaunch, -⟩, rfl⟩ := h
  exact ⟨hrun, hstage, hlaunch, hevidence⟩

theorem DSideReport.Of.of_agrees {side other : DSideReport} {payload : DQuiescentPayload}
    (h : other.Of payload) (hagrees : side.agrees other) : side.Of payload := by
  obtain ⟨hrun, hstage, hlaunch, hevidence⟩ := hagrees
  exact ⟨hrun ▸ h.1, hstage ▸ h.2.1, hlaunch ▸ h.2.2.1, hevidence ▸ h.2.2.2⟩

theorem DSides.get_set (sides : DSides) (seat : Seat) (side : DSideReport) :
    (sides.set seat side).get seat = some side := by
  cases seat <;> rfl

namespace Room

variable {room : Room} {now : Time} {memberId : MemberId} {attemptId : AttemptId}
  {payload : DQuiescentPayload} {version : Nat}

theorem recordQuiescent_attempt (a : Attempt) (d : DState) (seat : Seat) (report : DSideReport) :
    (room.recordQuiescent a d seat report now).roomId = room.roomId ∧
      ∃ b e, (room.recordQuiescent a d seat report now).attempt = some b ∧
      b.attemptId = a.attemptId ∧ b.d = some e ∧ e.sides = d.sides.set seat report ∧
      e.activationGeneration = d.activationGeneration := by
  obtain ⟨-, heq⟩ | ⟨status, code, -, heq⟩ := @recordQuiescent_cases room now a d seat report
  · rw [heq]
    exact ⟨rfl, _, _, rfl, rfl, rfl, rfl, rfl⟩
  · rw [heq]
    exact ⟨rfl, _, _, rfl, rfl, rfl, rfl, rfl⟩

theorem acknowledge_write_records {r : Room} {event : String} {data : EventData} {revoked : Revoked}
    (h : room.acknowledgeDQuiescent now memberId attemptId payload version =
      .ok (.write r event data revoked)) :
    r.roomId = room.roomId ∧ r.Records attemptId payload := by
  obtain ⟨a, d, m, report, hchecked, rfl⟩ := acknowledgeDQuiescent_write h
  obtain ⟨hroom, b, e, hb, hid, he, hsides, hactivation⟩ :=
    @recordQuiescent_attempt room now a d m.seat report
  refine ⟨hroom, b, e, m.seat, report, hb, hid.trans hchecked.named, he, hchecked.identity.1,
    hchecked.identity.2.1, ?_, ?_, DQuiescentPayload.report_of hchecked.valid⟩
  · rw [hactivation]
    exact hchecked.identity.2.2
  · rw [hsides]
    exact DSides.get_set d.sides m.seat report

theorem acknowledge_replay_records
    (h : room.acknowledgeDQuiescent now memberId attemptId payload version = .ok .replay) :
    room.Records attemptId payload := by
  simp only [acknowledgeDQuiescent, bind_eq_ok, raiseIf_eq_ok, orRaise_eq_ok, not_not] at h
  obtain ⟨⟨a, m⟩, hid, d, hd, -, -, -, -, -, hidentity, report, hreport, h⟩ := h
  simp only [not_or, not_not] at hidentity
  obtain ⟨ha, hnamed, -, -⟩ := dIdentity_spec hid
  cases hside : d.sides.get m.seat with
  | none => simp only [hside, bind_eq_ok, pure_eq_ok, reduceCtorEq, and_false, exists_false] at h
  | some existing =>
    simp only [hside, bind_eq_ok, raiseIf_eq_ok, not_not, pure_eq_ok] at h
    obtain ⟨-, hagrees, -⟩ := h
    exact ⟨a, d, m.seat, existing, ha, hnamed, hd, hidentity.1, hidentity.2.1, hidentity.2.2, hside,
      (DQuiescentPayload.report_of hreport).of_agrees hagrees⟩

end Room

/-- An acknowledgement leaves a new row only where it is answered. -/
theorem acknowledge_rows {s : Store} {now : Time} {roomId : RoomId} {bearer : Token}
    {commandId : CommandId} {attemptId : AttemptId} {payload : DQuiescentPayload} {version : Nat}
    {row : CommandRow}
    (h : row ∈ (s.acknowledgeDQuiescent now roomId bearer commandId attemptId payload
      version).2.db.commands) :
    row ∈ s.db.commands ∨ ∃ response,
      (s.acknowledgeDQuiescent now roomId bearer commandId attemptId payload version).1 =
        .ok response := by
  unfold Store.acknowledgeDQuiescent Store.transaction at h ⊢
  simp only at h ⊢
  split at h
  · exact .inr ⟨_, rfl⟩
  · exact .inl h

/-- An acknowledgement that is answered was answered before, or its report is recorded. -/
theorem acknowledge_recorded {s : Store} {now : Time} {roomId : RoomId} {bearer : Token}
    {commandId : CommandId} {attemptId : AttemptId} {payload : DQuiescentPayload} {version : Nat}
    {response : Response}
    (h : (s.acknowledgeDQuiescent now roomId bearer commandId attemptId payload version).1 =
      .ok response) :
    (∃ row ∈ s.db.commands, row.scope.quiescentOn attemptId ∧ row.commandId = commandId) ∨
      (s.acknowledgeDQuiescent now roomId bearer commandId attemptId payload version).2.Records
        roomId attemptId payload := by
  unfold Store.acknowledgeDQuiescent Store.transaction at h ⊢
  simp only at h ⊢
  split at h
  · rename_i response' db' hok
    simp only [Database.acknowledgeDQuiescent, Database.memberCommand, bind_eq_ok] at hok
    obtain ⟨⟨db₁, room, id⟩, hcredentials, cached, hcached, hok⟩ := hok
    obtain ⟨-, hheld, hid, -⟩ :=
      @credentialsFor_strokes s (.expire now roomId) _ _ _ _ _ _ hcredentials
    cases cached with
    | some cached =>
      simp only [Database.commandResponse, bind_eq_ok, raiseIf_eq_ok, pure_eq_ok] at hcached
      obtain ⟨-, -, hcached⟩ := hcached
      obtain ⟨row, hrow, -⟩ := Option.map_eq_some_iff.mp hcached
      have hkey := List.find?_some hrow
      simp only [Bool.and_eq_true, decide_eq_true_eq] at hkey
      exact .inl ⟨row, credentialsFor_forgets hcredentials row (List.mem_of_find?_eq_some hrow),
        ⟨id, hkey.1⟩, hkey.2⟩
    | none =>
      simp only [bind_eq_ok] at hok
      obtain ⟨effect, heffect, hok⟩ := hok
      refine .inr ?_
      cases effect with
      | replay =>
        simp only [pure_eq_ok, Prod.mk.injEq] at hok
        obtain ⟨-, rfl⟩ := hok
        exact ⟨room, hheld, hid, Room.acknowledge_replay_records heffect⟩
      | write r event data revoked =>
        simp only [pure_eq_ok, Prod.mk.injEq] at hok
        obtain ⟨-, rfl⟩ := hok
        obtain ⟨hroom, hrecords⟩ := Room.acknowledge_write_records heffect
        exact ⟨_, Database.mem_save_self (List.mem_map.mpr ⟨room, hheld, hroom.symm⟩),
          hroom.trans hid, hrecords⟩
  · cases h

end SwitchTrade.Authority

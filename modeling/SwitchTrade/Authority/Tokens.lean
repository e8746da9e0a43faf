import SwitchTrade.Authority.Credentials

/-!
# Tokens, records and cached answers

What a repeated command meets: the token it carries still belongs to the member it belonged
to, the row the first execution left in the commands table is still there, and the cache of
secret responses holds nothing else under its key. A room that waits for a partner has a
deadline for it, so that loading a room never fails on a missing one.
-/

namespace SwitchTrade.Authority

open Fallible Relation Transition

/-! ## Waiting rooms have a deadline -/

namespace Room

variable {room r : Room} {now : Time} {fresh : AttemptId} {memberId : MemberId} {payload : Payload}
  {event : String} {data : EventData} {revoked : Revoked}

/-- A room that waits for a partner knows until when. -/
def Waits (room : Room) : Prop :=
  room.state = .waitingForPartner → room.waitingExpiresAtEpoch.isSome = true

theorem Waits.of_same (h : room.Waits) (state : r.state = room.state)
    (waiting : r.waitingExpiresAtEpoch = room.waitingExpiresAtEpoch) : r.Waits := by
  intro hstate
  rw [waiting]
  exact h (state.symm.trans hstate)

theorem Waits.of_state (state : r.state ≠ .waitingForPartner) : r.Waits := fun h => absurd h state

theorem setReadiness_waits (h : room.Waits) {ready : Bool} {role : Option SwitchRoomRole} :
    (room.setReadiness memberId ready role).Waits := by
  unfold setReadiness
  split
  · exact h.of_same rfl rfl
  · exact h.of_same rfl rfl

theorem enterPhase_waits (h : room.Waits) {a : Attempt} {p : AttemptPhase} {code : Option String} :
    (room.enterPhase now a p code).Waits := by
  unfold enterPhase
  simp only
  split
  · exact .of_state (by simp)
  · split
    · exact .of_state (by simp)
    · exact h.of_same rfl rfl

theorem dispatch_waits {act : Action} (hwaits : room.Waits)
    (h : room.dispatch now fresh memberId act payload = .ok (.write r event data revoked)) :
    r.Waits := by
  cases dispatch_dispatched h with
  | chosen _ a choice => exact choice ▸ setReadiness_waits hwaits
  | begun => exact .of_state (by simp [beginAttempt])
  | settled before state choice idle next =>
    refine .of_state ?_
    rcases next with rfl | rfl <;> simp
  | attempt => exact .of_state (by simp [beginAttempt])
  | heartbeat | claim | transfer | lockRole | refine => exact hwaits.of_same rfl rfl
  | enter => exact enterPhase_waits hwaits
  | leave | removeOffline => exact fun _ => rfl
  | close => exact .of_state (by simp)

theorem recordQuiescent_waits (h : room.Waits) {a : Attempt} {d : DState} {seat : Seat}
    {report : DSideReport} : (room.recordQuiescent a d seat report now).Waits := by
  obtain ⟨-, heq⟩ | ⟨status, code, -, heq⟩ := @recordQuiescent_cases room now a d seat report
  · rw [heq]
    exact h.of_same rfl rfl
  · rw [heq]
    exact .of_state (by simp [terminalizeD])

theorem expireMember_waits (h : room.Waits) {i : Nat} : (room.expireMember now i).Waits := by
  unfold expireMember
  simp only
  split
  · exact h.of_same rfl rfl
  · split
    · exact h.of_same rfl rfl
    · exact .of_state (by simp)

end Room

theorem RoomWrite.waits {s : Store} {op : Op} {room r : Room} (h : RoomWrite s op room r)
    (hwaits : room.Waits) : r.Waits := by
  cases h with
  | expire => exact .of_state (by simp)
  | mutate _ _ written => exact Room.dispatch_waits hwaits (Room.mutate_write written).2.2.2.2
  | beginDClosing _ _ written =>
    obtain ⟨a, d, -, -, -, -, rfl, -⟩ := Room.beginDClosing_write written
    exact hwaits.of_same rfl rfl
  | acknowledgeDQuiescent _ _ written =>
    obtain ⟨a, d, m, report, -, rfl⟩ := Room.acknowledgeDQuiescent_write written
    exact Room.recordQuiescent_waits hwaits
  | join _ written =>
    simp only [Room.joinRoom, bind_eq_ok, raiseIf_eq_ok, pure_eq_ok] at written
    obtain ⟨-, -, rfl⟩ := written
    exact .of_state (by simp)
  | reconnect _ written =>
    obtain ⟨m, -, -, -, -, -, rfl⟩ := reconnectMember_ok written
    exact hwaits.of_same rfl rfl
  | fail _ written =>
    obtain ⟨a, -, -, -, -, -, rfl⟩ := Room.failTransportAttempt_some written
    exact .of_state (by simp)
  | force _ written =>
    obtain ⟨a, d, -, -, -, -, -, rfl⟩ := Room.forceDBarrier_some written
    exact .of_state (by simp [Room.terminalizeD])
  | sweepBarrier _ written =>
    obtain ⟨a, d, -, -, -, -, rfl⟩ := Room.sweepBarrier_some written
    exact .of_state (by simp [Room.terminalizeD])
  | sweepMember _ written =>
    obtain ⟨m, -, -, ⟨-, -, rfl⟩ | ⟨-, -, rfl⟩⟩ := Room.sweepMember_some written
    · exact hwaits.of_same rfl rfl
    · exact Room.expireMember_waits hwaits

theorem RoomChange.waits {s : Store} {op : Op} {room room' : Room} (h : RoomChange s op room room')
    (hwaits : room.Waits) : room'.Waits := by
  induction h with
  | refl => exact hwaits
  | tail _ hlast ih =>
    obtain ⟨r, sequence, hwritten, rfl⟩ := hlast
    exact (hwritten.waits ih).of_same rfl rfl

theorem step_waits {s : Store} (ids : s.Ids) (op : Op) (h : ∀ room ∈ s.db.rooms, room.Waits) :
    ∀ room ∈ (s.step op).db.rooms, room.Waits := by
  intro room' hr'
  obtain ⟨room, hopened⟩ | hstrokes :=
    step_strokes op ids.nodup fun room hr => (ids.rooms room hr).ne
  · rw [hopened.rooms, List.mem_append, List.mem_singleton] at hr'
    rcases hr' with hr' | rfl
    · exact h room' hr'
    · exact fun _ => hopened.waiting
  · obtain ⟨room, hr, hchange⟩ := hstrokes.changes.rooms hr'
    exact hchange.waits (h room hr)

theorem reachable_waits {G : Store → Op → Prop} {s : Store} (h : system.Reachable G s) :
    ∀ room ∈ s.db.rooms, room.Waits := by
  have hinv : s.Ids ∧ ∀ room ∈ s.db.rooms, room.Waits := by
    refine h.invariant (P := fun s => s.Ids ∧ ∀ room ∈ s.db.rooms, room.Waits)
      (fun s hs => ⟨reachable_ids (G := G) (.init hs), ?_⟩) fun s op t hs _ ht => ?_
    · subst hs
      exact fun room hr => (List.not_mem_nil hr).elim
    · subst ht
      exact ⟨step_ids hs.1 op, step_waits hs.1 op hs.2⟩
  exact hinv.2

/-- A room with a deadline is due or not. -/
theorem Room.Waits.due {room : Room} (h : room.Waits) (now : Time) : room.expiryDue now ≠ none := by
  unfold Room.expiryDue
  split
  · rename_i hstate hnone
    have hsome := h hstate
    rw [hnone] at hsome
    cases hsome
  · exact Option.some_ne_none _
  · exact Option.some_ne_none _

/-- The exception is an `AuthorityError`. -/
def Exn.isAuthority (e : Exn) : Prop := ∃ status detail, e = .authority status detail

/-- Loading a room of a reachable database raises an `AuthorityError` or nothing. -/
theorem load_error {db : Database} {now : Time} {roomId : RoomId} {e : Exn}
    (hwaits : ∀ room ∈ db.rooms, room.Waits) (h : db.load now roomId = .error e) :
    e.isAuthority := by
  simp only [Database.load, bind_eq_error, orRaise_eq_ok, orRaise_eq_error] at h
  rcases h with ⟨-, rfl⟩ | ⟨room, hroom, ⟨hnone, -⟩ | ⟨due, -, h⟩⟩
  · exact ⟨_, _, rfl⟩
  · exact absurd hnone ((hwaits room (Database.room?_mem hroom).1).due now)
  · cases due <;> simp [pure, Except.pure] at h

theorem credentialsFor_error {db : Database} {now : Time} {bearer : Token} {roomId : RoomId}
    {e : Exn} (hwaits : ∀ room ∈ db.rooms, room.Waits)
    (h : db.credentialsFor now bearer (some roomId) = .error e) : e.isAuthority := by
  simp only [Database.credentialsFor, bind_eq_error, orRaise_eq_error, raiseIf_eq_error,
    pure_eq_error] at h
  rcases h with ⟨-, rfl⟩ | ⟨row, -, ⟨-, rfl⟩ | ⟨-, -, hload | ⟨loaded, -, hfalse⟩⟩⟩
  · exact ⟨_, _, rfl⟩
  · exact ⟨_, _, rfl⟩
  · exact load_error hwaits hload
  · exact hfalse.elim

/-! ## Tokens are drawn once -/

section Stroke

variable {s : Store} {op : Op} {db db' : Database}

/-- Every bearer of `db` had its token when the call began, or all of them that did not are
one member, with the token the call drew. -/
def Drawn (s : Store) (db : Database) : Prop :=
  ∃ id, ∀ bearer ∈ db.bearers, bearer ∈ s.db.bearers ∨ bearer = (id, ⟨s.supply + 3⟩)

theorem Drawn.of_same (same : db.bearers = s.db.bearers) : Drawn s db :=
  ⟨0, fun _ h => .inl (same ▸ h)⟩

theorem rotate_bearers (first : db.bearers = s.db.bearers) {now : Time} {roomId : RoomId}
    {row : CredentialRow} : Drawn s (db.rotate now roomId row (s.supply + 3) (s.supply + 4)) := by
  refine ⟨row.memberId, fun bearer hbearer => ?_⟩
  simp only [Database.bearers, Database.rotate, List.map_map, List.mem_map,
    Function.comp_apply] at hbearer
  obtain ⟨r, hr, rfl⟩ := hbearer
  split
  · rename_i hit
    exact .inr (by rw [hit.1])
  · exact .inl (first ▸ List.mem_map_of_mem hr)

theorem Stroke.drawn (h : Stroke s op db db') (drawn : Drawn s db) : Drawn s db' := by
  obtain ⟨id, drawn⟩ := drawn
  cases h with
  | remember => exact ⟨id, drawn⟩
  | @write room r revoked event actor data held written moved timely =>
    refine ⟨id, fun bearer hbearer => drawn bearer ?_⟩
    have hrevoked : bearer ∈ (db.revoke r.roomId revoked).bearers := hbearer
    rwa [Database.revoke_bearers] at hrevoked
  | @join room r display call held isOpen first written =>
    refine ⟨s.supply + 1, fun bearer hbearer => ?_⟩
    have hadded : bearer ∈ (db.bearers ++ [(s.supply + 1, (⟨s.supply + 3⟩ : TokenHash))]) := by
      simpa [Database.bearers, Database.commit, Database.addCredential, Database.save,
        Database.record, Database.event] using hbearer
    rcases List.mem_append.mp hadded with hold | hnew
    · exact .inl (first ▸ hold)
    · exact .inr (List.mem_singleton.mp hnew)
  | @reconnect room r row call held known own first written => exact rotate_bearers first
  | purge =>
    refine ⟨id, fun bearer hbearer => drawn bearer ?_⟩
    obtain ⟨row, hrow, rfl⟩ := List.mem_map.mp hbearer
    rw [Database.purge_credentials] at hrow
    exact List.mem_map_of_mem (List.mem_filter.mp hrow).1

theorem Strokes.drawn (h : Strokes s op s.db db) : Drawn s db := by
  induction h with
  | refl => exact .of_same rfl
  | tail _ hlast ih => exact hlast.drawn ih

theorem step_drawn (ids : s.Ids) (op : Op) : Drawn s (s.step op).db := by
  obtain ⟨room, hopened⟩ | hstrokes :=
    step_strokes op ids.nodup fun room hr => (ids.rooms room hr).ne
  · obtain ⟨row, hrows, htoken, -, -, hmember, -⟩ := hopened.credentials
    refine ⟨s.supply + 1, fun bearer hbearer => ?_⟩
    rw [Database.bearers, hrows, List.map_append, List.mem_append] at hbearer
    rcases hbearer with hold | hnew
    · exact .inl hold
    · right
      rw [List.map_singleton, List.mem_singleton] at hnew
      rw [hnew, hmember, htoken]
  · exact hstrokes.drawn

end Stroke

/-- Every token was drawn from the supply, and two rows with one token are one member's. -/
structure Store.Tokens (s : Store) : Prop where
  drawn : ∀ bearer ∈ s.db.bearers, bearer.2.token < s.supply
  one : ∀ bearer ∈ s.db.bearers, ∀ bearer' ∈ s.db.bearers, bearer.2 = bearer'.2 →
    bearer.1 = bearer'.1

/-- Whoever carries a token that was drawn before a call carried it before. -/
theorem step_bearer {s : Store} (ids : s.Ids) (op : Op) {bearer : MemberId × TokenHash}
    (h : bearer ∈ (s.step op).db.bearers) (old : bearer.2.token < s.supply) :
    bearer ∈ s.db.bearers := by
  obtain ⟨id, hdrawn⟩ := step_drawn ids op
  refine (hdrawn bearer h).resolve_right fun hnew => ?_
  rw [hnew] at old
  exact absurd old (Nat.not_lt.mpr (Nat.le_add_right _ _))

theorem step_tokens {s : Store} (ids : s.Ids) (h : s.Tokens) (op : Op) : (s.step op).Tokens := by
  have hsupply : s.supply + 5 ≤ (s.step op).supply := step_supply s op
  obtain ⟨id, hdrawn⟩ := step_drawn ids op
  refine ⟨fun bearer hbearer => ?_, fun bearer hbearer bearer' hbearer' same => ?_⟩
  · rcases hdrawn bearer hbearer with hold | hnew
    · have hlt := h.drawn bearer hold
      exact hlt.trans_le ((Nat.le_add_right _ 5).trans hsupply)
    · rw [hnew]
      exact (Nat.add_lt_add_left (by decide) _).trans_le hsupply
  · rcases hdrawn bearer hbearer with hold | hnew <;>
      rcases hdrawn bearer' hbearer' with hold' | hnew'
    · exact h.one bearer hold bearer' hold' same
    · have hlt := h.drawn bearer hold
      rw [same, hnew'] at hlt
      exact absurd hlt (Nat.not_lt.mpr (Nat.le_add_right _ _))
    · have hlt := h.drawn bearer' hold'
      rw [← same, hnew] at hlt
      exact absurd hlt (Nat.not_lt.mpr (Nat.le_add_right _ _))
    · rw [hnew, hnew']

theorem reachable_tokens {G : Store → Op → Prop} {s : Store} (h : system.Reachable G s) :
    s.Tokens := by
  have hinv : s.Ids ∧ s.Tokens := by
    refine h.invariant (P := fun s => s.Ids ∧ s.Tokens)
      (fun s hs => ⟨reachable_ids (G := G) (.init hs), ?_⟩) fun s op t hs _ ht => ?_
    · subst hs
      exact ⟨fun bearer hb => (List.not_mem_nil hb).elim,
        fun bearer hb => (List.not_mem_nil hb).elim⟩
    · subst ht
      exact ⟨step_ids hs.1 op, step_tokens hs.1 hs.2 op⟩
  exact hinv.2

/-! ## Records stay for the retention window -/

/-- The row of the commands table under a scope and a command id. -/
def Database.record? (db : Database) (scope : Scope) (commandId : CommandId) : Option CommandRow :=
  db.commands.find? fun row => row.scope = scope && row.commandId = commandId

section Record

variable {s : Store} {op : Op} {db db' : Database} {scope : Scope} {commandId : CommandId}
  {row : CommandRow}

theorem record?_append {rows : List CommandRow} (same : db'.commands = db.commands ++ rows)
    (h : db.record? scope commandId = some row) : db'.record? scope commandId = some row := by
  rw [Database.record?, same, List.find?_append, show db.commands.find? _ = some row from h]
  rfl

theorem purge_record? {now : Time} (kept : now ≤ row.createdAt + commandRetentionSeconds)
    (h : db.record? scope commandId = some row) :
    (db.purge now).record? scope commandId = some row := by
  have hkept : ¬ row.createdAt < now - commandRetentionSeconds :=
    Nat.not_lt.mpr (Nat.sub_le_iff_le_add.mpr kept)
  show (db.commands.filter _).find? _ = some row
  rw [List.find?_filter]
  obtain ⟨hrow, before, after, hsplit, hbefore⟩ := List.find?_eq_some_iff_append.mp h
  refine List.find?_eq_some_iff_append.mpr ⟨?_, before, after, hsplit, fun r hr => ?_⟩
  · simp only [hkept, not_false_eq_true, decide_true, hrow, and_self]
  · have := hbefore r hr
    simp_all

theorem Stroke.record (h : Stroke s op db db')
    (kept : op.now ≤ row.createdAt + commandRetentionSeconds)
    (hrow : db.record? scope commandId = some row) :
    db'.record? scope commandId = some row := by
  cases h with
  | remember => exact record?_append rfl hrow
  | write => exact hrow
  | join => exact hrow
  | reconnect => exact hrow
  | purge => exact purge_record? kept hrow

theorem Strokes.record (h : Strokes s op db db')
    (kept : op.now ≤ row.createdAt + commandRetentionSeconds)
    (hrow : db.record? scope commandId = some row) :
    db'.record? scope commandId = some row := by
  induction h with
  | refl => exact hrow
  | tail _ hlast ih => exact hlast.record kept ih

theorem step_record (ids : s.Ids) (kept : op.now ≤ row.createdAt + commandRetentionSeconds)
    (hrow : s.db.record? scope commandId = some row) :
    (s.step op).db.record? scope commandId = some row := by
  obtain ⟨room, hopened⟩ | hstrokes :=
    step_strokes op ids.nodup fun room hr => (ids.rooms room hr).ne
  · obtain ⟨new, hcommands⟩ := hopened.commands
    exact record?_append hcommands hrow
  · exact hstrokes.record kept hrow

end Record

/-! ## The cache of secret responses -/

theorem transaction_ephemeral {α : Type} {s : Store} {body : Database → Except Exn (α × Database)} :
    (s.transaction body).2.ephemeral = s.ephemeral := by
  unfold Store.transaction
  simp only
  split <;> rfl

/-- What `_secret_command_response` finds, and what it leaves of the cache. -/
theorem secretCommandResponse_spec (s : Store) (now : Time) (scope : Scope)
    (commandId : CommandId) :
    (s.secretCommandResponse now scope commandId).2.Sublist s.ephemeral ∧
      match (s.secretCommandResponse now scope commandId).1 with
      | .error e => e.isAuthority
      | .ok (some response) => ∃ e ∈ s.ephemeral, e.1 = (scope, commandId) ∧ e.2.2 = response
      | .ok none => s.db.record? scope commandId = none := by
  unfold Store.secretCommandResponse
  split
  · exact ⟨.refl _, _, _, rfl⟩
  have hkept : (if 4096 ≤ s.ephemeral.length then s.ephemeral.filter (now < ·.2.1)
      else s.ephemeral).Sublist s.ephemeral := by
    split
    · exact List.filter_sublist
    · exact .refl _
  simp only
  generalize (if 4096 ≤ s.ephemeral.length then s.ephemeral.filter (now < ·.2.1)
    else s.ephemeral) = kept at hkept
  split
  · exact ⟨hkept, _, _, rfl⟩
  · split
    · rename_i key lapses response hcached
      have hmem := List.mem_of_find?_eq_some hcached
      have hkey := List.find?_some hcached
      split
      · exact ⟨hkept, _, hkept.subset hmem, by simpa using hkey, rfl⟩
      · split
        · exact ⟨List.filter_sublist.trans hkept, _, _, rfl⟩
        · rename_i hnone
          exact ⟨List.filter_sublist.trans hkept, by simpa [Database.record?] using hnone⟩
    · split
      · exact ⟨hkept, _, _, rfl⟩
      · rename_i hnone
        exact ⟨hkept, by simpa [Database.record?] using hnone⟩

/-- A cached response is an old one or the one the call has just given. -/
theorem secretCommand_cache {s : Store} {now : Time} {scope : Scope} {commandId : CommandId}
    {body : Database → Except Exn ((RoomView × Token × Token) × Database)}
    {e : (Scope × CommandId) × Time × Response}
    (h : e ∈ (s.secretCommand now scope commandId body).2.ephemeral) :
    e ∈ s.ephemeral ∨ e.1 = (scope, commandId) ∧
      (s.secretCommandResponse now scope commandId).1 = .ok none ∧
      (s.secretCommand now scope commandId body).1 = .ok e.2.2 := by
  obtain ⟨hsub, -⟩ := secretCommandResponse_spec s now scope commandId
  unfold Store.secretCommand at h ⊢
  simp only at h ⊢
  split at h
  · exact .inl (hsub.subset h)
  · exact .inl (hsub.subset h)
  · rename_i hnone
    split at h
    · exact .inl (hsub.subset h)
    · rename_i view token reconnect db hbody
      rcases List.mem_append.mp h with h | h
      · exact .inl (hsub.subset (List.mem_filter.mp h).1)
      · rw [List.mem_singleton.mp h]
        exact .inr ⟨rfl, hnone, rfl⟩

/-- The cached responses under a key after a secret command: those from before it, or its own
under a key that had no record. -/
theorem secretCommand_ephemeral {s : Store} {now : Time} {scope : Scope} {commandId : CommandId}
    {body : Database → Except Exn ((RoomView × Token × Token) × Database)}
    {e : (Scope × CommandId) × Time × Response}
    (h : e ∈ (s.secretCommand now scope commandId body).2.ephemeral) :
    e ∈ s.ephemeral ∨ s.db.record? e.1.1 e.1.2 = none := by
  refine (secretCommand_cache h).imp_right ?_
  rintro ⟨hkey, hnone, -⟩
  have hfound := (secretCommandResponse_spec s now scope commandId).2
  rw [hnone] at hfound
  rw [hkey]
  exact hfound

theorem secretCommand_keys {s : Store} {now : Time} {scope : Scope} {commandId : CommandId}
    {body : Database → Except Exn ((RoomView × Token × Token) × Database)}
    (h : (s.ephemeral.map (·.1)).Nodup) :
    ((s.secretCommand now scope commandId body).2.ephemeral.map (·.1)).Nodup := by
  obtain ⟨hsub, -⟩ := secretCommandResponse_spec s now scope commandId
  have hleft := h.sublist (hsub.map (·.1))
  unfold Store.secretCommand
  simp only
  split
  · exact hleft
  · exact hleft
  · split
    · exact hleft
    · rw [List.map_append, List.nodup_append]
      refine ⟨hleft.sublist (List.filter_sublist.map _), List.nodup_singleton _, ?_⟩
      intro key hkey key' hkey' heq
      obtain ⟨e, he, rfl⟩ := List.mem_map.mp hkey
      have hother : e.1 ≠ (scope, commandId) := by simpa using (List.mem_filter.mp he).2
      exact hother (heq.trans (List.mem_singleton.mp hkey'))

theorem failActiveRow_ephemeral {now : Time} {code : String} (acc : Except Exn Nat × Store)
    (row : Room) : (Store.failActiveRow now code acc row).2.ephemeral = acc.2.ephemeral := by
  unfold Store.failActiveRow
  split
  · rename_i failed attempt _ _
    have hforced : (if attempt.phase = .closing then
        acc.2.forceDBarrier now row.roomId attempt.attemptId "D_RELAY_RESTART"
        else (.ok false, acc.2)).2.ephemeral = acc.2.ephemeral := by
      split
      · exact transaction_ephemeral
      · rfl
    simp only
    split
    · exact hforced
    · exact hforced
    · split <;> exact transaction_ephemeral.trans hforced
  · rfl

theorem failActiveAttempts_ephemeral (s : Store) (now : Time) (code : String) :
    (s.failActiveAttempts now code).2.ephemeral = s.ephemeral := by
  suffices hrows : ∀ (rows : List Room) (acc : Except Exn Nat × Store),
      (rows.foldl (Store.failActiveRow now code) acc).2.ephemeral = acc.2.ephemeral from
    hrows s.db.rooms (.ok 0, { s with supply := s.supply + drawsPerCall })
  intro rows
  induction rows with
  | nil => exact fun acc => rfl
  | cons row rows ih => exact fun acc => (ih _).trans (failActiveRow_ephemeral acc row)

/-- A call caches a response only under a key that had no record. -/
theorem step_ephemeral {s : Store} {op : Op} {e : (Scope × CommandId) × Time × Response}
    (h : e ∈ (s.step op).ephemeral) : e ∈ s.ephemeral ∨ s.db.record? e.1.1 e.1.2 = none := by
  cases op with
  | create | join | joinPublic | reconnect => exact secretCommand_ephemeral h
  | expire | mutate | beginDClosing | acknowledgeDQuiescent | failTransportAttempt | forceDBarrier
  | sweepPresence => exact .inl (transaction_ephemeral ▸ h)
  | failActiveAttempts now code => exact .inl (failActiveAttempts_ephemeral s now code ▸ h)
  | restart now =>
    have hempty := failActiveAttempts_ephemeral { s with ephemeral := [] } now "relay.restart"
    exact (List.not_mem_nil (hempty ▸ h)).elim

theorem reachable_keys {G : Store → Op → Prop} {s : Store} (h : system.Reachable G s) :
    (s.ephemeral.map (·.1)).Nodup := by
  have same : ∀ {t u : Store}, t.ephemeral = u.ephemeral → (u.ephemeral.map (·.1)).Nodup →
      (t.ephemeral.map (·.1)).Nodup := by
    intro t u heq hu
    rw [heq]
    exact hu
  refine h.invariant (P := fun s => (s.ephemeral.map (·.1)).Nodup) (fun s hs => ?_)
    fun s op t hs _ ht => ?_
  · subst hs
    exact List.nodup_nil
  · subst ht
    cases op with
    | create | join | joinPublic | reconnect => exact secretCommand_keys hs
    | expire | mutate | beginDClosing | acknowledgeDQuiescent | failTransportAttempt | forceDBarrier
    | sweepPresence => exact same transaction_ephemeral hs
    | failActiveAttempts now code => exact same (failActiveAttempts_ephemeral s now code) hs
    | restart now =>
      exact same (failActiveAttempts_ephemeral { s with ephemeral := [] } now "relay.restart")
        List.nodup_nil

end SwitchTrade.Authority

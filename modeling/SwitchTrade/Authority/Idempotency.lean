import SwitchTrade.Authority.Tokens

/-!
# A command is carried out once

The commands of the store carry an id, and a call that repeats one is answered from what
the first execution left behind. Two mechanisms do this. The commands of a member look up
the response in the commands table, under the member their credential names. The commands
that hand out tokens keep the response in a cache of the process and only a marker in the
table: when the cached response is gone, the marker turns the repetition into an error.
-/

namespace SwitchTrade.Authority

open Fallible Relation Transition

/-! ## Answers -/

/-- What makes two calls the same command: its id and its scope. The scope of a member's
command depends on the member that its credential names. -/
inductive CommandKey where
  | secret (scope : Scope) (commandId : CommandId)
  | member (bearer : Token) (scope : MemberId → Scope) (commandId : CommandId)

/-- The key of a call, if it is a command. -/
def Op.key : Op → Option CommandKey
  | .create _ _ commandId client _ => some (.secret (.create (clientOrAnonymous client)) commandId)
  | .join _ roomCode _ commandId client =>
    some (.secret (.join (clientOrAnonymous client) roomCode) commandId)
  | .joinPublic _ listingId _ commandId client =>
    some (.secret (.publicJoin (clientOrAnonymous client) listingId) commandId)
  | .reconnect _ roomId token commandId => some (.secret (.reconnect roomId ⟨token⟩) commandId)
  | .mutate _ _ bearer commandId action _ _ => some (.member bearer (.member · action) commandId)
  | .beginDClosing _ _ bearer commandId attemptId _ _ =>
    some (.member bearer (.dClosing · attemptId) commandId)
  | .acknowledgeDQuiescent _ _ bearer commandId attemptId _ _ =>
    some (.member bearer (.dQuiescent · attemptId) commandId)
  | _ => none

/-- What the store answers to a command. -/
def Store.respond (s : Store) : Op → Option (Except Exn Response)
  | .create now payload commandId client codes =>
    some (s.create now payload commandId client codes).1
  | .join now roomCode display commandId client =>
    some (s.join now roomCode display commandId client).1
  | .joinPublic now listingId display commandId client =>
    some (s.joinPublic now listingId display commandId client).1
  | .reconnect now roomId token commandId => some (s.reconnect now roomId token commandId).1
  | .mutate now roomId bearer commandId action payload version =>
    some (s.mutate now roomId bearer commandId action payload version).1
  | .beginDClosing now roomId bearer commandId attemptId payload version =>
    some (s.beginDClosing now roomId bearer commandId attemptId payload version).1
  | .acknowledgeDQuiescent now roomId bearer commandId attemptId payload version =>
    some (s.acknowledgeDQuiescent now roomId bearer commandId attemptId payload version).1
  | _ => none

/-- The row of the commands table that a command with this key looks up. -/
def Store.Recorded (s : Store) (row : CommandRow) : CommandKey → Prop
  | .secret scope commandId => s.db.record? scope commandId = some row
  | .member bearer scope commandId =>
    ∃ id, (id, ⟨bearer⟩) ∈ s.db.bearers ∧ s.db.record? (scope id) commandId = some row

/-- The run stays within the retention window of the command: its row is there at the start
and every call of the run is made at most the retention time after it was written. -/
def WithinRetention (key : CommandKey) (s t : Store) : Prop :=
  ∃ row, s.Recorded row key ∧
    system.Run (fun _ op => op.now ≤ row.createdAt + commandRetentionSeconds) s t

/-- The database after it, if it changed at all, is the one before it with one room expired by
the load of that room. -/
def LazilyExpired (now : Time) (db db' : Database) : Prop :=
  db' = db ∨ ∃ roomId room, db.load now roomId = .ok (db', room)

theorem respond_secret {s : Store} {op : Op} {scope : Scope} {commandId : CommandId}
    (h : op.key = some (.secret scope commandId)) :
    ∃ body, s.respond op = some (s.secretCommand op.now scope commandId body).1 ∧
      s.step op = (s.secretCommand op.now scope commandId body).2 := by
  cases op with
  | create | join | joinPublic | reconnect =>
    cases h
    exact ⟨_, rfl, rfl⟩
  | mutate | beginDClosing | acknowledgeDQuiescent => cases h
  | _ => cases h

theorem respond_member {s : Store} {op : Op} {bearer : Token} {scope : MemberId → Scope}
    {commandId : CommandId} (h : op.key = some (.member bearer scope commandId)) :
    ∃ roomId command,
      s.respond op = some (s.transaction fun db =>
        db.memberCommand op.now roomId bearer commandId scope command).1 ∧
      s.step op = (s.transaction fun db =>
        db.memberCommand op.now roomId bearer commandId scope command).2 := by
  cases op with
  | create | join | joinPublic | reconnect => cases h
  | mutate | beginDClosing | acknowledgeDQuiescent =>
    cases h
    exact ⟨_, _, rfl, rfl⟩
  | _ => cases h

/-! ## Commands of a member -/

section Member

variable {db db' : Database} {now : Time} {roomId : RoomId} {bearer : Token} {id : MemberId}
  {scope : MemberId → Scope} {commandId : CommandId} {response : Response}
  {command : Room → MemberId → Except Exn Effect}

/-- Loading a room leaves the commands table alone. -/
theorem load_commands {room : Room} (h : db.load now roomId = .ok (db', room)) :
    db'.commands = db.commands := by
  obtain ⟨-, -, rfl⟩ | ⟨found, -, -, -, rfl⟩ := load_cases h
  · rfl
  · rfl

theorem credentialsFor_ok {room : Room}
    (h : db.credentialsFor now bearer (some roomId) = .ok (db', room, id)) :
    (id, ⟨bearer⟩) ∈ db.bearers ∧ ∃ roomId, db.load now roomId = .ok (db', room) := by
  simp only [Database.credentialsFor, bind_eq_ok, orRaise_eq_ok, pure_eq_ok, Prod.mk.injEq] at h
  obtain ⟨row, hrow, -, -, ⟨db₁, room₁⟩, hload, rfl, rfl, rfl⟩ := h
  have htoken : row.tokenHash = ⟨bearer⟩ ∧ row.active = true := by
    simpa using List.find?_some hrow
  refine ⟨?_, row.roomId, hload⟩
  have hmem : (row.memberId, row.tokenHash) ∈ db.bearers :=
    List.mem_map.mpr ⟨row, List.mem_of_find?_eq_some hrow, rfl⟩
  rwa [htoken.1] at hmem

/-- A member's command that returned left its response in the table. -/
theorem memberCommand_recorded
    (h : db.memberCommand now roomId bearer commandId scope command = .ok (response, db')) :
    ∃ id row, (id, ⟨bearer⟩) ∈ db.bearers ∧ db'.record? (scope id) commandId = some row ∧
      row.response = response := by
  simp only [Database.memberCommand, bind_eq_ok] at h
  obtain ⟨⟨db₁, room, id⟩, hcredentials, cached, hcached, h⟩ := h
  obtain ⟨hbearer, -, hload⟩ := credentialsFor_ok hcredentials
  simp only [Database.commandResponse, bind_eq_ok, raiseIf_eq_ok, pure_eq_ok] at hcached
  obtain ⟨-, -, hcached⟩ := hcached
  cases cached with
  | some cached =>
    simp only [pure_eq_ok, Prod.mk.injEq] at h
    obtain ⟨rfl, rfl⟩ := h
    obtain ⟨row, hrow, hresponse⟩ := Option.map_eq_some_iff.mp hcached
    exact ⟨id, row, hbearer, hrow, hresponse⟩
  | none =>
    have hnone : db₁.record? (scope id) commandId = none := Option.map_eq_none_iff.mp hcached
    -- A new row is found, because no row was.
    have hnew : ∀ db₂ : Database, db₂.commands = db₁.commands →
        (db₂.remember now (scope id) commandId response).record? (scope id) commandId =
          some ⟨scope id, commandId, response, now⟩ := by
      intro db₂ same
      rw [Database.record?, Database.remember, List.find?_append, same,
        show db₁.commands.find? _ = none from hnone]
      simp
    simp only [bind_eq_ok] at h
    obtain ⟨effect, -, h⟩ := h
    cases effect with
    | replay =>
      simp only [pure_eq_ok, Prod.mk.injEq] at h
      obtain ⟨rfl, rfl⟩ := h
      exact ⟨id, _, hbearer, hnew db₁ rfl, rfl⟩
    | write room event data revoked =>
      simp only [pure_eq_ok, Prod.mk.injEq] at h
      obtain ⟨rfl, rfl⟩ := h
      exact ⟨id, _, hbearer, hnew _ rfl, rfl⟩

/-- A member's command that has a record is answered from it, or raises. -/
theorem memberCommand_again {row : CommandRow} (hwaits : ∀ room ∈ db.rooms, room.Waits)
    (own : ∀ id', (id', (⟨bearer⟩ : TokenHash)) ∈ db.bearers → id' = id)
    (hrow : db.record? (scope id) commandId = some row) :
    match db.memberCommand now roomId bearer commandId scope command with
    | .ok (response, db') => response = row.response ∧ LazilyExpired now db db'
    | .error e => e.isAuthority := by
  split
  · rename_i response db' h
    simp only [Database.memberCommand, bind_eq_ok] at h
    obtain ⟨⟨db₁, room, id'⟩, hcredentials, cached, hcached, h⟩ := h
    obtain ⟨hbearer, loaded, hload⟩ := credentialsFor_ok hcredentials
    obtain rfl := own id' hbearer
    simp only [Database.commandResponse, bind_eq_ok, raiseIf_eq_ok, pure_eq_ok] at hcached
    obtain ⟨-, -, rfl⟩ := hcached
    have hfound : db₁.record? (scope id') commandId = some row := by
      rwa [Database.record?, load_commands hload]
    rw [show db₁.commands.find? _ = some row from hfound] at h
    simp only [Option.map_some, pure_eq_ok, Prod.mk.injEq] at h
    obtain ⟨rfl, rfl⟩ := h
    exact ⟨rfl, .inr ⟨loaded, room, hload⟩⟩
  · rename_i e h
    simp only [Database.memberCommand, bind_eq_error] at h
    rcases h with h | ⟨⟨db₁, room, id'⟩, hcredentials, h⟩
    · exact credentialsFor_error hwaits h
    obtain ⟨hbearer, loaded, hload⟩ := credentialsFor_ok hcredentials
    obtain rfl := own id' hbearer
    have hfound : db₁.record? (scope id') commandId = some row := by
      rwa [Database.record?, load_commands hload]
    rcases h with h | ⟨cached, hcached, h⟩
    · simp only [Database.commandResponse, bind_eq_error, raiseIf_eq_error, pure_eq_error,
        and_false, exists_false, or_false] at h
      obtain ⟨-, rfl⟩ := h
      exact ⟨_, _, rfl⟩
    · simp only [Database.commandResponse, bind_eq_ok, raiseIf_eq_ok, pure_eq_ok] at hcached
      obtain ⟨-, -, rfl⟩ := hcached
      rw [show db₁.commands.find? _ = some row from hfound] at h
      simp only [Option.map_some, pure_eq_error] at h

end Member

/-! ## Commands that hand out tokens -/

section Secret

variable {s : Store} {now : Time} {scope : Scope} {commandId : CommandId} {response : Response}
  {body : Database → Except Exn ((RoomView × Token × Token) × Database)}

/-- After a secret command returned, the cache holds nothing else under its key. -/
theorem secretCommand_cached (keys : (s.ephemeral.map (·.1)).Nodup)
    (h : (s.secretCommand now scope commandId body).1 = .ok response) :
    ∀ e ∈ (s.secretCommand now scope commandId body).2.ephemeral, e.1 = (scope, commandId) →
      e.2.2 = response := by
  obtain ⟨hsub, hfound⟩ := secretCommandResponse_spec s now scope commandId
  unfold Store.secretCommand at h ⊢
  simp only at h ⊢
  split at h
  · cases h
  · rename_i cached hcached
    cases h
    simp only [hcached] at hfound ⊢
    obtain ⟨e₀, he₀, hkey₀, hresponse⟩ := hfound
    intro e he hkey
    obtain rfl := List.inj_on_of_nodup_map keys (hsub.subset he) he₀ (hkey.trans hkey₀.symm)
    exact hresponse
  · split at h
    · cases h
    · cases h
      simp only
      intro e he hkey
      rcases List.mem_append.mp he with he | he
      · have hother : e.1 ≠ (scope, commandId) := by simpa using (List.mem_filter.mp he).2
        exact absurd hkey hother
      · rw [List.mem_singleton.mp he]

/-- A secret command that has a record is answered from the cache, or raises; the database
stays as it is. -/
theorem secretCommand_again {row : CommandRow} (hrow : s.db.record? scope commandId = some row)
    (hcache : ∀ e ∈ s.ephemeral, e.1 = (scope, commandId) → e.2.2 = response) :
    (s.secretCommand now scope commandId body).2.db = s.db ∧
      match (s.secretCommand now scope commandId body).1 with
      | .ok again => again = response
      | .error e => e.isAuthority := by
  obtain ⟨-, hfound⟩ := secretCommandResponse_spec s now scope commandId
  unfold Store.secretCommand
  simp only
  split
  · rename_i e herror
    simp only [herror] at hfound
    exact ⟨rfl, hfound⟩
  · rename_i cached hcached
    simp only [hcached] at hfound
    obtain ⟨e, he, hkey, hresponse⟩ := hfound
    exact ⟨rfl, hresponse.symm.trans (hcache e he hkey)⟩
  · rename_i hnone
    rw [hnone] at hfound
    simp [hrow] at hfound

end Secret

/-! ## From the first execution to the second -/

/-- What the first execution leaves behind for a repetition. -/
def Answered (row : CommandRow) (response : Response) (s : Store) : CommandKey → Prop
  | .secret scope commandId => s.db.record? scope commandId = some row ∧
    ∀ e ∈ s.ephemeral, e.1 = (scope, commandId) → e.2.2 = response
  | .member bearer scope commandId => row.response = response ∧ bearer < s.supply ∧
    ∃ id, s.db.record? (scope id) commandId = some row ∧
      ∀ id', (id', (⟨bearer⟩ : TokenHash)) ∈ s.db.bearers → id' = id

theorem Answered.step {row : CommandRow} {response : Response} {s : Store} {key : CommandKey}
    (h : Answered row response s key) (ids : s.Ids) {op : Op}
    (kept : op.now ≤ row.createdAt + commandRetentionSeconds) :
    Answered row response (s.step op) key := by
  have hsupply : s.supply ≤ (s.step op).supply :=
    (Nat.le_add_right _ _).trans (step_supply s op)
  cases key with
  | secret scope commandId =>
    obtain ⟨hrow, hcache⟩ := h
    refine ⟨step_record ids kept hrow, fun e he hkey => ?_⟩
    rcases step_ephemeral he with hold | hnone
    · exact hcache e hold hkey
    · rw [hkey] at hnone
      simp [hrow] at hnone
  | member bearer scope commandId =>
    obtain ⟨hresponse, hdrawn, id, hrow, own⟩ := h
    refine ⟨hresponse, hdrawn.trans_le hsupply, id, step_record ids kept hrow, fun id' hid' => ?_⟩
    exact own id' (step_bearer ids op hid' hdrawn)

/-- The first execution leaves its response behind. -/
theorem first_answered {s : Store} (hs : system.Reachable System.Free s) {op : Op}
    {key : CommandKey}
    (hkey : op.key = some key) {response : Response} (first : s.respond op = some (.ok response))
    {row : CommandRow} (recorded : (s.step op).Recorded row key) :
    Answered row response (s.step op) key := by
  have ids : s.Ids := reachable_ids hs
  have tokens : s.Tokens := reachable_tokens hs
  cases key with
  | secret scope commandId =>
    obtain ⟨body, hrespond, hstep⟩ := @respond_secret s op scope commandId hkey
    rw [first, Option.some.injEq] at hrespond
    refine ⟨recorded, ?_⟩
    rw [hstep]
    exact secretCommand_cached (reachable_keys hs) hrespond.symm
  | member bearer scope commandId =>
    obtain ⟨roomId, command, hrespond, hstep⟩ := @respond_member s op bearer scope commandId hkey
    rw [first, Option.some.injEq] at hrespond
    unfold Store.transaction at hrespond hstep
    simp only at hrespond hstep
    split at hrespond
    · rename_i response' db' hbody
      cases hrespond
      simp only [hbody] at hstep
      obtain ⟨id, row', hbearer, hrow', hresponse⟩ := memberCommand_recorded hbody
      have hdrawn : bearer < s.supply := tokens.drawn _ hbearer
      have own : ∀ id', (id', (⟨bearer⟩ : TokenHash)) ∈ (s.step op).db.bearers → id' = id := by
        intro id' hid'
        exact tokens.one _ (step_bearer ids op hid' hdrawn) _ hbearer rfl
      obtain ⟨id', hid', hrow⟩ := recorded
      obtain rfl := own id' hid'
      have hrow'' : (s.step op).db.record? (scope id') commandId = some row' := by
        rw [hstep]
        exact hrow'
      obtain rfl := Option.some.inj (hrow.symm.trans hrow'')
      refine ⟨hresponse, ?_, id', hrow, own⟩
      exact hdrawn.trans_le ((Nat.le_add_right _ _).trans (step_supply s op))
    · cases hrespond

/-- A call that repeats an answered command is answered with the same response, or raises. -/
theorem Answered.again {t : Store} (ht : system.Reachable System.Free t) {row : CommandRow}
    {response : Response} {key : CommandKey} (h : Answered row response t key) {op : Op}
    (hkey : op.key = some key) :
    (t.respond op = some (.ok response) ∨ ∃ e, t.respond op = some (.error e) ∧ e.isAuthority) ∧
      LazilyExpired op.now t.db (t.step op).db := by
  have hwaits := reachable_waits ht
  cases key with
  | secret scope commandId =>
    obtain ⟨hrow, hcache⟩ := h
    obtain ⟨body, hrespond, hstep⟩ := @respond_secret t op scope commandId hkey
    obtain ⟨hdb, hagain⟩ :=
      @secretCommand_again t op.now scope commandId response body row hrow hcache
    rw [hrespond, hstep]
    refine ⟨?_, .inl hdb⟩
    split at hagain
    · rename_i again hok
      rw [hok, hagain]
      exact .inl rfl
    · rename_i e herror
      rw [herror]
      exact .inr ⟨e, rfl, hagain⟩
  | member bearer scope commandId =>
    obtain ⟨hresponse, -, id, hrow, own⟩ := h
    obtain ⟨roomId, command, hrespond, hstep⟩ := @respond_member t op bearer scope commandId hkey
    have hagain := @memberCommand_again t.db op.now roomId bearer id scope commandId command row
      hwaits own hrow
    rw [hrespond, hstep]
    unfold Store.transaction
    simp only
    split at hagain
    · rename_i again db' hok
      rw [hok]
      exact ⟨.inl (by rw [hagain.1, hresponse]), hagain.2⟩
    · rename_i e herror
      rw [herror]
      exact ⟨.inr ⟨e, rfl, hagain⟩, .inl rfl⟩

/-- Every command is carried out at most once. A call with the key of a command that was
answered, made after any run of other calls within the retention window, is answered with
exactly the first response or raises an `AuthorityError`, and changes the database at most
as loading a room does. -/
theorem command_carried_out_once {s : Store} (hs : system.Reachable System.Free s) {op : Op}
    {key : CommandKey} (hkey : op.key = some key) {response : Response}
    (first : s.respond op = some (.ok response)) {t : Store}
    (within : WithinRetention key (s.step op) t) {op' : Op} (repeated : op'.key = some key) :
    (t.respond op' = some (.ok response) ∨
        ∃ status detail, t.respond op' = some (.error (.authority status detail))) ∧
      LazilyExpired op'.now t.db (t.step op').db := by
  obtain ⟨row, hrecorded, hrun⟩ := within
  have hstart : system.Reachable System.Free (s.step op) := hs.step (i := op) trivial rfl
  have hend : Answered row response t key ∧ system.Reachable System.Free t := by
    refine hrun.keeps (P := fun t => Answered row response t key ∧ system.Reachable System.Free t)
      (fun u o v ⟨hu, hreach⟩ hkept hv => ?_) ⟨first_answered hs hkey first hrecorded, hstart⟩
    subst hv
    exact ⟨hu.step (reachable_ids hreach) hkept, hreach.step (i := o) trivial rfl⟩
  obtain ⟨hagain, hexpired⟩ := hend.1.again hend.2 repeated
  refine ⟨hagain.imp_right ?_, hexpired⟩
  rintro ⟨e, herror, status, detail, rfl⟩
  exact ⟨status, detail, herror⟩

/-- Member `1` asks twice to be ready, the second time with another role: between the two its
partner sends a heartbeat. -/
theorem command_carried_out_once_ready :
    ∃ (s : Store) (response : Response),
      s.respond (readyCall 3 "r" .creator) = some (.ok response) ∧
      ∃ t, system.Run System.Free (s.step (readyCall 3 "r" .creator)) t ∧
        (t.respond (readyCall 3 "r" .finder) = some (.ok response) ∨
          ∃ status detail,
            t.respond (readyCall 3 "r" .finder) = some (.error (.authority status detail))) ∧
        LazilyExpired 0 t.db (t.step (readyCall 3 "r" .finder)).db := by
  let s := Store.initial.run (startedCalls.take 2)
  have hfirst : (s.respond (readyCall 3 "r" .creator)).any (·.toOption.isSome) = true := by decide
  have hrow : ((s.step (readyCall 3 "r" .creator)).db.record? (.member 1 .ready) "r").isSome =
      true := by
    decide
  obtain ⟨answer, hanswer, hfirst⟩ := (Option.any_eq_true _ _).mp hfirst
  obtain ⟨row, hrow⟩ := Option.isSome_iff_exists.mp hrow
  cases answer with
  | error e => cases hfirst
  | ok response =>
    let beat : Op := .mutate 5 0 8 "h" .heartbeat {} none
    have hwithin : WithinRetention (.member 3 (.member · .ready) "r")
        (s.step (readyCall 3 "r" .creator)) ((s.step (readyCall 3 "r" .creator)).step beat) := by
      have hbearer : (1, (⟨3⟩ : TokenHash)) ∈ (s.step (readyCall 3 "r" .creator)).db.bearers := by
        decide
      have hsoon : beat.now ≤ row.createdAt + commandRetentionSeconds :=
        Nat.le_trans (by decide : (5 : Nat) ≤ commandRetentionSeconds) (Nat.le_add_left _ _)
      exact ⟨row, ⟨1, hbearer, hrow⟩, .step (i := beat) hsoon rfl⟩
    exact ⟨s, response, hanswer, _, .step (i := beat) trivial rfl,
      @command_carried_out_once s (reachable_free _) (readyCall 3 "r" .creator) _ rfl response
        hanswer
        _ hwithin (readyCall 3 "r" .finder) rfl⟩

end SwitchTrade.Authority

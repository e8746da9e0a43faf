import SwitchTrade.Authority.Idempotency

/-!
# Reconnecting rotates the credentials

`reconnect` trades a reconnect token for a new pair of tokens. Reconnect tokens are drawn
from the supply like bearers, and the previous one of a row was once its current one: so a
token names one member whatever its row has been through. A call that is carried out leaves
the row of one member with the pair it drew, and nothing a member carried before it is taken
afterwards, except the reconnect token rotated out, for a while. A call that only repeats an
earlier answer says so of the tokens in it as long as the member still carries them and the
room still lets it back.
-/

namespace SwitchTrade.Authority

open Fallible Relation Transition

/-! ## Reconnect tokens are drawn once -/

/-- The reconnect token of the row, and the one it replaced. -/
def CredentialRow.reconnects (row : CredentialRow) : List TokenHash :=
  row.reconnectHash :: row.previousReconnectHash.toList

/-- Whom the reconnect tokens belong to, those rotated out included. -/
def Database.reconnects (db : Database) : List (MemberId × TokenHash) :=
  db.credentials.flatMap fun row => row.reconnects.map (row.memberId, ·)

theorem Database.mem_reconnects {db : Database} {id : MemberId} {hash : TokenHash} :
    (id, hash) ∈ db.reconnects ↔
      ∃ row ∈ db.credentials, row.memberId = id ∧ hash ∈ row.reconnects := by
  simp only [Database.reconnects, List.mem_flatMap, List.mem_map, Prod.mk.injEq]
  constructor
  · rintro ⟨row, hrow, hash', hmem, rfl, rfl⟩
    exact ⟨row, hrow, rfl, hmem⟩
  · rintro ⟨row, hrow, rfl, hmem⟩
    exact ⟨row, hrow, hash, hmem, rfl, rfl⟩

/-- The row is the other one, but for being active. -/
structure CredentialRow.Same (row old : CredentialRow) : Prop where
  room : row.roomId = old.roomId
  member : row.memberId = old.memberId
  token : row.tokenHash = old.tokenHash
  current : row.reconnectHash = old.reconnectHash
  previous : row.previousReconnectHash = old.previousReconnectHash
  until_ : row.previousReconnectUntil = old.previousReconnectUntil

theorem CredentialRow.Same.refl (row : CredentialRow) : row.Same row :=
  ⟨rfl, rfl, rfl, rfl, rfl, rfl⟩

theorem CredentialRow.Same.trans {row old older : CredentialRow} (h : row.Same old)
    (h' : old.Same older) : row.Same older :=
  ⟨h.room.trans h'.room, h.member.trans h'.member, h.token.trans h'.token,
    h.current.trans h'.current, h.previous.trans h'.previous, h.until_.trans h'.until_⟩

theorem CredentialRow.Same.reconnects {row old : CredentialRow} (h : row.Same old) :
    row.reconnects = old.reconnects := by
  rw [CredentialRow.reconnects, CredentialRow.reconnects, h.current, h.previous]

section Stroke

variable {s : Store} {op : Op} {db db' : Database} {id : MemberId} {row row' : CredentialRow}

/-- The row is one of the start, or has what the call drew for the member and a reconnect
token the member had at the start. -/
def RowDrawn (s : Store) (id : MemberId) (row : CredentialRow) : Prop :=
  (∃ old ∈ s.db.credentials, row.Same old) ∨
  (row.memberId = id ∧ row.tokenHash = ⟨s.supply + 3⟩ ∧ row.reconnectHash = ⟨s.supply + 4⟩ ∧
    ∀ hash, row.previousReconnectHash = some hash → (id, hash) ∈ s.db.reconnects)

theorem RowDrawn.of_same (h : RowDrawn s id row) (same : row'.Same row) : RowDrawn s id row' := by
  rcases h with ⟨old, hold, hsame⟩ | ⟨hmember, htoken, hcurrent, hprevious⟩
  · exact .inl ⟨old, hold, same.trans hsame⟩
  · refine .inr ⟨same.member.trans hmember, same.token.trans htoken, same.current.trans hcurrent,
      fun hash h => ?_⟩
    exact hprevious hash (same.previous.symm.trans h)

/-- A row with a bearer drawn before the call is an old one. -/
theorem RowDrawn.old (h : RowDrawn s id row) (known : row.tokenHash.token < s.supply) :
    ∃ old ∈ s.db.credentials, row.Same old := by
  refine h.resolve_right ?_
  rintro ⟨-, htoken, -⟩
  rw [htoken] at known
  exact absurd known (Nat.not_lt.mpr (Nat.le_add_right _ _))

/-- The rows of a database in which one member has what the call drew. -/
def RowsDrawn (s : Store) (db : Database) : Prop :=
  ∃ id, ∀ row ∈ db.credentials, RowDrawn s id row

theorem RowsDrawn.start : RowsDrawn s s.db :=
  ⟨0, fun row hrow => .inl ⟨row, hrow, .refl row⟩⟩

/-- While the bearers are those of the start, so are the rows. -/
theorem RowsDrawn.first (h : RowsDrawn s db) (tokens : s.Tokens)
    (first : db.bearers = s.db.bearers) (id : MemberId) :
    ∀ row ∈ db.credentials, RowDrawn s id row := by
  obtain ⟨id', h⟩ := h
  intro row hrow
  have hbearer : (row.memberId, row.tokenHash) ∈ s.db.bearers := by
    rw [← first]
    exact List.mem_map_of_mem hrow
  exact .inl ((h row hrow).old (tokens.drawn _ hbearer))

theorem Stroke.rowsDrawn (h : Stroke s op db db') (tokens : s.Tokens) (drawn : RowsDrawn s db) :
    RowsDrawn s db' := by
  cases h with
  | remember => exact drawn
  | @write room r revoked event actor data held written moved timely =>
    obtain ⟨id, drawn⟩ := drawn
    refine ⟨id, fun row' hrow' => ?_⟩
    have hrevoked : row' ∈ (db.revoke r.roomId revoked).credentials := hrow'
    rw [Database.revoke_credentials] at hrevoked
    obtain ⟨row, hrow, rfl⟩ := List.mem_map.mp hrevoked
    split
    · exact (drawn row hrow).of_same ⟨rfl, rfl, rfl, rfl, rfl, rfl⟩
    · exact drawn row hrow
  | @join room r display call held isOpen first written =>
    refine ⟨s.supply + 1, fun row' hrow' => ?_⟩
    rcases List.mem_append.mp hrow' with hold | hnew
    · exact drawn.first tokens first _ row' hold
    · rw [List.mem_singleton.mp hnew]
      exact .inr ⟨rfl, rfl, rfl, nofun⟩
  | @reconnect room r row call held known own first written =>
    have hold := drawn.first tokens first row.memberId
    refine ⟨row.memberId, fun row' hrow' => ?_⟩
    obtain ⟨r', hr', rfl⟩ := List.mem_map.mp hrow'
    split
    · rename_i hit
      refine .inr ⟨hit.1, rfl, rfl, fun hash hprevious => ?_⟩
      -- The token rotated out is one the row had at the start.
      have hbearer : (row.memberId, row.tokenHash) ∈ s.db.bearers := by
        rw [← first]
        exact List.mem_map_of_mem known
      obtain ⟨old, hmem, hsame⟩ := (hold row known).old (tokens.drawn _ hbearer)
      have hcurrent : hash = row.reconnectHash := (Option.some.inj hprevious).symm
      refine Database.mem_reconnects.mpr ⟨old, hmem, hsame.member.symm, ?_⟩
      rw [← hsame.reconnects, hcurrent]
      exact List.mem_cons_self
    · exact hold r' hr'
  | purge =>
    obtain ⟨id, drawn⟩ := drawn
    refine ⟨id, fun row hrow => drawn row ?_⟩
    rw [Database.purge_credentials] at hrow
    exact (List.mem_filter.mp hrow).1

theorem Strokes.rowsDrawn (h : Strokes s op s.db db) (tokens : s.Tokens) : RowsDrawn s db := by
  induction h with
  | refl => exact .start
  | tail _ hlast ih => exact hlast.rowsDrawn tokens ih

theorem step_rowsDrawn (ids : s.Ids) (tokens : s.Tokens) (op : Op) :
    RowsDrawn s (s.step op).db := by
  obtain ⟨room, hopened⟩ | hstrokes :=
    step_strokes op ids.nodup fun room hr => (ids.rooms room hr).ne
  · obtain ⟨row, hrows, htoken, hcurrent, -, hmember, -, hprevious⟩ := hopened.credentials
    refine ⟨s.supply + 1, fun row' hrow' => ?_⟩
    rw [hrows, List.mem_append, List.mem_singleton] at hrow'
    rcases hrow' with hold | rfl
    · exact .inl ⟨row', hold, .refl row'⟩
    · refine .inr ⟨hmember, htoken, hcurrent, fun hash h => ?_⟩
      rw [hprevious] at h
      cases h
  · exact hstrokes.rowsDrawn tokens

/-- After a call every reconnect token is an old one, or all that are not are one member's,
and that is the token the call drew. -/
theorem step_reconnects (ids : s.Ids) (tokens : s.Tokens) (op : Op) :
    ∃ id, ∀ held ∈ (s.step op).db.reconnects,
      held ∈ s.db.reconnects ∨ held = (id, ⟨s.supply + 4⟩) := by
  obtain ⟨id, hdrawn⟩ := step_rowsDrawn ids tokens op
  refine ⟨id, fun ⟨id', hash⟩ hheld => ?_⟩
  obtain ⟨row, hrow, rfl, hmem⟩ := Database.mem_reconnects.mp hheld
  rcases hdrawn row hrow with ⟨old, hold, hsame⟩ | ⟨hmember, -, hcurrent, hprevious⟩
  · exact .inl (Database.mem_reconnects.mpr ⟨old, hold, hsame.member.symm, hsame.reconnects ▸ hmem⟩)
  · rcases List.mem_cons.mp hmem with rfl | hmem
    · exact .inr (by rw [hmember, hcurrent])
    · exact .inl (hmember ▸ hprevious hash (Option.mem_toList.mp hmem))

end Stroke

/-- Every reconnect token was drawn from the supply and is one member's. -/
structure Store.Reconnects (s : Store) : Prop where
  drawn : ∀ held ∈ s.db.reconnects, held.2.token < s.supply
  one : ∀ held ∈ s.db.reconnects, ∀ held' ∈ s.db.reconnects, held.2 = held'.2 → held.1 = held'.1

theorem Store.Reconnects.step {s : Store} (h : s.Reconnects) (ids : s.Ids) (tokens : s.Tokens)
    (op : Op) : (s.step op).Reconnects := by
  have hsupply : s.supply + 5 ≤ (s.step op).supply := step_supply s op
  obtain ⟨id, hdrawn⟩ := step_reconnects ids tokens op
  -- The token the call drew is none of the old ones.
  have fresh : ∀ held ∈ s.db.reconnects, held.2 ≠ ⟨s.supply + 4⟩ := by
    intro held hheld heq
    have hlt := h.drawn held hheld
    rw [heq] at hlt
    exact absurd hlt (Nat.not_lt.mpr (Nat.le_add_right _ _))
  refine ⟨fun held hheld => ?_, fun held hheld held' hheld' same => ?_⟩
  · rcases hdrawn held hheld with hold | hnew
    · exact (h.drawn held hold).trans_le ((Nat.le_add_right _ 5).trans hsupply)
    · rw [hnew]
      exact (Nat.add_lt_add_left (by decide) _).trans_le hsupply
  · rcases hdrawn held hheld with hold | hnew <;> rcases hdrawn held' hheld' with hold' | hnew'
    · exact h.one held hold held' hold' same
    · exact absurd (same.trans (congrArg (·.2) hnew')) (fresh held hold)
    · exact absurd (same.symm.trans (congrArg (·.2) hnew)) (fresh held' hold')
    · rw [hnew, hnew']

theorem reachable_reconnects {G : Store → Op → Prop} {s : Store} (h : system.Reachable G s) :
    s.Reconnects := by
  have hinv : (s.Ids ∧ s.Tokens) ∧ s.Reconnects := by
    refine h.invariant (P := fun s => (s.Ids ∧ s.Tokens) ∧ s.Reconnects) (fun s hs => ?_)
      fun s op t hs _ ht => ?_
    · refine ⟨⟨reachable_ids (G := G) (.init hs), reachable_tokens (G := G) (.init hs)⟩, ?_⟩
      subst hs
      exact ⟨fun held hh => (List.not_mem_nil hh).elim, fun held hh => (List.not_mem_nil hh).elim⟩
    · obtain ⟨⟨ids, tokens⟩, reconnects⟩ := hs
      subst ht
      exact ⟨⟨step_ids ids op, step_tokens ids tokens op⟩, reconnects.step ids tokens op⟩
  exact hinv.2

/-- A row of the second store whose bearer was drawn before the first is one of the first. -/
def RowsKept (s t : Store) : Prop :=
  s.supply ≤ t.supply ∧ ∀ row ∈ t.db.credentials, row.tokenHash.token < s.supply →
    ∃ old ∈ s.db.credentials, row.Same old

theorem run_rowsKept {s t : Store} (hs : system.Reachable System.Free s)
    (h : system.Run System.Free s t) : RowsKept s t := by
  refine h.relates (R := RowsKept) (fun s => ?_) (fun s t u hst htu => ?_)
    (fun s op t hs _ ht => ?_) hs
  · exact ⟨le_rfl, fun row hrow _ => ⟨row, hrow, .refl row⟩⟩
  · refine ⟨hst.1.trans htu.1, fun row hrow hlt => ?_⟩
    obtain ⟨old, hold, hsame⟩ := htu.2 row hrow (hlt.trans_le hst.1)
    obtain ⟨older, holder, hsame'⟩ := hst.2 old hold (hsame.token ▸ hlt)
    exact ⟨older, holder, hsame.trans hsame'⟩
  · subst ht
    obtain ⟨id, hdrawn⟩ := step_rowsDrawn (reachable_ids hs) (reachable_tokens hs) op
    exact ⟨(Nat.le_add_right _ _).trans (step_supply s op), fun row hrow hlt =>
      (hdrawn row hrow).old hlt⟩

/-! ## What a call that was carried out leaves -/

/-- The row `reconnect` finds for a token. -/
def Database.reconnectRow? (db : Database) (now : Time) (roomId : RoomId) (hash : TokenHash) :
    Option CredentialRow :=
  db.credentials.find? fun row => row.roomId = roomId &&
    (row.reconnectHash = hash ||
      (row.previousReconnectHash = some hash && row.previousReconnectUntil.any (now < ·)))

/-- The room lets the member back, whatever token it shows. -/
def Database.Admits (db : Database) (now : Time) (roomId : RoomId) (id : MemberId) : Prop :=
  ∃ room row r, db.room? roomId = some room ∧ room.expiryDue now = some false ∧
    row ∈ db.credentials ∧ row.memberId = id ∧ room.reconnectMember now id row.active = .ok r

/-- In `first`, at `now₀`, the member with this row was given `bearer` and `reconnect`, and they
are its tokens in `t`, after a call in `s` at `now`. -/
structure Rotated (first s t : Store) (now₀ now : Time) (roomId : RoomId) (row : CredentialRow)
    (bearer reconnect : Token) : Prop where
  /-- Nobody carried the new bearer before. -/
  fresh : ∀ past, system.Reachable System.Free past → system.Run System.Free past first →
    ∀ id, (id, (⟨bearer⟩ : TokenHash)) ∉ past.db.bearers
  /-- No other bearer the member carried in any state before is taken in any state after. -/
  retired : ∀ past, system.Reachable System.Free past → system.Run System.Free past s →
    ∀ hash, hash ≠ ⟨bearer⟩ → (row.memberId, hash) ∈ past.db.bearers →
    ∀ later, system.Run System.Free t later → ∀ now' only,
      later.db.credentialsFor now' hash.token only =
        .error (.authority 401 "member credential is invalid")
  /-- The new one is. -/
  accepted : ∀ now', ∃ db room,
    t.db.credentialsFor now' bearer (some roomId) = .ok (db, room, row.memberId)
  /-- The member may reconnect again. -/
  admitted : t.db.Admits now roomId row.memberId
  /-- Until its tokens are rotated again the member is let back with the new reconnect token
  and, for a while, with the one rotated out, and with no other. -/
  again : ∀ later, system.Run System.Free t later →
    (row.memberId, (⟨bearer⟩ : TokenHash)) ∈ later.db.bearers → ∀ now' presented commandId,
    (later.secretCommandResponse now' (.reconnect roomId ⟨presented⟩) commandId).1 = .ok none →
    ((∃ view bearer' reconnect', (later.reconnect now' roomId presented commandId).1 =
          .ok (.secret view bearer' reconnect') ∧ view.localMemberId = row.memberId) ↔
      (presented = reconnect ∨
        (⟨presented⟩ = row.reconnectHash ∧ now' < now₀ + reconnectSeconds)) ∧
      later.db.Admits now' roomId row.memberId)

/-! ## The call, taken apart -/

section Call

variable {s t : Store} {now : Time} {roomId : RoomId} {token : Token} {commandId : CommandId}
  {response : Response} {row : CredentialRow} {db db' : Database} {room : Room}

/-- A room that is open after its load is the one the table holds, and it was not due. -/
theorem load_open (h : db.load now roomId = .ok (db', room)) (isOpen : room.isOpen = true) :
    db' = db ∧ db.room? roomId = some room ∧ room.expiryDue now = some false := by
  obtain ⟨hfound, hdue, rfl⟩ | ⟨found, -, -, rfl, -⟩ := load_cases h
  · exact ⟨rfl, hfound, hdue⟩
  · simp [Room.isOpen, Database.record, Database.event] at isOpen

theorem load_of_not_due (hroom : db.room? roomId = some room)
    (hdue : room.expiryDue now = some false) : db.load now roomId = .ok (db, room) := by
  simp only [Database.load, bind_eq_ok, orRaise_eq_ok, hroom]
  exact ⟨room, rfl, false, hdue, by simp⟩

/-- A load keeps who is in the room. -/
theorem load_members (h : db.load now roomId = .ok (db', room)) :
    ∃ found, db.room? roomId = some found ∧ room.members = found.members := by
  obtain ⟨hfound, -, -⟩ | ⟨found, hfound, -, rfl, -⟩ := load_cases h
  · exact ⟨room, hfound, rfl⟩
  · exact ⟨found, hfound, rfl⟩

theorem reconnectRow?_spec {hash : TokenHash} (h : db.reconnectRow? now roomId hash = some row) :
    row ∈ db.credentials ∧ row.roomId = roomId ∧ hash ∈ row.reconnects ∧
      (row.reconnectHash = hash ∨
        row.previousReconnectHash = some hash ∧
          row.previousReconnectUntil.any (now < ·) = true) := by
  have hfound := List.find?_some h
  simp only [Bool.and_eq_true, Bool.or_eq_true, decide_eq_true_eq] at hfound
  refine ⟨List.mem_of_find?_eq_some h, hfound.1, ?_, hfound.2⟩
  rcases hfound.2 with hcurrent | ⟨hprevious, -⟩
  · exact hcurrent ▸ List.mem_cons_self
  · exact List.mem_cons_of_mem _ (Option.mem_toList.mpr hprevious)

/-- The row as a reconnect leaves it. -/
def CredentialRow.rotated (row : CredentialRow) (now : Time) (token reconnect : Token) :
    CredentialRow :=
  { row with
    tokenHash := ⟨token⟩, reconnectHash := ⟨reconnect⟩
    previousReconnectHash := some row.reconnectHash
    previousReconnectUntil := some (now + reconnectSeconds) }

theorem rotated_until {now' : Time} {reconnect : Token} :
    (row.rotated now token reconnect).previousReconnectUntil.any (now' < ·) = true ↔
      now' < now + reconnectSeconds := by
  rw [show (row.rotated now token reconnect).previousReconnectUntil =
    some (now + reconnectSeconds) from rfl, Option.any_some, decide_eq_true_iff]

theorem Database.reconnect_ok {supply : Nat} {result : RoomView × Token × Token}
    (h : db.reconnect now supply roomId token = .ok (result, db')) :
    ∃ row room r, db.reconnectRow? now roomId ⟨token⟩ = some row ∧
      db.room? roomId = some room ∧ room.expiryDue now = some false ∧
      room.reconnectMember now row.memberId row.active = .ok r ∧
      db' = (db.rotate now roomId row (supply + 3) (supply + 4)).commit now r "member.reconnected"
        (some row.memberId) .empty ∧
      result.1.localMemberId = row.memberId ∧ result.2 = (supply + 3, supply + 4) := by
  simp only [Database.reconnect, bind_eq_ok, orRaise_eq_ok, pure_eq_ok, Prod.mk.injEq] at h
  obtain ⟨row, hrow, ⟨db₁, room⟩, hload, r, hwritten, rfl, rfl⟩ := h
  obtain ⟨m, -, isOpen, -⟩ := reconnectMember_ok hwritten
  obtain ⟨rfl, hroom, hdue⟩ := load_open hload isOpen
  exact ⟨row, room, r, hrow, hroom, hdue, hwritten, rfl, rfl, rfl⟩

/-- The token finds the row of a member whom the room lets back. -/
theorem Database.reconnect_of_admitted {supply : Nat} {r : Room}
    (hrow : db.reconnectRow? now roomId ⟨token⟩ = some row) (hroom : db.room? roomId = some room)
    (hdue : room.expiryDue now = some false)
    (hback : room.reconnectMember now row.memberId row.active = .ok r) :
    ∃ result db', db.reconnect now supply roomId token = .ok (result, db') ∧
      result.1.localMemberId = row.memberId := by
  refine ⟨((r.sealed (db.eventSequence + 1)).public row.memberId, supply + 3, supply + 4),
    (db.rotate now roomId row (supply + 3) (supply + 4)).commit now r "member.reconnected"
      (some row.memberId) .empty, ?_, rfl⟩
  simp only [Database.reconnect, bind_eq_ok, orRaise_eq_ok, pure_eq_ok, Prod.mk.injEq]
  exact ⟨row, hrow, (db, room), load_of_not_due hroom hdue, r, hback, ⟨rfl, trivial⟩, rfl⟩

/-- A reconnect raises an `AuthorityError`, unless the row found is that of a member its room
no longer lists. -/
theorem Database.reconnect_error {supply : Nat} {e : Exn} (hwaits : ∀ room ∈ db.rooms, room.Waits)
    (h : db.reconnect now supply roomId token = .error e) :
    e.isAuthority ∨ ∃ row room, db.reconnectRow? now roomId ⟨token⟩ = some row ∧
      db.room? roomId = some room ∧ room.member? row.memberId = none := by
  simp only [Database.reconnect, bind_eq_error, orRaise_eq_ok, orRaise_eq_error, pure_eq_error,
    and_false, exists_false, or_false] at h
  rcases h with ⟨-, rfl⟩ | ⟨row, hrow, hload | ⟨⟨db₁, room⟩, hload, hmember⟩⟩
  · exact .inl ⟨_, _, rfl⟩
  · exact .inl (load_error hwaits hload)
  · simp only [Room.reconnectMember, bind_eq_error, orRaise_eq_ok, orRaise_eq_error,
      raiseIf_eq_error, pure_eq_error, and_false, exists_false, or_false] at hmember
    rcases hmember with ⟨hnone, -⟩ | ⟨m, -, ⟨-, rfl⟩ | ⟨-, -, ⟨-, rfl⟩ | ⟨-, -, -, rfl⟩⟩⟩
    · obtain ⟨found, hfound, hmembers⟩ := load_members hload
      refine .inr ⟨row, found, hrow, hfound, ?_⟩
      rw [Room.member?, ← hmembers]
      exact hnone
    · exact .inl ⟨_, _, rfl⟩
    · exact .inl ⟨_, _, rfl⟩
    · exact .inl ⟨_, _, rfl⟩

/-! ## The member after it -/

/-- A secret command that finds no answer is carried out. -/
theorem secretCommand_carried {scope : Scope}
    {body : Database → Except Exn ((RoomView × Token × Token) × Database)}
    (h : (s.secretCommandResponse now scope commandId).1 = .ok none) :
    (∀ e, body s.db = .error e → (s.secretCommand now scope commandId body).1 = .error e ∧
      (s.secretCommand now scope commandId body).2.db = s.db) ∧
    ∀ result db', body s.db = .ok (result, db') →
      (s.secretCommand now scope commandId body).1 = .ok (.secret result.1 result.2.1 result.2.2) ∧
      (s.secretCommand now scope commandId body).2.db =
        db'.remember now scope commandId (.completed result.1.roomId) ∧
      (s.secretCommand now scope commandId body).2.supply = s.supply + drawsPerCall := by
  unfold Store.secretCommand
  simp only [h]
  constructor
  · intro e herror
    simp only [herror, and_self]
  · intro result db' hok
    simp only [hok, and_self]

/-- What `t` has of `s` after the member with this row reconnected. -/
structure Handover (s t : Store) (now : Time) (roomId : RoomId) (row : CredentialRow) : Prop where
  before : system.Reachable System.Free s
  after : system.Reachable System.Free t
  supply : t.supply = s.supply + drawsPerCall
  known : row ∈ s.db.credentials
  own : row.roomId = roomId
  active : row.active = true
  rows : ∀ r, r ∈ t.db.credentials ↔ r = row.rotated now (s.supply + 3) (s.supply + 4) ∨
    (r ∈ s.db.credentials ∧ r.memberId ≠ row.memberId)
  back : ∃ room, t.db.room? roomId = some room ∧ room.isOpen = true ∧
    room.expiryDue now = some false ∧
    ∃ m, room.member? row.memberId = some m ∧ m.onlineState = .online ∧ m.reconnectDeadline = none

/-- Two rows of one member are one row. -/
theorem Store.Housed.unique {full : Prop} (h : s.Housed full) {r r' : CredentialRow}
    (hr : r ∈ s.db.credentials) (hr' : r' ∈ s.db.credentials) (same : r.memberId = r'.memberId) :
    r = r' :=
  List.inj_on_of_nodup_map (Database.owners_members ▸ h.housed.rows) hr hr' same

theorem reachable_rows (h : system.Reachable System.Free s) {r r' : CredentialRow}
    (hr : r ∈ s.db.credentials) (hr' : r' ∈ s.db.credentials) (same : r.memberId = r'.memberId) :
    r = r' := by
  have hhoused : s.Housed False := reachable_housed (fun h => h.elim) h
  exact hhoused.unique hr hr' same

theorem mem_rotate {supply : Nat} {r : CredentialRow} (known : row ∈ db.credentials)
    (own : row.roomId = roomId)
    (unique : ∀ r ∈ db.credentials, r.memberId = row.memberId → r = row) :
    r ∈ (db.rotate now roomId row (supply + 3) (supply + 4)).credentials ↔
      r = row.rotated now (supply + 3) (supply + 4) ∨
        (r ∈ db.credentials ∧ r.memberId ≠ row.memberId) := by
  simp only [Database.rotate, List.mem_map]
  constructor
  · rintro ⟨r, hr, rfl⟩
    by_cases hit : r.memberId = row.memberId
    · obtain rfl := unique r hr hit
      exact .inl (if_pos ⟨rfl, own⟩)
    · rw [if_neg fun h => hit h.1]
      exact .inr ⟨hr, hit⟩
  · rintro (rfl | ⟨hr, other⟩)
    · exact ⟨row, known, if_pos ⟨rfl, own⟩⟩
    · exact ⟨r, hr, if_neg fun h => other h.1⟩

/-- The document a commit leaves under its id. -/
theorem commit_room? {r : Room} {event : String} {actor : Option MemberId} {data : EventData}
    (h : db.room? roomId = some room) (hid : r.roomId = roomId) :
    (db.commit now r event actor data).room? roomId = some (r.sealed (db.eventSequence + 1)) := by
  have hfound : room.roomId = roomId := (Database.room?_mem h).2
  have hkept : ∀ old : Room, (if old.roomId = r.roomId then r.sealed (db.eventSequence + 1)
      else old).roomId = old.roomId := by
    intro old
    split
    · rename_i heq
      exact heq.symm
    · rfl
  show (db.rooms.map fun old =>
    if old.roomId = r.roomId then r.sealed (db.eventSequence + 1) else old).find? _ = _
  rw [List.find?_map]
  have hsame : ((fun old : Room => decide (old.roomId = roomId)) ∘ fun old : Room =>
      if old.roomId = r.roomId then r.sealed (db.eventSequence + 1) else old) =
        fun old => decide (old.roomId = roomId) := by
    funext old
    exact congrArg (fun id => decide (id = roomId)) (hkept old)
  rw [hsame, show db.rooms.find? _ = some room from h, Option.map_some,
    if_pos (hfound.trans hid.symm)]

theorem modifyMember_member? {f : Member → Member} {m : Member} {id : MemberId}
    (hf : (f m).memberId = m.memberId) (h : room.member? id = some m) :
    (room.modifyMember id f).member? id = some (f m) := by
  have hmember : m.memberId = id := by simpa using List.find?_some h
  obtain ⟨before, after, hsplit, hbefore⟩ := (List.find?_eq_some_iff_append.mp h).2
  have hother : ∀ old ∈ before, old.memberId ≠ id := fun old hold => by simpa using hbefore old hold
  have hsame : before.map (fun old => if old.memberId = id then f old else old) = before := by
    refine (List.map_congr_left fun old hold => ?_).trans (List.map_id _)
    exact if_neg (hother old hold)
  rw [Room.member?, Room.modifyMember]
  simp only [hsplit, List.map_append, List.map_cons, hsame, if_pos hmember]
  refine List.find?_eq_some_iff_append.mpr ⟨?_, before, _, rfl, fun old hold => ?_⟩
  · simpa using hf.trans hmember
  · simpa using hother old hold

theorem reconnect_handover (hs : system.Reachable System.Free s)
    (unanswered : (s.secretCommandResponse now (.reconnect roomId ⟨token⟩) commandId).1 = .ok none)
    (answered : (s.reconnect now roomId token commandId).1 = .ok response) :
    ∃ row view, response = .secret view (s.supply + 3) (s.supply + 4) ∧
      view.localMemberId = row.memberId ∧
      s.db.reconnectRow? now roomId ⟨token⟩ = some row ∧
      s.db.Admits now roomId row.memberId ∧
      Handover s (s.reconnect now roomId token commandId).2 now roomId row := by
  obtain ⟨hraised, hdone⟩ := @secretCommand_carried s now commandId (.reconnect roomId ⟨token⟩)
    (fun db => db.reconnect now s.supply roomId token) unanswered
  cases hcall : s.db.reconnect now s.supply roomId token with
  | error e =>
    have herror : (s.reconnect now roomId token commandId).1 = .error e := (hraised e hcall).1
    rw [herror] at answered
    cases answered
  | ok done =>
    obtain ⟨result, db'⟩ := done
    obtain ⟨hresponse, hdb, hsupply⟩ := hdone result db' hcall
    obtain ⟨row, room, r, hrow, hroom, hdue, hback, rfl, hlocal, htokens⟩ :=
      Database.reconnect_ok hcall
    obtain ⟨hknown, hown, -, -⟩ := reconnectRow?_spec hrow
    have hadmits : s.db.Admits now roomId row.memberId :=
      ⟨room, row, r, hroom, hdue, hknown, rfl, hback⟩
    obtain ⟨m, hm, isOpen, -, -, hactive, rfl⟩ := reconnectMember_ok hback
    refine ⟨row, result.1, ?_, hlocal, hrow, hadmits, ?_⟩
    · have hanswer := answered.symm.trans hresponse
      rw [htokens] at hanswer
      exact Except.ok.inj hanswer
    have hid : (room.modifyMember row.memberId (Member.seen now)).roomId = roomId :=
      (Database.room?_mem hroom).2
    refine ⟨hs, hs.step (i := .reconnect now roomId token commandId) trivial rfl, hsupply, hknown,
      hown, hactive, fun cred => ?_, ?_⟩
    · have hrows : (s.reconnect now roomId token commandId).2.db.credentials =
          (s.db.rotate now roomId row (s.supply + 3) (s.supply + 4)).credentials :=
        congrArg (·.credentials) hdb
      rw [hrows]
      exact mem_rotate hknown hown fun other hother same => reachable_rows hs hother hknown same
    · have hrooms : (s.reconnect now roomId token commandId).2.db.room? roomId =
          some ((room.modifyMember row.memberId (Member.seen now)).sealed
            (s.db.eventSequence + 1)) := by
        have hcommit := @commit_room? now roomId
          (s.db.rotate now roomId row (s.supply + 3) (s.supply + 4)) room
          (room.modifyMember row.memberId (Member.seen now)) "member.reconnected"
          (some row.memberId) .empty hroom hid
        exact (congrArg (·.room? roomId) hdb).trans hcommit
      exact ⟨_, hrooms, isOpen, hdue, m.seen now, modifyMember_member? rfl hm, rfl, rfl⟩

theorem Handover.fresh (h : Handover s t now roomId row) :
    row.rotated now (s.supply + 3) (s.supply + 4) ∈ t.db.credentials :=
  (h.rows _).mpr (.inl rfl)

/-- Old bearers are smaller than the supply, so none of them is the new one. -/
theorem Handover.old_ne (h : Handover s t now roomId row) {r : CredentialRow}
    (hr : r ∈ s.db.credentials) : r.tokenHash ≠ ⟨s.supply + 3⟩ := by
  intro heq
  have hlt : r.tokenHash.token < s.supply :=
    (reachable_tokens h.before).drawn (r.memberId, r.tokenHash) (List.mem_map_of_mem hr)
  rw [heq] at hlt
  exact absurd hlt (Nat.not_lt.mpr (Nat.le_add_right _ _))

/-- Once a member carries a bearer, nobody carries another one of the member's past any more. -/
theorem bearer_gone (ht : system.Reachable System.Free t) {id : MemberId} {hash mine : TokenHash}
    (current : (id, mine) ∈ t.db.bearers) (other : hash ≠ mine) {past later : Store}
    (hpast : system.Reachable System.Free past) (hrun : system.Run System.Free past t)
    (carried : (id, hash) ∈ past.db.bearers) (hlater : system.Run System.Free t later) :
    ∀ r ∈ later.db.credentials, r.tokenHash ≠ hash := by
  intro r hr heq
  have hpasttokens := reachable_tokens hpast
  have hdrawn : hash.token < past.supply := hpasttokens.drawn _ carried
  obtain ⟨hsupply, hback⟩ := run_rowsKept hpast hrun
  -- The row was there in `t`, and before, and belonged to the member, whose row is another one.
  obtain ⟨-, hkept⟩ := run_rowsKept ht hlater
  obtain ⟨r₁, hr₁, hsame₁⟩ := hkept r hr (heq ▸ hdrawn.trans_le hsupply)
  have hhash : r₁.tokenHash = hash := hsame₁.token.symm.trans heq
  obtain ⟨r₀, hr₀, hsame₀⟩ := hback r₁ hr₁ (hhash ▸ hdrawn)
  have hcarried : (r₁.memberId, hash) ∈ past.db.bearers :=
    List.mem_map.mpr ⟨r₀, hr₀, by rw [← hsame₀.member, ← hsame₀.token, hhash]⟩
  have hmember : r₁.memberId = id := hpasttokens.one _ hcarried _ carried rfl
  obtain ⟨r₂, hr₂, hpair⟩ := List.mem_map.mp current
  obtain ⟨hmember₂, hmine⟩ := Prod.mk.inj hpair
  obtain rfl := reachable_rows ht hr₁ hr₂ (hmember.trans hmember₂.symm)
  exact other (hhash.symm.trans hmine)

/-- A bearer that no row has is refused. -/
theorem credentialsFor_gone {hash : TokenHash} (hgone : ∀ r ∈ db.credentials, r.tokenHash ≠ hash)
    (now' : Time) (only : Option RoomId) :
    db.credentialsFor now' hash.token only =
      .error (.authority 401 "member credential is invalid") := by
  have hnone : db.credentials.find?
      (fun row => decide (row.tokenHash = hash) && row.active) = none := by
    refine List.find?_eq_none.mpr fun r hr hit => ?_
    simp only [Bool.and_eq_true, decide_eq_true_eq] at hit
    exact hgone r hr hit.1
  simp only [Database.credentialsFor, bind_eq_error, orRaise_eq_error]
  exact .inl ⟨hnone, trivial⟩

/-- The bearer of a member whom the room lets back is taken. -/
theorem bearer_accepted (ht : system.Reachable System.Free t) {r : CredentialRow} {bearer : Token}
    (known : r ∈ t.db.credentials) (carried : r.tokenHash = ⟨bearer⟩) (own : r.roomId = roomId)
    (admits : t.db.Admits now roomId r.memberId) (now' : Time) :
    ∃ db room, t.db.credentialsFor now' bearer (some roomId) = .ok (db, room, r.memberId) := by
  obtain ⟨room, row, _, hroom, -, hrow, hmember, hback⟩ := admits
  obtain rfl := reachable_rows ht hrow known hmember
  obtain ⟨-, -, -, -, -, hactive, -⟩ := reconnectMember_ok hback
  have hsome : (t.db.credentials.find?
      (fun r => decide (r.tokenHash = ⟨bearer⟩) && r.active)).isSome = true := by
    refine List.find?_isSome.mpr ⟨row, hrow, ?_⟩
    simp [carried, hactive]
  obtain ⟨found, hfound⟩ := Option.isSome_iff_exists.mp hsome
  -- Only this row carries the bearer.
  have htoken : found.tokenHash = ⟨bearer⟩ ∧ found.active = true := by
    simpa using List.find?_some hfound
  have hmem := List.mem_of_find?_eq_some hfound
  have hone : found.memberId = row.memberId :=
    (reachable_tokens ht).one (found.memberId, found.tokenHash) (List.mem_map_of_mem hmem)
      (row.memberId, row.tokenHash) (List.mem_map_of_mem hrow) (htoken.1.trans carried.symm)
  obtain rfl := reachable_rows ht hmem hrow hone
  cases hload : t.db.load now' roomId with
  | error e =>
    simp only [Database.load, bind_eq_error, orRaise_eq_ok, orRaise_eq_error, hroom] at hload
    rcases hload with ⟨hnone, -⟩ | ⟨found, hfound, ⟨hnone, -⟩ | ⟨due, -, hload⟩⟩
    · cases hnone
    · cases hfound
      have hwaits := reachable_waits ht room (Database.room?_mem hroom).1
      exact absurd hnone (hwaits.due now')
    · cases due <;> simp [pure, Except.pure] at hload
  | ok loaded =>
    refine ⟨loaded.1, loaded.2, ?_⟩
    simp only [Database.credentialsFor, bind_eq_ok, orRaise_eq_ok, raiseIf_eq_ok, pure_eq_ok,
      Prod.mk.injEq]
    refine ⟨found, hfound, (), ?_, loaded, own ▸ hload, rfl, rfl, rfl⟩
    simp [own]

theorem Handover.admitted (h : Handover s t now roomId row) :
    ∃ room, t.db.room? roomId = some room ∧
      ∀ now', room.expiryDue now' = some false → t.db.Admits now' roomId row.memberId := by
  obtain ⟨room, hroom, isOpen, -, m, hm, honline, hdeadline⟩ := h.back
  refine ⟨room, hroom, fun now' hdue => ?_⟩
  refine ⟨room, _, room.modifyMember row.memberId (Member.seen now'), hroom, hdue, h.fresh, rfl, ?_⟩
  simp only [Room.reconnectMember, bind_eq_ok, orRaise_eq_ok, raiseIf_eq_ok, pure_eq_ok]
  refine ⟨m, hm, (), ?_, (), ?_, (), ?_, rfl⟩
  · simp [isOpen, honline]
  · simp [honline, hdeadline]
  · simp [CredentialRow.rotated, h.active]

/-- Right after the call the member may reconnect again. -/
theorem Handover.admitted_now (h : Handover s t now roomId row) :
    t.db.Admits now roomId row.memberId := by
  obtain ⟨room, hroom, hadmits⟩ := h.admitted
  obtain ⟨room', hroom', -, hdue, -⟩ := h.back
  obtain rfl := Option.some.inj (hroom.symm.trans hroom')
  exact hadmits now hdue

theorem Handover.carried (h : Handover s t now roomId row) :
    (row.memberId, (⟨s.supply + 3⟩ : TokenHash)) ∈ t.db.bearers :=
  List.mem_map.mpr ⟨_, h.fresh, rfl⟩

/-- Until the next rotation the member's row is the one the call left. -/
theorem Handover.left_row (h : Handover s t now roomId row) {later : Store}
    (hlater : system.Run System.Free t later)
    (carried : (row.memberId, (⟨s.supply + 3⟩ : TokenHash)) ∈ later.db.bearers) :
    ∃ r ∈ later.db.credentials, r.Same (row.rotated now (s.supply + 3) (s.supply + 4)) := by
  obtain ⟨r, hr, heq⟩ := List.mem_map.mp carried
  obtain ⟨-, htoken⟩ := Prod.mk.inj heq
  obtain ⟨-, hkept⟩ := run_rowsKept h.after hlater
  have hlt : r.tokenHash.token < t.supply := by
    rw [htoken, h.supply]
    exact Nat.add_lt_add_left (by decide) _
  obtain ⟨old, hold, hsame⟩ := hkept r hr hlt
  rcases (h.rows old).mp hold with rfl | ⟨hold, -⟩
  · exact ⟨r, hr, hsame⟩
  · exact absurd (hsame.token.symm.trans htoken) (h.old_ne hold)

theorem Handover.again (h : Handover s t now roomId row) {later : Store}
    (hlater : system.Run System.Free t later)
    (carried : (row.memberId, (⟨s.supply + 3⟩ : TokenHash)) ∈ later.db.bearers) {now' : Time}
    {presented : Token}
    (unanswered :
      (later.secretCommandResponse now' (.reconnect roomId ⟨presented⟩) commandId).1 = .ok none) :
    (∃ view token' reconnect', (later.reconnect now' roomId presented commandId).1 =
        .ok (.secret view token' reconnect') ∧ view.localMemberId = row.memberId) ↔
      (presented = s.supply + 4 ∨
        (⟨presented⟩ = row.reconnectHash ∧ now' < now + reconnectSeconds)) ∧
      later.db.Admits now' roomId row.memberId := by
  have hreach : system.Reachable System.Free later := h.after.run hlater
  obtain ⟨r, hr, hsame⟩ := h.left_row hlater carried
  constructor
  · rintro ⟨view, token', reconnect', answered, hlocal⟩
    obtain ⟨row', view', hresponse, hlocal', hrow', hadmits, -⟩ :=
      reconnect_handover hreach unanswered answered
    obtain ⟨rfl, -⟩ := Response.secret.inj hresponse
    have hmember : row'.memberId = row.memberId := hlocal'.symm.trans hlocal
    obtain ⟨hmem, -, -, hmatch⟩ := reconnectRow?_spec hrow'
    obtain rfl := reachable_rows hreach hmem hr (hmember.trans hsame.member.symm)
    refine ⟨?_, hmember ▸ hadmits⟩
    rcases hmatch with hcurrent | ⟨hprevious, huntil⟩
    · have hnew : (⟨s.supply + 4⟩ : TokenHash) = ⟨presented⟩ := hsame.current.symm.trans hcurrent
      exact .inl (TokenHash.mk.inj hnew).symm
    · have hold : some row.reconnectHash = some ⟨presented⟩ := hsame.previous.symm.trans hprevious
      rw [hsame.until_] at huntil
      exact .inr ⟨(Option.some.inj hold).symm, rotated_until.mp huntil⟩
  · rintro ⟨hpresented, room, row₁, r₁, hroom, hdue, hmem₁, hmember₁, hback⟩
    obtain rfl := reachable_rows hreach hmem₁ hr (hmember₁.trans hsame.member.symm)
    -- The token names this row, and no other: reconnect tokens are one member's.
    have hmatch : row₁.reconnectHash = ⟨presented⟩ ∨ row₁.previousReconnectHash = some ⟨presented⟩ ∧
        row₁.previousReconnectUntil.any (now' < ·) = true := by
      rcases hpresented with rfl | ⟨hold, hsoon⟩
      · exact .inl hsame.current
      · refine .inr ⟨hsame.previous.trans (congrArg some hold.symm), ?_⟩
        rw [hsame.until_]
        exact rotated_until.mpr hsoon
    have hnamed : (⟨presented⟩ : TokenHash) ∈ row₁.reconnects := by
      rcases hmatch with hcurrent | ⟨hprevious, -⟩
      · exact hcurrent ▸ List.mem_cons_self
      · exact List.mem_cons_of_mem _ (Option.mem_toList.mpr hprevious)
    have hsome : (later.db.reconnectRow? now' roomId ⟨presented⟩).isSome = true := by
      refine List.find?_isSome.mpr ⟨row₁, hr, ?_⟩
      have hplace : row₁.roomId = roomId := hsame.room.trans h.own
      simpa [hplace] using hmatch
    obtain ⟨found, hfound⟩ := Option.isSome_iff_exists.mp hsome
    obtain ⟨hmem, -, hnamed', -⟩ := reconnectRow?_spec hfound
    have hone : found.memberId = row₁.memberId :=
      (reachable_reconnects hreach).one (found.memberId, ⟨presented⟩)
        (Database.mem_reconnects.mpr ⟨found, hmem, rfl, hnamed'⟩) (row₁.memberId, ⟨presented⟩)
        (Database.mem_reconnects.mpr ⟨row₁, hr, rfl, hnamed⟩) rfl
    obtain rfl := reachable_rows hreach hmem hr hone
    have hadmitted : room.reconnectMember now' found.memberId found.active = .ok r₁ := by
      rw [hmember₁]
      exact hback
    obtain ⟨result, db', hcall, hlocal⟩ :=
      @Database.reconnect_of_admitted now' roomId presented found later.db room later.supply r₁
        hfound hroom hdue hadmitted
    obtain ⟨-, hdone⟩ := @secretCommand_carried later now' commandId
      (.reconnect roomId ⟨presented⟩) (fun db => db.reconnect now' later.supply roomId presented)
      unanswered
    exact ⟨result.1, result.2.1, result.2.2, (hdone result db' hcall).1, hlocal.trans hmember₁⟩

/-- The tokens of a rotation stand in every later state in which the member still carries the
new bearer and may reconnect. -/
theorem Handover.rotated {first s' t' : Store} {now₀ : Time}
    (h : Handover first t now₀ roomId row) (hrun : system.Run System.Free t t')
    (hcall : system.Run System.Free s' t')
    (carried : (row.memberId, (⟨first.supply + 3⟩ : TokenHash)) ∈ t'.db.bearers)
    (admits : t'.db.Admits now roomId row.memberId) :
    Rotated first s' t' now₀ now roomId row (first.supply + 3) (first.supply + 4) where
  fresh past hpast hbefore id hold := by
    have hdrawn : first.supply + 3 < past.supply := (reachable_tokens hpast).drawn _ hold
    have hsupply : past.supply ≤ first.supply := (run_rowsKept hpast hbefore).1
    omega
  retired past hpast hbefore hash hother hold later hlater now' only :=
    credentialsFor_gone (bearer_gone (h.after.run hrun) carried hother hpast
      (hbefore.trans hcall) hold hlater) now' only
  accepted now' := by
    obtain ⟨r, hr, hsame⟩ := h.left_row hrun carried
    have hmember : r.memberId = row.memberId := hsame.member
    rw [← hmember] at admits ⊢
    exact bearer_accepted (h.after.run hrun) hr hsame.token (hsame.room.trans h.own) admits now'
  admitted := admits
  again _ hlater hcarried _ _ _ unanswered := h.again (hrun.trans hlater) hcarried unanswered

end Call

/-! ## Answers from the cache -/

/-- The call is carried out in `s` and answered with the response. -/
structure CarriedOut (s : Store) (now : Time) (roomId : RoomId) (token : Token)
    (commandId : CommandId) (response : Response) : Prop where
  unanswered : (s.secretCommandResponse now (.reconnect roomId ⟨token⟩) commandId).1 = .ok none
  answered : (s.reconnect now roomId token commandId).1 = .ok response

/-- The response was given to this call when it was carried out, earlier in the run. -/
def AnsweredBefore (s : Store) (roomId : RoomId) (token : Token) (commandId : CommandId)
    (response : Response) : Prop :=
  ∃ first now, system.Reachable System.Free first ∧
    CarriedOut first now roomId token commandId response ∧
    system.Run System.Free (first.reconnect now roomId token commandId).2 s

/-- After a call the cached responses of `reconnect` are old ones or its own. -/
theorem step_cache {s : Store} {op : Op} {e : (Scope × CommandId) × Time × Response}
    (h : e ∈ (s.step op).ephemeral) {roomId : RoomId} {hash : TokenHash} {commandId : CommandId}
    (hkey : e.1 = (.reconnect roomId hash, commandId)) :
    e ∈ s.ephemeral ∨ ∃ now, op = .reconnect now roomId hash.token commandId ∧
      CarriedOut s now roomId hash.token commandId e.2.2 := by
  cases op with
  | create | join | joinPublic =>
    refine (secretCommand_cache h).imp_right ?_
    rintro ⟨hown, -⟩
    rw [hkey] at hown
    cases hown
  | reconnect now roomId' token commandId' =>
    refine (secretCommand_cache h).imp_right ?_
    rintro ⟨hown, hnone, hresponse⟩
    rw [hkey] at hown
    cases hown
    exact ⟨now, rfl, hnone, hresponse⟩
  | expire | mutate | beginDClosing | acknowledgeDQuiescent | failTransportAttempt | forceDBarrier
  | sweepPresence => exact .inl (transaction_ephemeral ▸ h)
  | failActiveAttempts now code => exact .inl (failActiveAttempts_ephemeral s now code ▸ h)
  | restart now =>
    have hempty := failActiveAttempts_ephemeral { s with ephemeral := [] } now "relay.restart"
    exact (List.not_mem_nil (hempty ▸ h)).elim

theorem reachable_cache {s : Store} (h : system.Reachable System.Free s) :
    ∀ e ∈ s.ephemeral, ∀ roomId hash commandId, e.1 = (.reconnect roomId hash, commandId) →
      AnsweredBefore s roomId hash.token commandId e.2.2 := by
  have hinv : system.Reachable System.Free s ∧ ∀ e ∈ s.ephemeral, ∀ roomId hash commandId,
      e.1 = (.reconnect roomId hash, commandId) →
        AnsweredBefore s roomId hash.token commandId e.2.2 := by
    refine h.invariant (P := fun s => system.Reachable System.Free s ∧ ∀ e ∈ s.ephemeral,
      ∀ roomId hash commandId, e.1 = (.reconnect roomId hash, commandId) →
        AnsweredBefore s roomId hash.token commandId e.2.2)
      (fun s hs => ⟨.init hs, ?_⟩) fun s op t hs _ ht => ?_
    · subst hs
      exact fun e he => (List.not_mem_nil he).elim
    · obtain ⟨hreach, hs⟩ := hs
      subst ht
      refine ⟨hreach.step (i := op) trivial rfl, fun e he roomId hash commandId hkey => ?_⟩
      rcases step_cache he hkey with hold | ⟨now, rfl, hcarried⟩
      · obtain ⟨first, now, hfirst, hcarried, hrun⟩ := hs e hold roomId hash commandId hkey
        exact ⟨first, now, hfirst, hcarried, hrun.tail ⟨op, trivial, rfl⟩⟩
      · exact ⟨s, now, hreach, hcarried, .refl⟩
  exact hinv.2

/-! ## Reconnect is total -/

/-- What a call of `reconnect` may do. It raises an `AuthorityError` and leaves the database
as it was; or its response is that of a call carried out in the run, this one or an earlier
one that it only repeats, that call rotated the credentials of one member, and the tokens in
the response are that member's after this call. -/
def ReconnectSound (s : Store) (now : Time) (roomId : RoomId) (token : Token)
    (commandId : CommandId) : Prop :=
  match (s.reconnect now roomId token commandId).1 with
  | .error e => e.isAuthority ∧ (s.reconnect now roomId token commandId).2.db = s.db
  | .ok response => ∃ first now₀, system.Reachable System.Free first ∧
      CarriedOut first now₀ roomId token commandId response ∧
      ∃ row ∈ first.db.credentials, ∃ view bearer reconnect,
        response = .secret view bearer reconnect ∧ view.localMemberId = row.memberId ∧
        Rotated first s (s.reconnect now roomId token commandId).2 now₀ now roomId row bearer
          reconnect ∧
        (first = s ∧ now₀ = now ∧
            (∃ room, (s.reconnect now roomId token commandId).2.db.room? roomId = some room ∧
              ∀ now', room.expiryDue now' = some false →
                (s.reconnect now roomId token commandId).2.db.Admits now' roomId row.memberId) ∨
          system.Run System.Free (first.reconnect now₀ roomId token commandId).2 s ∧
            (s.reconnect now roomId token commandId).2.db = s.db)

/-- If the call is carried out, the row its token finds is that of a member whom the room
still lists. -/
def FindsMember (s : Store) (now : Time) (roomId : RoomId) (token : Token)
    (commandId : CommandId) : Prop :=
  (s.secretCommandResponse now (.reconnect roomId ⟨token⟩) commandId).1 = .ok none →
    ∀ row, s.db.reconnectRow? now roomId ⟨token⟩ = some row →
      ∀ room, s.db.room? roomId = some room → room.member? row.memberId ≠ none

/-- If the call is answered from the cache, the member still carries the bearer of that answer
and may reconnect. -/
def AnswerStands (s : Store) (now : Time) (roomId : RoomId) (token : Token)
    (commandId : CommandId) : Prop :=
  ∀ view bearer reconnect,
    (s.secretCommandResponse now (.reconnect roomId ⟨token⟩) commandId).1 =
      .ok (some (.secret view bearer reconnect)) →
    (view.localMemberId, (⟨bearer⟩ : TokenHash)) ∈ s.db.bearers ∧
      s.db.Admits now roomId view.localMemberId

section Total

variable {s : Store} {now : Time} {roomId : RoomId} {token : Token} {commandId : CommandId}

/-- A call that is carried out for a member no longer listed ends with `StopIteration`. -/
theorem reconnect_of_dropped {row : CredentialRow} {room : Room}
    (unanswered : (s.secretCommandResponse now (.reconnect roomId ⟨token⟩) commandId).1 = .ok none)
    (hwaits : ∀ room ∈ s.db.rooms, room.Waits)
    (hrow : s.db.reconnectRow? now roomId ⟨token⟩ = some row)
    (hroom : s.db.room? roomId = some room) (dropped : room.member? row.memberId = none) :
    (s.reconnect now roomId token commandId).1 = .error .stopIteration := by
  have hcall : s.db.reconnect now s.supply roomId token = .error .stopIteration := by
    simp only [Database.reconnect, bind_eq_error, orRaise_eq_ok]
    refine .inr ⟨row, hrow, ?_⟩
    cases hload : s.db.load now roomId with
    | error e =>
      simp only [Database.load, bind_eq_error, orRaise_eq_ok, orRaise_eq_error, hroom] at hload
      rcases hload with ⟨hnone, -⟩ | ⟨found, hfound, ⟨hnone, -⟩ | ⟨due, -, hload⟩⟩
      · cases hnone
      · cases hfound
        exact absurd hnone ((hwaits room (Database.room?_mem hroom).1).due now)
      · cases due <;> simp [pure, Except.pure] at hload
    | ok loaded =>
      obtain ⟨found, hfound, hmembers⟩ := load_members hload
      obtain rfl := Option.some.inj (hroom.symm.trans hfound)
      have hnone : loaded.2.member? row.memberId = none := by
        rw [Room.member?, hmembers]
        exact dropped
      refine .inr ⟨loaded, rfl, .inl ?_⟩
      simp only [Room.reconnectMember, bind_eq_error, orRaise_eq_error]
      exact .inl ⟨hnone, trivial⟩
  have hcarried := @secretCommand_carried s now commandId (.reconnect roomId ⟨token⟩)
    (fun db => db.reconnect now s.supply roomId token) unanswered
  exact (hcarried.1 _ hcall).1

/-- A call that finds its answer in the cache repeats it and changes nothing. -/
theorem reconnect_of_cached {response : Response}
    (cached : (s.secretCommandResponse now (.reconnect roomId ⟨token⟩) commandId).1 =
      .ok (some response)) :
    (s.reconnect now roomId token commandId).1 = .ok response ∧
      (s.reconnect now roomId token commandId).2.db = s.db := by
  unfold Store.reconnect Store.secretCommand
  simp only [cached, and_self]

/-- The tokens of a sound answer from the cache are the member's. -/
theorem ReconnectSound.answerStands (h : ReconnectSound s now roomId token commandId) :
    AnswerStands s now roomId token commandId := by
  intro view bearer reconnect hcached
  obtain ⟨hresponse, hdb⟩ := reconnect_of_cached hcached
  unfold ReconnectSound at h
  rw [hresponse] at h
  obtain ⟨first, now₀, -, -, row, -, view', bearer', reconnect', heq, hlocal, hrotated, -⟩ := h
  obtain ⟨rfl, rfl, rfl⟩ := Response.secret.inj heq
  obtain ⟨db, room, haccepted⟩ := hrotated.accepted now
  have hadmitted := hrotated.admitted
  rw [hdb] at haccepted hadmitted
  rw [hlocal]
  exact ⟨(credentialsFor_ok haccepted).1, hadmitted⟩

/-- In every reachable state a call of `reconnect` raises an `AuthorityError` and changes
nothing, or answers with tokens that replaced those of one member and are the member's now,
exactly when it does not come upon the row of a member who was dropped from the room and does
not repeat an answer that no longer stands. -/
theorem reconnect_total (hs : system.Reachable System.Free s) :
    ReconnectSound s now roomId token commandId ↔
      FindsMember s now roomId token commandId ∧ AnswerStands s now roomId token commandId := by
  have hwaits := reachable_waits hs
  have hcalled : system.Run System.Free s (s.reconnect now roomId token commandId).2 :=
    System.Run.step (i := .reconnect now roomId token commandId) trivial rfl
  constructor
  · intro hsound
    refine ⟨fun unanswered row hrow room hroom dropped => ?_, hsound.answerStands⟩
    have herror := reconnect_of_dropped unanswered hwaits hrow hroom dropped
    unfold ReconnectSound at hsound
    rw [herror] at hsound
    obtain ⟨⟨status, detail, heq⟩, -⟩ := hsound
    cases heq
  · rintro ⟨hfinds, hstands⟩
    obtain ⟨-, hfound⟩ := secretCommandResponse_spec s now (.reconnect roomId ⟨token⟩) commandId
    unfold ReconnectSound
    cases hlookup : (s.secretCommandResponse now (.reconnect roomId ⟨token⟩) commandId).1 with
    | error e =>
      have hraised : (s.reconnect now roomId token commandId).1 = .error e ∧
          (s.reconnect now roomId token commandId).2.db = s.db := by
        unfold Store.reconnect Store.secretCommand
        simp only [hlookup, and_self]
      rw [hraised.1]
      rw [hlookup] at hfound
      exact ⟨hfound, hraised.2⟩
    | ok found =>
      cases found with
      | some cached =>
        obtain ⟨hreplayed, hdb⟩ := reconnect_of_cached hlookup
        rw [hlookup] at hfound
        obtain ⟨e, he, hkey, rfl⟩ := hfound
        obtain ⟨first, now₀, hfirst, hcarried, hrun⟩ := reachable_cache hs e he _ _ _ hkey
        obtain ⟨row, view, hresponse, hlocal, -, -, hover⟩ :=
          reconnect_handover hfirst hcarried.unanswered hcarried.answered
        rw [hresponse] at hlookup
        obtain ⟨hcurrent, hadmits⟩ := hstands view _ _ hlookup
        rw [hlocal, ← hdb] at hcurrent hadmits
        rw [hreplayed]
        exact ⟨first, now₀, hfirst, hcarried, row, hover.known, view, _, _, hresponse, hlocal,
          hover.rotated (hrun.trans hcalled) hcalled hcurrent hadmits, .inr ⟨hrun, hdb⟩⟩
      | none =>
        cases hanswer : (s.reconnect now roomId token commandId).1 with
        | ok response =>
          obtain ⟨row, view, hresponse, hlocal, -, -, hover⟩ :=
            reconnect_handover hs hlookup hanswer
          exact ⟨s, now, hs, ⟨hlookup, hanswer⟩, row, hover.known, view, _, _, hresponse, hlocal,
            hover.rotated .refl hcalled hover.carried hover.admitted_now,
            .inl ⟨rfl, rfl, hover.admitted⟩⟩
        | error e =>
          obtain ⟨hraised, hdone⟩ := @secretCommand_carried s now commandId
            (.reconnect roomId ⟨token⟩) (fun db => db.reconnect now s.supply roomId token) hlookup
          cases hcall : s.db.reconnect now s.supply roomId token with
          | ok done =>
            have hok : (s.reconnect now roomId token commandId).1 = _ :=
              (hdone done.1 done.2 hcall).1
            rw [hanswer] at hok
            cases hok
          | error e' =>
            obtain ⟨hsame, hdb⟩ := hraised e' hcall
            have heq : e = e' := Except.error.inj (hanswer.symm.trans hsame)
            subst heq
            refine ⟨?_, hdb⟩
            rcases Database.reconnect_error hwaits hcall with
              hauthority | ⟨row, room, hrow, hroom, hnone⟩
            · exact hauthority
            · exact absurd hnone (hfinds hlookup row hrow room hroom)

end Total

/-- The partner has come back with the reconnect token it was given. -/
def returnedCalls : List Op := startedCalls.take 2 ++ [.reconnect 5 0 9 "r"]

/-- The member and the bearer of an answer from the cache. -/
def cachedTokens : Except Exn (Option Response) → Option (MemberId × Token)
  | .ok (some (.secret view bearer _)) => some (view.localMemberId, bearer)
  | _ => none

theorem findsMember_partner :
    FindsMember (Store.initial.run (startedCalls.take 2)) 5 0 9 "r" := by
  have hmember : ((Store.initial.run (startedCalls.take 2)).db.reconnectRow? 5 0 ⟨9⟩).map
      (·.memberId) = some 6 := by decide
  have hlisted : ((Store.initial.run (startedCalls.take 2)).db.room? 0).map
      (fun room => (room.member? 6).isSome) = some true := by decide
  intro _ row hrow room hroom
  rw [hrow, Option.map_some, Option.some.injEq] at hmember
  rw [hroom, Option.map_some, Option.some.injEq] at hlisted
  rw [hmember]
  exact Option.isSome_iff_ne_none.mp hlisted

theorem answerStands_partner :
    AnswerStands (Store.initial.run (startedCalls.take 2)) 5 0 9 "r" := by
  have hnone : cachedTokens ((Store.initial.run (startedCalls.take 2)).secretCommandResponse 5
      (.reconnect 0 ⟨9⟩) "r").1 = none := by decide
  intro view bearer reconnect hcached
  rw [hcached] at hnone
  cases hnone

theorem answerStands_returned : AnswerStands (Store.initial.run returnedCalls) 6 0 9 "r" := by
  have hcached : cachedTokens ((Store.initial.run returnedCalls).secretCommandResponse 6
      (.reconnect 0 ⟨9⟩) "r").1 = some (6, 13) := by decide
  have hcarried : ((6 : MemberId), (⟨13⟩ : TokenHash)) ∈
      (Store.initial.run returnedCalls).db.bearers := by decide
  have hrow : ∃ row ∈ (Store.initial.run returnedCalls).db.credentials,
      row.memberId = 6 ∧ row.active = true := by decide
  have hroom : ((Store.initial.run returnedCalls).db.room? 0).any (fun room =>
      room.expiryDue 6 = some false && (room.reconnectMember 6 6 true).toOption.isSome) = true := by
    decide
  intro view bearer reconnect hanswer
  rw [hanswer] at hcached
  obtain ⟨hid, hbearer⟩ := Prod.mk.inj (Option.some.inj hcached)
  obtain ⟨room, hfound, hback⟩ := (Option.any_eq_true _ _).mp hroom
  obtain ⟨row, hmem, hmember, hactive⟩ := hrow
  simp only [Bool.and_eq_true, decide_eq_true_eq] at hback
  obtain ⟨r, hr⟩ := Option.isSome_iff_exists.mp hback.2
  rw [hid, hbearer]
  refine ⟨hcarried, room, row, r, hfound, hback.1, hmem, hmember, ?_⟩
  rw [hactive]
  cases hres : room.reconnectMember 6 6 true with
  | error e =>
    rw [hres] at hr
    cases hr
  | ok r' =>
    rw [hres] at hr
    exact congrArg Except.ok (Option.some.inj hr)

/-- The partner of a new room comes back with the reconnect token it was given, and repeats the
call. -/
theorem reconnect_total_partner :
    ReconnectSound (Store.initial.run (startedCalls.take 2)) 5 0 9 "r" ∧
      ReconnectSound (Store.initial.run returnedCalls) 6 0 9 "r" := by
  refine ⟨(reconnect_total (reachable_free _)).mpr ⟨findsMember_partner, answerStands_partner⟩,
    (reconnect_total (reachable_free _)).mpr ⟨fun unanswered => ?_, answerStands_returned⟩⟩
  have hcached : cachedTokens ((Store.initial.run returnedCalls).secretCommandResponse 6
      (.reconnect 0 ⟨9⟩) "r").1 = some (6, 13) := by decide
  rw [unanswered] at hcached
  cases hcached

/-- The partner leaves, somebody else joins, and the partner tries to come back. -/
def replacedCalls : List Op :=
  startedCalls.take 2 ++ [.mutate 1 0 8 "l" .leave {} none, .join 2 "CODE" "c" "k" "z"]

/-- The row of a member who left is still there when a new partner has taken the seat, and the
list of members no longer names it. -/
theorem reconnect_after_replacement :
    ¬ ∀ s, system.Reachable System.Free s → ∀ now roomId token commandId,
      ReconnectSound s now roomId token commandId := by
  intro h
  have hsound := h _ (reachable_free replacedCalls) 3 0 9 "r"
  have hraised : ((Store.initial.run replacedCalls).reconnect 3 0 9 "r").1 =
      .error .stopIteration := by decide
  unfold ReconnectSound at hsound
  rw [hraised] at hsound
  obtain ⟨⟨status, detail, heq⟩, -⟩ := hsound
  cases heq

end SwitchTrade.Authority

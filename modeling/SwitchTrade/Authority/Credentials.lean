import SwitchTrade.Authority.Barrier
import SwitchTrade.Authority.Seats

/-!
# Credentials and the members that hold them

The table side of `Seats.lean`: every stroke of a call keeps the credential rows and the
documents together (`Stroke.housed`), and leaves a room that was over when the call began as
it is (`Stroke.frozen`).
-/

namespace SwitchTrade.Authority

open Fallible Relation Transition

/-! ## The rows of the table -/

/-- The row is one of those a revocation in the room deactivates. -/
def Revoked.hits (roomId : RoomId) (row : CredentialRow) : Revoked → Bool
  | .nobody => false
  | .member id => row.roomId = roomId && row.memberId = id
  | .everybody => row.roomId = roomId

theorem Revoked.hits_iff {roomId : RoomId} {row : CredentialRow} {revoked : Revoked} :
    revoked.hits roomId row = true ↔ row.roomId = roomId ∧ revoked.Covers row.memberId := by
  cases revoked <;> simp [hits, Covers]

namespace Database

variable {db : Database} {now : Time} {roomId roomId' : RoomId} {id : MemberId}
  {revoked : Revoked} {full : Prop}

/-- Whom the credential rows belong to. -/
def owners (db : Database) : List (RoomId × MemberId) :=
  db.credentials.map fun row => (row.roomId, row.memberId)

theorem owners_members : db.owners.map (·.2) = db.credentials.map (·.memberId) := by
  simp only [owners, List.map_map]
  rfl

theorem revoke_credentials : (db.revoke roomId revoked).credentials =
    db.credentials.map fun row =>
      if revoked.hits roomId row then { row with active := false } else row := by
  cases revoked <;> rfl

theorem revoke_owners : (db.revoke roomId revoked).owners = db.owners := by
  simp only [owners, revoke_credentials, List.map_map]
  refine List.map_congr_left fun row _ => ?_
  simp only [Function.comp_apply]
  split <;> rfl

theorem revoke_credited : (db.revoke roomId revoked).Credited roomId' id ↔
    db.Credited roomId' id ∧ ¬ (roomId' = roomId ∧ revoked.Covers id) := by
  simp only [Credited, revoke_credentials, List.mem_map, exists_exists_and_eq_and]
  constructor
  · rintro ⟨row, hrow, hactive, hroom, hmember⟩
    by_cases hit : revoked.hits roomId row = true
    · simp [hit] at hactive
    · simp only [hit, Bool.false_eq_true, if_false] at hactive hroom hmember
      refine ⟨⟨row, hrow, hactive, hroom, hmember⟩, fun hcovered => hit ?_⟩
      exact Revoked.hits_iff.mpr ⟨hroom.trans hcovered.1, hmember ▸ hcovered.2⟩
  · rintro ⟨⟨row, hrow, hactive, rfl, rfl⟩, hfree⟩
    have hit : ¬ revoked.hits roomId row = true := fun hit => hfree (Revoked.hits_iff.mp hit)
    exact ⟨row, hrow, by simp [hit, hactive]⟩

theorem addCredential_owners {token reconnect : Token} :
    (db.addCredential roomId id token reconnect).owners = db.owners ++ [(roomId, id)] := by
  simp only [owners, addCredential, List.map_append, List.map_cons, List.map_nil]

theorem addCredential_credited {id' : MemberId} {token reconnect : Token} :
    (db.addCredential roomId id token reconnect).Credited roomId' id' ↔
      db.Credited roomId' id' ∨ (roomId' = roomId ∧ id' = id) := by
  simp only [Credited, addCredential, List.mem_append, List.mem_singleton, or_and_right, exists_or,
    exists_eq_left, true_and]
  exact or_congr_right (and_congr eq_comm eq_comm)

theorem rotate_owners {row : CredentialRow} {token reconnect : Token} :
    (db.rotate now roomId row token reconnect).owners = db.owners := by
  simp only [owners, rotate, List.map_map]
  refine List.map_congr_left fun row _ => ?_
  simp only [Function.comp_apply]
  split <;> rfl

theorem rotate_credited {row : CredentialRow} {token reconnect : Token} :
    (db.rotate now roomId row token reconnect).Credited roomId' id ↔ db.Credited roomId' id := by
  simp only [Credited, rotate, List.mem_map, exists_exists_and_eq_and]
  refine exists_congr fun row' => and_congr_right fun _ => ?_
  split <;> rfl

theorem purge_owners : (db.purge now).owners = db.owners.filter (!db.gone now ·.1) := by
  simp only [owners, purge_credentials, List.filter_map]
  rfl

theorem purge_credited : (db.purge now).Credited roomId id ↔
    db.Credited roomId id ∧ db.gone now roomId = false := by
  simp only [Credited, purge_credentials, List.mem_filter, Bool.not_eq_true']
  constructor
  · rintro ⟨row, ⟨hrow, hkept⟩, hactive, rfl, rfl⟩
    exact ⟨⟨row, hrow, hactive, rfl, rfl⟩, hkept⟩
  · rintro ⟨⟨row, hrow, hactive, rfl, rfl⟩, hkept⟩
    exact ⟨row, ⟨hrow, hkept⟩, hactive, rfl, rfl⟩

/-! ## Rows and documents agree -/

/-- The member is one of an open room that is there. -/
def Holds (db : Database) (roomId : RoomId) (id : MemberId) : Prop :=
  ∃ room ∈ db.rooms, room.roomId = roomId ∧ room.Holds id

/-- Every member has one row, and an active row is that of a member of an open room that is
there. The other direction, that such a member has an active row, is what one write breaks:
it is part of the invariant where `full` is. -/
structure Housed (full : Prop) (db : Database) : Prop where
  ids : (db.rooms.map (·.roomId)).Nodup
  seated : ∀ room ∈ db.rooms, room.Seated
  rows : (db.owners.map (·.2)).Nodup
  registered : ∀ room ∈ db.rooms, ∀ p ∈ room.places, (room.roomId, p.memberId) ∈ db.owners
  bearers : ∀ roomId id, db.Credited roomId id → db.Holds roomId id
  issued : full → ∀ roomId id, db.Holds roomId id → db.Credited roomId id

theorem Housed.holds_room (h : db.Housed full) {room : Room} (held : room ∈ db.rooms) :
    db.Holds room.roomId id ↔ room.Holds id := by
  constructor
  · rintro ⟨room', hr', hid, hholds⟩
    obtain rfl := List.inj_on_of_nodup_map h.ids hr' held hid
    exact hholds
  · exact fun hholds => ⟨room, held, rfl, hholds⟩

theorem Housed.credited_room (h : db.Housed full) {room : Room} (held : room ∈ db.rooms)
    (id : MemberId) (hcredited : db.Credited room.roomId id) : room.Holds id :=
  (h.holds_room held).mp (h.bearers _ _ hcredited)

theorem empty_housed : Database.empty.Housed full where
  ids := .nil
  seated room hr := (List.not_mem_nil hr).elim
  rows := .nil
  registered room hr := (List.not_mem_nil hr).elim
  bearers roomId id := by
    rintro ⟨row, hrow, -⟩
    exact (List.not_mem_nil hrow).elim
  issued _ roomId id := by
    rintro ⟨room, hr, -⟩
    exact (List.not_mem_nil hr).elim

section Commit

variable {room r : Room} {event : String} {actor : Option MemberId} {data : EventData}

theorem mem_save_other {r' : Room} (h : r' ∈ db.rooms) (other : r'.roomId ≠ r.roomId) :
    r' ∈ (db.save r).rooms :=
  List.mem_map.mpr ⟨r', h, if_neg other⟩

/-- Only the members of the room written may change. -/
theorem commit_holds (held : r.roomId ∈ db.rooms.map (·.roomId)) :
    (db.commit now r event actor data).Holds roomId id ↔
      if roomId = r.roomId then r.Holds id else db.Holds roomId id := by
  constructor
  · rintro ⟨room', hr', rfl, hholds⟩
    rcases mem_save hr' with ⟨hr', hother⟩ | rfl
    · rw [if_neg (show ¬ room'.roomId = r.roomId from hother)]
      exact ⟨room', hr', rfl, hholds⟩
    · exact (if_pos (show (r.sealed _).roomId = r.roomId from rfl)).mpr hholds
  · intro hholds
    by_cases own : roomId = r.roomId
    · rw [if_pos own] at hholds
      exact ⟨_, @mem_save_self (db.record now r event actor data).1 _ held, own.symm, hholds⟩
    · rw [if_neg own] at hholds
      obtain ⟨room', hr', rfl, hholds⟩ := hholds
      exact ⟨room', @mem_save_other (db.record now r event actor data).1 _ _ hr' own, rfl, hholds⟩

/-- A commit keeps the tables together when the rows changed with the document. `base` is the
database before either did. -/
theorem Housed.commit {base : Database} (h : base.Housed full) (same : db.rooms = base.rooms)
    (held : room ∈ base.rooms) (id_eq : r.roomId = room.roomId) (seated : r.Seated)
    (rows : (db.owners.map (·.2)).Nodup)
    (kept : ∀ owner ∈ base.owners, owner ∈ db.owners)
    (registered : ∀ p ∈ r.places, (r.roomId, p.memberId) ∈ db.owners)
    (bearers : ∀ id, db.Credited r.roomId id → r.Holds id)
    (issued : full → ∀ id, r.Holds id → db.Credited r.roomId id)
    (others : ∀ roomId id, roomId ≠ r.roomId →
      (db.Credited roomId id ↔ base.Credited roomId id)) :
    (db.commit now r event actor data).Housed full := by
  have hheld : r.roomId ∈ db.rooms.map (·.roomId) :=
    List.mem_map.mpr ⟨room, same ▸ held, id_eq.symm⟩
  refine ⟨?_, fun room' hr' => ?_, rows, fun room' hr' => ?_, fun roomId id hcredited => ?_,
    fun hfull roomId id hholds => ?_⟩
  · have hids := @save_ids (db.record now r event actor data).2 (db.record now r event actor data).1
    rw [show (db.commit now r event actor data).rooms.map (·.roomId) = _ from hids, record_rooms,
      same]
    exact h.ids
  · rcases mem_save hr' with ⟨hr', -⟩ | rfl
    · exact h.seated room' (same ▸ hr')
    · exact ⟨seated.ids, seated.one, seated.owner, seated.partner⟩
  · rcases mem_save hr' with ⟨hr', -⟩ | rfl
    · exact fun p hp => kept _ (h.registered room' (same ▸ hr') p hp)
    · exact registered
  · rw [commit_holds hheld]
    by_cases own : roomId = r.roomId
    · rw [if_pos own]
      exact bearers id (own ▸ hcredited)
    · rw [if_neg own, Holds, same]
      exact h.bearers roomId id ((others roomId id own).mp hcredited)
  · rw [commit_holds hheld] at hholds
    by_cases own : roomId = r.roomId
    · rw [if_pos own] at hholds
      exact own ▸ issued hfull id hholds
    · rw [if_neg own, Holds, same] at hholds
      exact (others roomId id own).mpr (h.issued hfull roomId id hholds)

end Commit

end Database

section Stroke

variable {s : Store} {op : Op} {db db' : Database} {full : Prop}

theorem Stroke.housed (h : Stroke s op db db') (guard : full → ¬ s.Reopens op)
    (fresh : ∀ row ∈ s.db.credentials, row.memberId < s.supply) (housed : db.Housed full) :
    db'.Housed full := by
  cases h with
  | remember =>
    exact ⟨housed.ids, housed.seated, housed.rows, housed.registered, housed.bearers, housed.issued⟩
  | @write room r revoked event actor data held written moved timely =>
    have hid : r.roomId = room.roomId := written.roomId
    have hseated := housed.seated room held
    have hcredited := housed.credited_room held
    refine housed.commit rfl held hid (moved.seated hseated written.header hcredited)
      ?_ (fun owner howner => ?_) (fun p hp => ?_) (fun id hbearer => ?_)
      (fun hfull id hholds => ?_) fun roomId id other => ?_
    · rw [Database.revoke_owners]
      exact housed.rows
    · rw [Database.revoke_owners]
      exact howner
    · rw [Database.revoke_owners, hid]
      obtain ⟨q, hq, hmember⟩ := List.mem_map.mp (moved.members hseated ▸ List.mem_map_of_mem hp)
      exact hmember ▸ housed.registered room held q hq
    · rw [Database.revoke_credited, hid] at hbearer
      have hheld := hcredited id hbearer.1
      refine (moved.holds hseated hcredited (.inl hheld.1)).mpr ⟨hheld, fun hcovered => ?_⟩
      exact hbearer.2 ⟨rfl, hcovered⟩
    · have htimely : room.isOpen = true ∨ r.isOpen = false :=
        timely.imp_right fun late => late.2.resolve_right (guard hfull)
      obtain ⟨hheld, hfree⟩ := (moved.holds hseated hcredited htimely).mp hholds
      rw [Database.revoke_credited, hid]
      exact ⟨housed.issued hfull _ _ ((housed.holds_room held).mpr hheld), fun h => hfree h.2⟩
    · rw [Database.revoke_credited]
      simp [other]
  | @join room r display call held isOpen first written =>
    obtain ⟨-, hopen, header, -, hplaces⟩ := Room.joinRoom_ok written
    have hid : r.roomId = room.roomId := congrArg (·.roomId) header
    have hnew : s.supply + 1 ∉ db.owners.map (·.2) := by
      rw [Database.owners_members, ← Database.bearers_members, first, Database.bearers_members]
      intro hold
      obtain ⟨row, hrow, heq⟩ := List.mem_map.mp hold
      have hlt : s.supply + 1 < s.supply := heq ▸ fresh row hrow
      exact absurd hlt (Nat.not_lt.mpr (Nat.le_succ _))
    have hother : ∀ p ∈ room.places, p.memberId ≠ s.supply + 1 := fun p hp heq =>
      hnew (heq ▸ List.mem_map_of_mem (f := (·.2)) (housed.registered room held p hp))
    -- The members who are there are those from before and the new one.
    have hholds : ∀ id, r.Holds id ↔ room.Holds id ∨ id = s.supply + 1 := by
      intro id
      rw [Room.Holds, Room.Holds, hplaces]
      simp only [isOpen, hopen, true_and, List.mem_append, List.mem_filter, List.mem_singleton,
        or_and_right, exists_or, exists_eq_left]
      refine or_congr (exists_congr fun p => ?_) ?_
      · constructor
        · rintro ⟨⟨hp, -⟩, hmember, hpresent⟩
          exact ⟨hp, hmember, hpresent⟩
        · rintro ⟨hp, hmember, hpresent⟩
          exact ⟨⟨hp, by simpa using SeatMove.present_alive hpresent⟩, hmember, hpresent⟩
      · simp [OnlineState.present, eq_comm]
    refine housed.commit rfl held hid ((housed.seated room held).join hother written)
      ?_ (fun owner howner => ?_) (fun p hp => ?_) (fun id hbearer => ?_)
      (fun hfull id hheld => ?_) fun roomId id other => ?_
    · rw [Database.addCredential_owners, List.map_append, List.nodup_append]
      refine ⟨housed.rows, List.nodup_singleton _, fun id hold id' hadded heq => ?_⟩
      have hid' : id' = s.supply + 1 := List.mem_singleton.mp hadded
      exact hnew (hid' ▸ heq ▸ hold)
    · rw [Database.addCredential_owners]
      exact List.mem_append_left _ howner
    · rw [Database.addCredential_owners, hid]
      rw [hplaces] at hp
      rcases List.mem_append.mp hp with hp | hp
      · exact List.mem_append_left _ (housed.registered room held p (List.mem_filter.mp hp).1)
      · rw [List.mem_singleton.mp hp]
        exact List.mem_append_right _ (List.mem_singleton_self _)
    · rw [Database.addCredential_credited, hid] at hbearer
      rw [hholds]
      exact hbearer.imp (housed.credited_room held id) (·.2)
    · rw [hholds] at hheld
      rw [Database.addCredential_credited, hid]
      exact hheld.imp (fun hold => housed.issued hfull _ _ ((housed.holds_room held).mpr hold))
        fun hnew => ⟨rfl, hnew⟩
    · rw [Database.addCredential_credited]
      simp [other]
  | @reconnect room r row call held known own first written =>
    obtain ⟨m, -, isOpen, -, -, hactive, rfl⟩ := reconnectMember_ok written
    have hcredited : db.Credited room.roomId row.memberId := ⟨row, known, hactive, own, rfl⟩
    -- The row is active, so the member is there: this is a heartbeat.
    have moved : SeatMove op.now db room .nobody
        (room.modifyMember row.memberId (Member.seen op.now)) :=
      .beat row.memberId isOpen hcredited
    have hseated := housed.seated room held
    have hholds : ∀ id, (room.modifyMember row.memberId (Member.seen op.now)).Holds id ↔
        room.Holds id := by
      intro id
      rw [moved.holds hseated (housed.credited_room held) (.inl isOpen)]
      simp [Revoked.Covers]
    refine housed.commit rfl held rfl (moved.seated hseated rfl (housed.credited_room held))
      ?_ (fun owner howner => ?_) (fun p hp => ?_) (fun id hbearer => ?_)
      (fun hfull id hheld => ?_) fun roomId id _ => Database.rotate_credited
    · rw [Database.rotate_owners]
      exact housed.rows
    · rw [Database.rotate_owners]
      exact howner
    · rw [Database.rotate_owners]
      obtain ⟨q, hq, hmember⟩ := List.mem_map.mp (moved.members hseated ▸ List.mem_map_of_mem hp)
      exact hmember ▸ housed.registered room held q hq
    · exact (hholds id).mpr (housed.credited_room held id (Database.rotate_credited.mp hbearer))
    · refine Database.rotate_credited.mpr (housed.issued hfull _ _ ?_)
      exact (housed.holds_room held).mpr ((hholds id).mp hheld)
  | purge =>
    have hrooms : ∀ room ∈ (db.purge op.now).rooms, room ∈ db.rooms ∧
        db.gone op.now room.roomId = false := by
      intro room hr
      rw [Database.purge_rooms] at hr
      obtain ⟨hr, hlive⟩ := List.mem_filter.mp hr
      exact ⟨hr, by rw [Database.gone_kept housed.ids hr]; simpa using hlive⟩
    refine ⟨?_, fun room hr => housed.seated room (hrooms room hr).1, ?_, fun room hr p hp => ?_,
      fun roomId id hcredited => ?_, fun hfull roomId id => ?_⟩
    · rw [Database.purge_rooms]
      exact housed.ids.sublist (List.filter_sublist.map _)
    · rw [Database.purge_owners]
      exact housed.rows.sublist (List.filter_sublist.map _)
    · obtain ⟨hold, hkept⟩ := hrooms room hr
      rw [Database.purge_owners]
      exact List.mem_filter.mpr ⟨housed.registered room hold p hp, by simp [hkept]⟩
    · rw [Database.purge_credited] at hcredited
      obtain ⟨room, hr, rfl, hholds⟩ := housed.bearers roomId id hcredited.1
      refine ⟨room, ?_, rfl, hholds⟩
      rw [Database.gone_kept housed.ids hr] at hcredited
      rw [Database.purge_rooms]
      exact List.mem_filter.mpr ⟨hr, by simp [hcredited.2]⟩
    · rintro ⟨room, hr, rfl, hholds⟩
      rw [Database.purge_credited]
      exact ⟨housed.issued hfull _ _ ⟨room, (hrooms room hr).1, rfl, hholds⟩, (hrooms room hr).2⟩

theorem Strokes.housed (h : Strokes s op db db') (guard : full → ¬ s.Reopens op)
    (fresh : ∀ row ∈ s.db.credentials, row.memberId < s.supply) (housed : db.Housed full) :
    db'.Housed full := by
  induction h with
  | refl => exact housed
  | tail _ hlast ih => exact hlast.housed guard fresh ih

theorem Opened.housed {room : Room} (h : Opened s db room) (ids : s.Ids)
    (fresh : ∀ row ∈ s.db.credentials, row.memberId < s.supply) (housed : s.db.Housed full) :
    db.Housed full := by
  obtain ⟨row, hrows, -, -, hroom, hmember, hactive, -⟩ := h.credentials
  have howners : db.owners = s.db.owners ++ [(s.supply, s.supply + 1)] := by
    simp only [Database.owners, hrows, List.map_append, List.map_cons, List.map_nil, hroom, hmember]
  have hnew : ∀ room' ∈ s.db.rooms, room'.roomId ≠ room.roomId := fun room' hr' =>
    (h.roomId ▸ ids.rooms room' hr').ne
  have hcredited : ∀ roomId id, db.Credited roomId id ↔
      s.db.Credited roomId id ∨ (s.supply = roomId ∧ s.supply + 1 = id) := by
    intro roomId id
    simp only [Database.Credited, hrows, List.mem_append, List.mem_singleton, or_and_right,
      exists_or, exists_eq_left, hactive, hroom, hmember, true_and]
  have hholds : ∀ roomId id, db.Holds roomId id ↔
      s.db.Holds roomId id ∨ (s.supply = roomId ∧ s.supply + 1 = id) := by
    intro roomId id
    simp only [Database.Holds, h.rooms, List.mem_append, List.mem_singleton, or_and_right,
      exists_or, exists_eq_left, h.roomId, Room.Holds, h.isOpen, h.places, true_and]
    simp [OnlineState.present]
  refine ⟨?_, fun room' hr' => ?_, ?_, fun room' hr' p hp => ?_, fun roomId id hbearer => ?_,
    fun hfull roomId id hheld => ?_⟩
  · rw [h.rooms, List.map_append, List.nodup_append]
    refine ⟨ids.nodup, List.nodup_singleton _, fun n hn m hm heq => ?_⟩
    obtain ⟨room', hr', rfl⟩ := List.mem_map.mp hn
    exact hnew room' hr' (heq.trans (List.mem_singleton.mp hm))
  · rw [h.rooms, List.mem_append, List.mem_singleton] at hr'
    rcases hr' with hr' | rfl
    · exact housed.seated room' hr'
    · refine ⟨?_, ?_, ?_, ?_⟩ <;> rw [h.places]
      · exact List.nodup_singleton _
      · rfl
      · intro p hp _
        rw [List.mem_singleton.mp hp, h.ownerMemberId]
        exact ⟨rfl, by simp⟩
      · simp
  · rw [howners, List.map_append, List.nodup_append]
    refine ⟨housed.rows, List.nodup_singleton _, fun id hold id' hadded heq => ?_⟩
    rw [Database.owners_members] at hold
    obtain ⟨row', hrow', hid⟩ := List.mem_map.mp hold
    have hlt : id < s.supply := hid ▸ fresh row' hrow'
    have hid' : id' = s.supply + 1 := List.mem_singleton.mp hadded
    rw [heq, hid'] at hlt
    exact absurd hlt (Nat.not_lt.mpr (Nat.le_succ _))
  · rw [howners]
    rw [h.rooms, List.mem_append, List.mem_singleton] at hr'
    rcases hr' with hr' | rfl
    · exact List.mem_append_left _ (housed.registered room' hr' p hp)
    · rw [h.places] at hp
      rw [List.mem_singleton.mp hp, h.roomId]
      exact List.mem_append_right _ (List.mem_singleton_self _)
  · exact (hholds roomId id).mpr (((hcredited roomId id).mp hbearer).imp_left
      (housed.bearers roomId id))
  · exact (hcredited roomId id).mpr (((hholds roomId id).mp hheld).imp_left
      (housed.issued hfull roomId id))

/-! ## Where a row comes from -/

/-- The row is an old one, whose token may have been replaced, or that of a new member. -/
def RowFrom (s : Store) (db : Database) (row' : CredentialRow) : Prop :=
  (∃ row ∈ db.credentials, row'.roomId = row.roomId ∧ row'.memberId = row.memberId ∧
    (row'.tokenHash = row.tokenHash ∨ row'.tokenHash = ⟨s.supply + 3⟩)) ∨
  (row'.tokenHash = ⟨s.supply + 3⟩ ∧ row'.memberId = s.supply + 1)

theorem RowFrom.self {row : CredentialRow} (h : row ∈ db.credentials) : RowFrom s db row :=
  .inl ⟨row, h, rfl, rfl, .inl rfl⟩

theorem Stroke.row (h : Stroke s op db db') {row' : CredentialRow}
    (hrow' : row' ∈ db'.credentials) : RowFrom s db row' := by
  cases h with
  | remember => exact .self hrow'
  | @write room r revoked event actor data held written moved timely =>
    have hrevoked : row' ∈ (db.revoke r.roomId revoked).credentials := hrow'
    rw [Database.revoke_credentials] at hrevoked
    obtain ⟨row, hrow, rfl⟩ := List.mem_map.mp hrevoked
    split
    · exact .inl ⟨row, hrow, rfl, rfl, .inl rfl⟩
    · exact .self hrow
  | join =>
    rcases List.mem_append.mp hrow' with hrow' | hrow'
    · exact .self hrow'
    · rw [List.mem_singleton.mp hrow']
      exact .inr ⟨rfl, rfl⟩
  | reconnect =>
    obtain ⟨row, hrow, rfl⟩ := List.mem_map.mp hrow'
    split
    · exact .inl ⟨row, hrow, rfl, rfl, .inr rfl⟩
    · exact .self hrow
  | purge =>
    rw [Database.purge_credentials] at hrow'
    exact .self (List.mem_filter.mp hrow').1

theorem Strokes.row (h : Strokes s op db db') {row' : CredentialRow}
    (hrow' : row' ∈ db'.credentials) : RowFrom s db row' := by
  induction h generalizing row' with
  | refl => exact .self hrow'
  | tail _ hlast ih =>
    obtain ⟨row, hrow, hroom, hmember, htoken⟩ | hnew := hlast.row hrow'
    · obtain ⟨row₀, hrow₀, hroom₀, hmember₀, htoken₀⟩ | ⟨htoken₀, hmember₀⟩ := ih hrow
      · refine .inl ⟨row₀, hrow₀, hroom.trans hroom₀, hmember.trans hmember₀, ?_⟩
        rcases htoken with htoken | htoken
        · rw [htoken]
          exact htoken₀
        · exact .inr htoken
      · refine .inr ⟨?_, hmember.trans hmember₀⟩
        rcases htoken with htoken | htoken
        · exact htoken.trans htoken₀
        · exact htoken
    · exact .inr hnew

theorem step_row (ids : s.Ids) (op : Op) {row' : CredentialRow}
    (hrow' : row' ∈ (s.step op).db.credentials) : RowFrom s s.db row' := by
  obtain ⟨room, hopened⟩ | hstrokes :=
    step_strokes op ids.nodup fun room hr => (ids.rooms room hr).ne
  · obtain ⟨row, hrows, htoken, -, -, hmember, -⟩ := hopened.credentials
    rw [hrows, List.mem_append, List.mem_singleton] at hrow'
    rcases hrow' with hrow' | rfl
    · exact .self hrow'
    · exact .inr ⟨htoken, hmember⟩
  · exact hstrokes.row hrow'

/-! ## A room that is over stays as it is -/

/-- Only a room that is open, or that the call itself has just expired, is written. -/
theorem Stroke.frozen (h : Stroke s op db db') (base : s.db.Housed full)
    (nodup : (db.rooms.map (·.roomId)).Nodup) {room : Room} (before : room ∈ s.db.rooms)
    (shut : room.isOpen = false) (held : room ∈ db.rooms) {room' : Room} (hr' : room' ∈ db'.rooms)
    (hid : room'.roomId = room.roomId) : room' = room := by
  have unique : ∀ {w : Room}, w ∈ db.rooms → w.roomId = room.roomId → w = room := fun hw hid =>
    List.inj_on_of_nodup_map nodup hw held hid
  cases h with
  | remember => exact unique hr' hid
  | @write w r revoked event actor data hw written moved timely =>
    rcases Database.mem_save hr' with ⟨hr', -⟩ | rfl
    · exact unique hr' hid
    · obtain rfl := unique hw (written.roomId.symm.trans hid)
      rcases timely with isOpen | ⟨⟨id, hcredited⟩, -⟩
      · simp [shut] at isOpen
      · obtain ⟨isOpen, -⟩ := base.credited_room before id hcredited
        simp [shut] at isOpen
  | @join w r display call hw isOpen first written =>
    rcases Database.mem_save hr' with ⟨hr', -⟩ | rfl
    · exact unique hr' hid
    · obtain ⟨-, -, header, -⟩ := Room.joinRoom_ok written
      obtain rfl := unique hw ((congrArg (·.roomId) header).symm.trans hid)
      simp [shut] at isOpen
  | @reconnect w r row call hw known own first written =>
    rcases Database.mem_save hr' with ⟨hr', -⟩ | rfl
    · exact unique hr' hid
    · obtain ⟨m, -, isOpen, -, -, -, rfl⟩ := reconnectMember_ok written
      obtain rfl := unique hw hid
      simp [shut] at isOpen
  | purge =>
    rw [Database.purge_rooms] at hr'
    exact unique (List.mem_filter.mp hr').1 hid

theorem Strokes.frozen (h : Strokes s op s.db db) (base : s.db.Housed full) {room : Room}
    (before : room ∈ s.db.rooms) (shut : room.isOpen = false) {room' : Room}
    (hr' : room' ∈ db.rooms) (hid : room'.roomId = room.roomId) : room' = room := by
  induction h generalizing room' with
  | refl => exact List.inj_on_of_nodup_map base.ids hr' before hid
  | tail hfirst hlast ih =>
    have hids := (Strokes.changes (.single hlast)).ids.subset (List.mem_map_of_mem hr')
    obtain ⟨room₁, hr₁, hid₁⟩ := List.mem_map.mp hids
    have heq := ih hr₁ (hid₁.trans hid)
    exact hlast.frozen base ((Strokes.changes hfirst).ids.nodup base.ids) before shut (heq ▸ hr₁)
      hr' hid

end Stroke

/-! ## Runs -/

structure Store.Housed (full : Prop) (s : Store) : Prop where
  ids : s.Ids
  rows : ∀ row ∈ s.db.credentials, row.memberId < s.supply
  housed : s.db.Housed full

theorem step_housed {s : Store} {full : Prop} (h : s.Housed full) {op : Op}
    (guard : full → ¬ s.Reopens op) : (s.step op).Housed full := by
  have hsupply : s.supply + 5 ≤ (s.step op).supply := step_supply s op
  refine ⟨step_ids h.ids op, fun row' hrow' => ?_, ?_⟩
  · obtain ⟨row, hrow, -, hmember, -⟩ | ⟨-, hmember⟩ := step_row h.ids op hrow'
    · have := h.rows row hrow
      rw [hmember]
      exact this.trans_le ((Nat.le_add_right _ _).trans hsupply)
    · rw [hmember]
      exact (Nat.add_lt_add_left (by decide) _).trans_le hsupply
  · obtain ⟨room, hopened⟩ | hstrokes :=
      step_strokes op h.ids.nodup fun room hr => (h.ids.rooms room hr).ne
    · exact hopened.housed h.ids h.rows h.housed
    · exact hstrokes.housed guard h.rows h.housed

/-- No report completes the pair in a room that its own load has just expired. -/
def KeepsExpired (s : Store) (op : Op) : Prop := ¬ s.Reopens op

theorem reachable_housed {G : Store → Op → Prop} {full : Prop}
    (guard : full → ∀ s op, G s op → ¬ s.Reopens op) {s : Store} (h : system.Reachable G s) :
    s.Housed full := by
  refine h.invariant (fun s hs => ?_) fun s op t hs hg ht => ?_
  · subst hs
    exact ⟨reachable_ids (G := System.Free) (.init rfl),
      fun row hrow => (List.not_mem_nil hrow).elim, Database.empty_housed⟩
  · subst ht
    exact step_housed hs fun hfull => guard hfull s op hg

theorem reachable_full {s : Store} (h : system.Reachable KeepsExpired s) : s.Housed True :=
  reachable_housed (fun _ _ _ hg => hg) h

/-- The documents of the second store are those of the first, and one that was over is
unchanged. -/
def OverKept (s t : Store) : Prop :=
  s.supply ≤ t.supply ∧ ∀ room' ∈ t.db.rooms, room'.roomId < s.supply →
    ∃ room ∈ s.db.rooms, room.roomId = room'.roomId ∧ (room.isOpen = false → room' = room)

theorem run_over_kept {s t : Store} (hs : system.Reachable KeepsExpired s)
    (h : system.Run KeepsExpired s t) : OverKept s t := by
  refine h.relates (R := OverKept) (fun s => ?_) (fun s t u hst htu => ?_)
    (fun s op t hs hg ht => ?_) hs
  · exact ⟨le_rfl, fun room' hr' _ => ⟨room', hr', rfl, fun _ => rfl⟩⟩
  · refine ⟨hst.1.trans htu.1, fun room₂ hr₂ hlt => ?_⟩
    obtain ⟨room₁, hr₁, hid₁, hkept₁⟩ := htu.2 room₂ hr₂ (hlt.trans_le hst.1)
    obtain ⟨room₀, hr₀, hid₀, hkept₀⟩ := hst.2 room₁ hr₁ (hid₁ ▸ hlt)
    refine ⟨room₀, hr₀, hid₀.trans hid₁, fun shut => ?_⟩
    have hmiddle : room₁ = room₀ := hkept₀ shut
    exact (hkept₁ (hmiddle ▸ shut)).trans hmiddle
  · subst ht
    have hhoused := reachable_full hs
    refine ⟨(Nat.le_add_right _ _).trans (step_supply s op), fun room' hr' hlt => ?_⟩
    obtain ⟨room, hopened⟩ | hstrokes :=
      step_strokes op hhoused.ids.nodup fun room hr => (hhoused.ids.rooms room hr).ne
    · rw [hopened.rooms, List.mem_append, List.mem_singleton] at hr'
      rcases hr' with hr' | rfl
      · exact ⟨room', hr', rfl, fun _ => rfl⟩
      · exact absurd hopened.roomId hlt.ne
    · obtain ⟨room, hr, hid⟩ := List.mem_map.mp
        (hstrokes.changes.ids.subset (List.mem_map_of_mem hr'))
      exact ⟨room, hr, hid, fun shut => hstrokes.frozen hhoused.housed hr shut hr' hid.symm⟩

/-! ## Seats, credentials and closed rooms -/

/-- What the documents and the credential rows of a store agree on. -/
structure SeatsAndCredentials (s : Store) : Prop where
  /-- One member sits in seat A: the owner, who has not left. -/
  owner : ∀ room ∈ s.db.rooms, room.members.countP (·.seat = .memberA) = 1 ∧
    ∀ m ∈ room.members, m.seat = .memberA → m.memberId = room.ownerMemberId ∧ m.onlineState ≠ .left
  /-- At most one member of seat B has not left. -/
  partner : ∀ room ∈ s.db.rooms,
    room.members.countP (fun m => m.seat = .memberB ∧ m.onlineState ≠ .left) ≤ 1
  /-- An active row is that of a member of an open room who is online or reconnecting. -/
  active : ∀ row ∈ s.db.credentials, row.active = true →
    ∃ room ∈ s.db.rooms, room.roomId = row.roomId ∧ room.isOpen = true ∧
      ∃ m ∈ room.members, m.memberId = row.memberId ∧ m.onlineState.present = true
  /-- Every such member has exactly one. -/
  one : ∀ room ∈ s.db.rooms, room.isOpen = true → ∀ m ∈ room.members,
    m.onlineState.present = true →
    s.db.credentials.countP
      (fun row => row.active && row.roomId = room.roomId && row.memberId = m.memberId) = 1

theorem Database.Housed.countP_one {db : Database} (h : db.Housed True) {roomId : RoomId}
    {id : MemberId}
    (hcredited : db.Credited roomId id) :
    db.credentials.countP
      (fun row => row.active && row.roomId = roomId && row.memberId = id) = 1 := by
  have hsome : 0 < db.credentials.countP
      (fun row => row.active && row.roomId = roomId && row.memberId = id) := by
    obtain ⟨row, hrow, hactive, hroom, hmember⟩ := hcredited
    exact List.countP_pos_iff.mpr ⟨row, hrow, by simp [hactive, hroom, hmember]⟩
  have hmost : db.credentials.countP
      (fun row => row.active && row.roomId = roomId && row.memberId = id) ≤ 1 := by
    have hnodup : ((db.credentials.map (·.memberId)).count id) ≤ 1 :=
      List.nodup_iff_count_le_one.mp (db.owners_members ▸ h.rows) id
    rw [List.count_eq_countP, List.countP_map] at hnodup
    refine (List.countP_mono_left fun row _ hrow => ?_).trans hnodup
    simp only [Bool.and_eq_true, decide_eq_true_eq] at hrow
    simpa using hrow.2
  omega

theorem Store.Housed.seats {s : Store} (h : s.Housed True) : SeatsAndCredentials s where
  owner room hr := by
    have hseated := h.housed.seated room hr
    refine ⟨?_, fun m hm hseat => hseated.owner m.place (List.mem_map_of_mem hm) hseat⟩
    have hone := hseated.one
    rwa [Room.places, List.countP_map] at hone
  partner room hr := by
    have hpartner := (h.housed.seated room hr).partner
    rwa [Room.places, List.countP_map] at hpartner
  active row hrow hactive := by
    obtain ⟨room, hr, hid, hopen, p, hp, hmember, hpresent⟩ :=
      h.housed.bearers row.roomId row.memberId ⟨row, hrow, hactive, rfl, rfl⟩
    obtain ⟨m, hm, rfl⟩ := List.mem_map.mp hp
    exact ⟨room, hr, hid, hopen, m, hm, hmember, hpresent⟩
  one room hr isOpen m hm hpresent := by
    refine h.housed.countP_one (h.housed.issued trivial room.roomId m.memberId ?_)
    exact ⟨room, hr, rfl, isOpen, m.place, List.mem_map_of_mem hm, rfl, hpresent⟩

/-- In every run in which no report completes the pair in a room that its own load has just
expired: the documents and the credential rows agree in every state, and a room that is
closed or expired is never written again. -/
theorem seats_and_credentials {s : Store} (hs : system.Reachable KeepsExpired s) :
    SeatsAndCredentials s ∧ ∀ t, system.Run KeepsExpired s t → ∀ room ∈ s.db.rooms,
      room.isOpen = false → ∀ room' ∈ t.db.rooms, room'.roomId = room.roomId → room' = room := by
  have hhoused := reachable_full hs
  refine ⟨hhoused.seats, fun t ht room hr shut room' hr' hid => ?_⟩
  obtain ⟨-, hkept⟩ := run_over_kept hs ht
  obtain ⟨room₀, hr₀, hid₀, hroom⟩ := hkept room' hr' (hid ▸ hhoused.ids.rooms room hr)
  obtain rfl := hhoused.ids.unique hr₀ hr (hid₀.trans hid)
  exact hroom shut

/-- The owner of the started room closes it. -/
def closeCall : Op := .mutate 1 0 3 "x" .close {} none

/-- After the owner closed the room nobody may join it. -/
theorem seats_and_credentials_closed :
    ∃ room ∈ (Store.initial.run (startedCalls ++ [closeCall])).db.rooms, room.isOpen = false ∧
      SeatsAndCredentials (Store.initial.run (startedCalls ++ [closeCall])) ∧
      ∀ room' ∈
          (Store.initial.run (startedCalls ++ [closeCall, .join 2 "CODE" "c" "k" "z"])).db.rooms,
        room'.roomId = room.roomId → room' = room := by
  have hguard : ∀ s : Store, (startedCalls ++ [closeCall]).Forall (KeepsExpired s) :=
    fun s => ⟨id, id, id, id, id⟩
  obtain ⟨hseats, hover⟩ := seats_and_credentials (reachable_calls _ hguard)
  have hclosed :
      (Store.initial.run (startedCalls ++ [closeCall])).db.rooms.any (!·.isOpen) = true := by
    decide
  obtain ⟨room, hr, hopen⟩ := List.any_eq_true.mp hclosed
  have hopen : room.isOpen = false := by simpa using hopen
  refine ⟨room, hr, hopen, hseats, hover _ ?_ room hr hopen⟩
  exact .step (i := .join 2 "CODE" "c" "k" "z") id rfl

/-- The second report arrives when the room is due: its load expires the room and revokes
both credentials, and the D6 transition then opens the room again. -/
theorem late_report_reopens_room :
    ¬ ∀ s, system.Reachable System.Free s →
      SeatsAndCredentials s ∧ ∀ t, system.Run System.Free s t → ∀ room ∈ s.db.rooms,
        room.isOpen = false → ∀ room' ∈ t.db.rooms, room'.roomId = room.roomId → room' = room := by
  intro h
  let s := Store.initial.run (startedCalls ++
    [closingCall .canceled, reportCall 2 3 .memberA 5, reportCall roomTtlSeconds 8 .memberB 7])
  have hbad : s.db.rooms.any (fun room => room.isOpen && room.members.any fun m =>
      m.onlineState.present && s.db.credentials.countP
        (fun row => row.active && row.roomId = room.roomId && row.memberId = m.memberId) = 0) =
      true := by
    decide
  obtain ⟨room, hr, hbad⟩ := List.any_eq_true.mp hbad
  simp only [Bool.and_eq_true, List.any_eq_true, decide_eq_true_eq] at hbad
  obtain ⟨hopen, m, hm, hpresent, hnone⟩ := hbad
  have hone := (h s (reachable_free _)).1.one room hr hopen m hm hpresent
  simp [hnone] at hone

end SwitchTrade.Authority

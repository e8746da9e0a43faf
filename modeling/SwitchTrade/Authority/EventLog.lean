import SwitchTrade.Authority.AttemptRun

/-!
# The event log is the version history

Every commit counts the version of one document up and appends one event that carries the
new version. `Database.Logged` says what that leaves: the events of a room carry the
versions `1, 2, …` up to the version of its document. A client that pages `events` after the
last sequence it has seen reads that history in order (`Reader`).
-/

namespace SwitchTrade.Authority

open Fallible Transition

/-- The events of one room as they stand in the table. -/
def Database.rowsOf (db : Database) (roomId : RoomId) : List EventRow :=
  db.events.filter (·.roomId = roomId)

/-- The events of one room, ordered by sequence. -/
def Database.eventsOf (db : Database) (roomId : RoomId) : List EventRow :=
  sortRows (·.sequence) (db.rowsOf roomId)

/-- The events of the room are the history of its versions. -/
structure Database.History (db : Database) (room : Room) : Prop where
  versions : (db.eventsOf room.roomId).map (·.roomVersion) = List.range' 1 room.roomVersion
  increasing : (db.eventsOf room.roomId).Pairwise (·.sequence < ·.sequence)
  last : (db.eventsOf room.roomId).getLast?.map (·.sequence) = some room.lastEventSequence

/-! ## The invariant -/

/-- The events of a room as they stand in the table are the history of its document. -/
def Database.Recorded (db : Database) (room : Room) : Prop :=
  (db.rowsOf room.roomId).map (·.roomVersion) = List.range' 1 room.roomVersion ∧
    (db.rowsOf room.roomId).getLast?.map (·.sequence) = some room.lastEventSequence

structure Database.Logged (db : Database) : Prop where
  keyed : Keyed (·.sequence) db.events
  bounded : ∀ e ∈ db.events, e.sequence ≤ db.eventSequence
  owned : ∀ e ∈ db.events, e.roomId ∈ db.rooms.map (·.roomId)
  recorded : ∀ room ∈ db.rooms, db.Recorded room

namespace Database

variable {db : Database}

theorem Logged.eventsOf (h : db.Logged) (roomId : RoomId) :
    db.eventsOf roomId = db.rowsOf roomId :=
  (h.keyed.sublist List.filter_sublist).sortRows_eq

theorem Logged.history (h : db.Logged) {room : Room} (hr : room ∈ db.rooms) : db.History room := by
  obtain ⟨versions, last⟩ := h.recorded room hr
  have hrows := h.eventsOf room.roomId
  refine ⟨by rw [hrows, versions], ?_, by rw [hrows, last]⟩
  rw [hrows]
  exact h.keyed.increasing.sublist List.filter_sublist

section Commit

variable {now : Time} {r : Room} {event : String} {actor : Option MemberId} {data : EventData}

/-- The row one commit appends. -/
def commitRow (db : Database) (now : Time) (r : Room) (event : String) (actor : Option MemberId)
    (data : EventData) : EventRow :=
  { sequence := db.eventSequence + 1, roomId := r.roomId, roomVersion := r.roomVersion + 1
    eventType := event, actorMemberId := actor, occurredAt := now, data }

theorem commit_events : (db.commit now r event actor data).events =
    db.events ++ [db.commitRow now r event actor data] := rfl

theorem commit_ids : (db.commit now r event actor data).rooms.map (·.roomId) =
    db.rooms.map (·.roomId) :=
  save_ids (db.record now r event actor data).1

theorem commit_rows_other {roomId : RoomId} (other : r.roomId ≠ roomId) :
    (db.commit now r event actor data).rowsOf roomId = db.rowsOf roomId := by
  have hskip : [db.commitRow now r event actor data].filter (·.roomId = roomId) = [] := by
    simp [commitRow, other]
  rw [rowsOf, commit_events, List.filter_append, hskip, List.append_nil, rowsOf]

theorem commit_rows_own :
    (db.commit now r event actor data).rowsOf r.roomId =
      db.rowsOf r.roomId ++ [db.commitRow now r event actor data] := by
  have hkeep : [db.commitRow now r event actor data].filter (·.roomId = r.roomId) =
      [db.commitRow now r event actor data] := by
    simp [commitRow]
  rw [rowsOf, commit_events, List.filter_append, hkeep, rowsOf]

/-- One commit appends the event of the version it counts up to. -/
theorem Logged.commit (h : db.Logged) {room : Room} (held : room ∈ db.rooms)
    (header : r.header = room.header) : (db.commit now r event actor data).Logged := by
  have hid : r.roomId = room.roomId := congrArg (·.roomId) header
  have hversion : r.roomVersion = room.roomVersion := congrArg (·.roomVersion) header
  refine ⟨?_, ?_, ?_, fun room' hr' => ?_⟩
  · exact h.keyed.append (Nat.succ_pos _) fun e he => Nat.lt_succ_of_le (h.bounded e he)
  · intro e he
    rcases List.mem_append.mp he with he | he
    · exact (h.bounded e he).trans (Nat.le_succ _)
    · rw [List.mem_singleton.mp he]
      exact le_rfl
  · intro e he
    rw [commit_ids]
    rcases List.mem_append.mp he with he | he
    · exact h.owned e he
    · rw [List.mem_singleton.mp he]
      exact List.mem_map.mpr ⟨room, held, hid.symm⟩
  · rcases mem_save hr' with ⟨hr', hother⟩ | rfl
    · have hother' : r.roomId ≠ room'.roomId := fun heq => hother heq.symm
      rw [Recorded, commit_rows_other hother']
      exact h.recorded room' hr'
    · obtain ⟨versions, -⟩ := h.recorded room held
      rw [← hid, ← hversion] at versions
      refine ⟨?_, ?_⟩
      · show ((db.commit now r event actor data).rowsOf r.roomId).map _ =
          List.range' 1 (r.roomVersion + 1)
        rw [commit_rows_own, List.map_append, versions, List.range'_1_concat, Nat.add_comm 1]
        rfl
      · show ((db.commit now r event actor data).rowsOf r.roomId).getLast?.map _ =
          some (db.eventSequence + 1)
        rw [commit_rows_own, List.getLast?_concat]
        rfl

end Commit

/-- A room that stays keeps its rows. -/
theorem purge_rows (nodup : (db.rooms.map (·.roomId)).Nodup) {now : Time} {roomId : RoomId}
    (kept : roomId ∈ (db.purge now).rooms.map (·.roomId)) :
    (db.purge now).rowsOf roomId = db.rowsOf roomId := by
  obtain ⟨room, hr, rfl⟩ := List.mem_map.mp kept
  rw [purge_rooms] at hr
  obtain ⟨hold, hlive⟩ := List.mem_filter.mp hr
  rw [rowsOf, purge_events, List.filter_filter, rowsOf]
  refine List.filter_congr fun e _ => ?_
  by_cases hown : e.roomId = room.roomId
  · rw [hown, gone_kept nodup hold, hlive]
    simp
  · simp [hown]

/-- Deleting dead rooms takes their events with them, and no others. -/
theorem Logged.purge (h : db.Logged) (nodup : (db.rooms.map (·.roomId)).Nodup) (now : Time) :
    (db.purge now).Logged := by
  refine ⟨?_, ?_, ?_, fun room hr => ?_⟩
  · rw [purge_events]
    exact h.keyed.sublist List.filter_sublist
  · rw [purge_events]
    exact fun e he => h.bounded e (List.mem_filter.mp he).1
  · rw [purge_events, purge_rooms]
    intro e he
    obtain ⟨hold, hkept⟩ := List.mem_filter.mp he
    obtain ⟨room, hr, hid⟩ := List.mem_map.mp (h.owned e hold)
    rw [← hid, gone_kept nodup hr] at hkept
    exact List.mem_map.mpr ⟨room, List.mem_filter.mpr ⟨hr, hkept⟩, hid⟩
  · rw [Recorded, purge_rows nodup (List.mem_map_of_mem hr)]
    rw [purge_rooms] at hr
    exact h.recorded room (List.mem_filter.mp hr).1

end Database

theorem Change.logged {s : Store} {op : Op} {db db' : Database} (h : Change s op db db')
    (nodup : (db.rooms.map (·.roomId)).Nodup) (logged : db.Logged) : db'.Logged := by
  cases h with
  | sideTables => exact ⟨logged.keyed, logged.bounded, logged.owned, logged.recorded⟩
  | commit room event actor data held written => exact logged.commit held written.header
  | purge => exact logged.purge nodup op.now

theorem Changes.logged {s : Store} {op : Op} {db db' : Database} (h : Changes s op db db')
    (nodup : (db.rooms.map (·.roomId)).Nodup) (logged : db.Logged) : db'.Logged := by
  induction h with
  | refl => exact logged
  | tail hfirst hlast ih => exact hlast.logged (Changes.ids hfirst |>.nodup nodup) ih

theorem Opened.logged {s : Store} {db : Database} {room : Room} (h : Opened s db room)
    (ids : s.Ids) (logged : s.db.Logged) : db.Logged := by
  obtain ⟨e, hevents, hroom, hversion, hsequence⟩ := h.events
  have hfresh : ∀ room' ∈ s.db.rooms, room'.roomId ≠ room.roomId := fun room' hr' =>
    (h.roomId ▸ ids.rooms room' hr').ne
  have hown : e.roomId = room.roomId := hroom.trans h.roomId.symm
  refine ⟨?_, ?_, ?_, fun room' hr' => ?_⟩
  · rw [hevents]
    exact logged.keyed.append (hsequence ▸ Nat.succ_pos _) fun e' he =>
      hsequence ▸ Nat.lt_succ_of_le (logged.bounded e' he)
  · rw [hevents, h.eventSequence]
    intro e' he
    rcases List.mem_append.mp he with he | he
    · exact (logged.bounded e' he).trans (Nat.le_succ _)
    · rw [List.mem_singleton.mp he, hsequence]
  · rw [hevents, h.rooms, List.map_append]
    intro e' he
    rcases List.mem_append.mp he with he | he
    · exact List.mem_append_left _ (logged.owned e' he)
    · rw [List.mem_singleton.mp he, hown]
      exact List.mem_append_right _ (List.mem_singleton_self _)
  · rw [h.rooms, List.mem_append, List.mem_singleton] at hr'
    rw [Database.Recorded, Database.rowsOf, hevents, List.filter_append]
    rcases hr' with hr' | rfl
    · have hskip : [e].filter (·.roomId = room'.roomId) = [] := by
        simp [hown, (hfresh room' hr').symm]
      rw [hskip, List.append_nil]
      exact logged.recorded room' hr'
    · have hnone : s.db.events.filter (·.roomId = room'.roomId) = [] := by
        rw [List.filter_eq_nil_iff]
        intro e' he
        obtain ⟨room, hr, hid⟩ := List.mem_map.mp (logged.owned e' he)
        simpa [hid] using hfresh room hr
      have hkeep : [e].filter (·.roomId = room'.roomId) = [e] := by simp [hown]
      rw [hnone, hkeep, h.roomVersion, h.lastEventSequence]
      exact ⟨by simp [hversion], by simp [hsequence]⟩

theorem step_logged {s : Store} (ids : s.Ids) (logged : s.db.Logged) (op : Op) :
    (s.step op).db.Logged := by
  obtain ⟨room, hopened⟩ | hstrokes :=
    step_strokes op ids.nodup fun room hr => (ids.rooms room hr).ne
  · exact hopened.logged ids logged
  · exact hstrokes.changes.logged ids.nodup logged

theorem empty_logged : Database.empty.Logged :=
  ⟨.nil, fun _ he => (List.not_mem_nil he).elim, fun _ he => (List.not_mem_nil he).elim,
    fun _ hr => (List.not_mem_nil hr).elim⟩

theorem reachable_logged {G : Store → Op → Prop} {s : Store} (h : system.Reachable G s) :
    s.Ids ∧ s.db.Logged := by
  refine h.invariant (P := fun s => s.Ids ∧ s.db.Logged) (fun s hs => ?_) fun s op t hs _ ht => ?_
  · exact ⟨reachable_ids (G := G) (.init hs), by subst hs; exact empty_logged⟩
  · subst ht
    exact ⟨step_ids hs.1 op, step_logged hs.1 hs.2 op⟩

/-! ## A room that stays only adds to its history -/

theorem Change.rows_prefix {s : Store} {op : Op} {db db' : Database} (h : Change s op db db')
    (nodup : (db.rooms.map (·.roomId)).Nodup) {roomId : RoomId}
    (kept : roomId ∈ db'.rooms.map (·.roomId)) : db.rowsOf roomId <+: db'.rowsOf roomId := by
  cases h with
  | sideTables => exact List.prefix_rfl
  | @commit room r event actor data held written =>
    by_cases hown : r.roomId = roomId
    · subst hown
      rw [Database.commit_rows_own]
      exact List.prefix_append ..
    · rw [Database.commit_rows_other hown]
  | purge => rw [Database.purge_rows nodup kept]

theorem Changes.rows_prefix {s : Store} {op : Op} {db db' : Database} (h : Changes s op db db')
    (nodup : (db.rooms.map (·.roomId)).Nodup) {roomId : RoomId}
    (kept : roomId ∈ db'.rooms.map (·.roomId)) : db.rowsOf roomId <+: db'.rowsOf roomId := by
  induction h with
  | refl => exact List.prefix_rfl
  | tail hfirst hlast ih =>
    have hmiddle := hlast.rows_prefix (Changes.ids hfirst |>.nodup nodup) kept
    exact (ih (hlast.ids.subset kept)).trans hmiddle

/-! ## Reading the history page by page -/

/-- A client of one room, and the events it has read. -/
structure Reader where
  store : Store
  seen : List EventRow

inductive ReadLabel where
  | call (op : Op)
  | page (now : Time) (bearer : Token) (limit : Int)

/-- The client asks for what follows the last sequence it has seen. -/
def Reader.ask (c : Reader) (roomId : RoomId) (now : Time) (bearer : Token) (limit : Int) :
    Except Exn EventPage × Store :=
  c.store.events now roomId bearer (cursor (·.sequence) c.seen) limit

/-- An answered page is appended to what was read. -/
def Reader.read (c : Reader) (roomId : RoomId) (now : Time) (bearer : Token) (limit : Int) :
    Reader :=
  match c.ask roomId now bearer limit with
  | (.ok page, store) => { store, seen := c.seen ++ page.events }
  | (.error _, store) => { c with store }

/-- A client of one room among any other calls of the store. -/
def reading (roomId : RoomId) : System Reader ReadLabel where
  init c := c = { store := .initial, seen := [] }
  next c label c' :=
    match label with
    | .call op => c' = { c with store := c.store.step op }
    | .page now bearer limit => c' = c.read roomId now bearer limit

/-- What a reader holds is the first part of the history of its room, while the room is
there. -/
structure Reader.Sound (roomId : RoomId) (c : Reader) : Prop where
  ids : c.store.Ids
  logged : c.store.db.Logged
  old : c.seen = [] ∨ roomId < c.store.supply
  known : roomId ∈ c.store.db.rooms.map (·.roomId) → c.seen <+: c.store.db.rowsOf roomId
  versions : c.seen.map (·.roomVersion) = List.range' 1 c.seen.length

theorem step_rows_prefix {s : Store} (ids : s.Ids) (op : Op) {roomId : RoomId}
    (older : roomId < s.supply) (kept : roomId ∈ (s.step op).db.rooms.map (·.roomId)) :
    roomId ∈ s.db.rooms.map (·.roomId) ∧ s.db.rowsOf roomId <+: (s.step op).db.rowsOf roomId := by
  obtain ⟨room, hopened⟩ | hstrokes :=
    step_strokes op ids.nodup fun room hr => (ids.rooms room hr).ne
  · obtain ⟨e, hevents, -, -, -⟩ := hopened.events
    rw [hopened.rooms, List.map_append, List.mem_append, List.map_singleton, List.mem_singleton]
      at kept
    rcases kept with kept | hnew
    · refine ⟨kept, ?_⟩
      rw [Database.rowsOf, Database.rowsOf, hevents, List.filter_append]
      exact List.prefix_append ..
    · exact absurd (hnew.trans hopened.roomId) older.ne
  · exact ⟨hstrokes.changes.ids.subset kept, hstrokes.changes.rows_prefix ids.nodup kept⟩

/-- An answered page: the room was loaded, and the rows after the cursor were read. -/
theorem events_ok {s s' : Store} {now : Time} {roomId : RoomId} {bearer : Token}
    {after limit : Int} {answer : EventPage}
    (h : s.events now roomId bearer after limit = (.ok answer, s')) :
    ∃ room ∈ s'.db.rooms, room.roomId = roomId ∧
      Strokes s (.expire now roomId) s.db s'.db ∧ s'.supply = s.supply + drawsPerCall ∧
      answer.events = page (·.sequence) (max 0 after).toNat (max 1 (min limit 100)).toNat
        (s'.db.rowsOf roomId) := by
  unfold Store.events Store.transaction at h
  simp only at h
  split at h
  · rename_i answer' db' hok
    simp only [Prod.mk.injEq, Except.ok.injEq] at h
    obtain ⟨rfl, rfl⟩ := h
    simp only [bind_eq_ok, pure_eq_ok, Prod.mk.injEq] at hok
    obtain ⟨⟨db₁, room, memberId⟩, hcredentials, rfl, rfl⟩ := hok
    obtain ⟨hstrokes, hmem, hid, -⟩ :=
      @credentialsFor_strokes s (.expire now roomId) _ _ _ _ _ _ hcredentials
    exact ⟨room, hmem, hid, hstrokes, rfl, rfl⟩
  · simp at h

theorem events_error {s s' : Store} {now : Time} {roomId : RoomId} {bearer : Token}
    {after limit : Int} {e : Exn} (h : s.events now roomId bearer after limit = (.error e, s')) :
    s' = { s with supply := s.supply + drawsPerCall } := by
  unfold Store.events Store.transaction at h
  simp only at h
  split at h
  · simp at h
  · simp only [Prod.mk.injEq] at h
    exact h.2.symm

namespace Reader.Sound

variable {roomId : RoomId} {c : Reader}

theorem call (h : c.Sound roomId) (op : Op) :
    ({ c with store := c.store.step op } : Reader).Sound roomId := by
  have hsupply : c.store.supply ≤ (c.store.step op).supply :=
    (Nat.le_add_right _ _).trans (step_supply c.store op)
  refine ⟨step_ids h.ids op, step_logged h.ids h.logged op, ?_, fun kept => ?_, h.versions⟩
  · exact h.old.imp_right fun older => older.trans_le hsupply
  · rcases h.old with hnone | older
    · show c.seen <+: _
      rw [hnone]
      exact List.nil_prefix
    · obtain ⟨held, hrows⟩ := step_rows_prefix h.ids op older kept
      exact (h.known held).trans hrows

/-- What an answered page adds is what comes next in the history. -/
theorem answered (h : c.Sound roomId) {now : Time} {bearer : Token} {limit : Int}
    {answer : EventPage} {store : Store}
    (hask : c.ask roomId now bearer limit = (.ok answer, store)) :
    ({ store, seen := c.seen ++ answer.events } : Reader).Sound roomId ∧
      (∃ room ∈ store.db.rooms, room.roomId = roomId) ∧
      (answer.events = [] → c.seen = store.db.rowsOf roomId) := by
  obtain ⟨room, hr, hid, hstrokes, hsupply, hpage⟩ := events_ok hask
  have hchanges := hstrokes.changes
  have hlater : c.store.supply < store.supply := by
    rw [hsupply]
    exact Nat.lt_add_of_pos_right (by decide)
  have hids : store.Ids := hchanges.store_ids h.ids hlater
  have hlogged : store.db.Logged := hchanges.logged h.ids.nodup h.logged
  have hkept : roomId ∈ store.db.rooms.map (·.roomId) := List.mem_map.mpr ⟨room, hr, hid⟩
  have hheld : roomId ∈ c.store.db.rooms.map (·.roomId) := hchanges.ids.subset hkept
  have hseen : c.seen <+: store.db.rowsOf roomId :=
    (h.known hheld).trans (hchanges.rows_prefix h.ids.nodup hkept)
  have hkeyed : Keyed (·.sequence) (store.db.rowsOf roomId) :=
    hlogged.keyed.sublist List.filter_sublist
  have hafter : (max 0 (cursor (·.sequence) c.seen : Int)).toNat = cursor (·.sequence) c.seen := by
    omega
  have hlimit : 0 < (max 1 (min limit 100)).toNat := by omega
  obtain ⟨hnext, hend⟩ := hkeyed.read_prefix hseen hlimit
  rw [hafter] at hpage
  rw [← hpage] at hnext hend
  refine ⟨⟨hids, hlogged, .inr ((hid ▸ hids.rooms room hr)), fun _ => hnext, ?_⟩,
    ⟨room, hr, hid⟩, hend⟩
  -- A beginning of the versions `1, 2, …` is the versions up to its length.
  obtain ⟨rest, hrest⟩ := hnext
  have hversions := (hlogged.recorded room hr).1
  rw [hid, ← hrest, List.map_append] at hversions
  have hcut := congrArg (List.take (c.seen ++ answer.events).length) hversions
  rw [List.take_left' (by simp), List.take_range'_of_length_ge] at hcut
  · exact hcut
  · have hlength := congrArg List.length hversions
    rw [List.length_append, List.length_map, List.length_range'] at hlength
    omega

theorem read (h : c.Sound roomId) (now : Time) (bearer : Token) (limit : Int) :
    (c.read roomId now bearer limit).Sound roomId := by
  unfold Reader.read
  split
  · rename_i answer store hask
    exact (h.answered hask).1
  · rename_i e store hask
    obtain rfl := events_error hask
    have hlater : c.store.supply < c.store.supply + drawsPerCall :=
      Nat.lt_add_of_pos_right (by decide)
    refine ⟨⟨h.ids.nodup, fun room hr => (h.ids.rooms room hr).trans hlater,
      fun room hr a ha => (h.ids.attempts room hr a ha).trans hlater⟩, h.logged,
      h.old.imp_right fun older => older.trans hlater, h.known, h.versions⟩

theorem reachable {G : Reader → ReadLabel → Prop} (h : (reading roomId).Reachable G c) :
    c.Sound roomId := by
  refine h.invariant (fun c hc => ?_) fun c label c' hc _ hnext => ?_
  · subst hc
    exact ⟨reachable_ids (G := System.Free) (.init rfl), empty_logged, .inl rfl,
      fun _ => List.nil_prefix, rfl⟩
  · cases label with
    | call op =>
      subst hnext
      exact hc.call op
    | page now bearer limit =>
      subst hnext
      exact hc.read now bearer limit

end Reader.Sound

/-- In every reachable state the events of a room carry the versions `1, 2, …` up to the
version of its document, whose `last_event_sequence` is that of the last one. A client that
pages `events` after the last sequence it has seen has read the versions `1, 2, …` in order,
each once; every further page adds what comes next in the history, and a page is empty only
when the whole history has been read. -/
theorem event_log_is_version_history :
    (∀ s, system.Reachable System.Free s → ∀ room ∈ s.db.rooms, s.db.History room) ∧
    ∀ roomId c, (reading roomId).Reachable System.Free c →
      c.seen.map (·.roomVersion) = List.range' 1 c.seen.length ∧
      ∀ now bearer limit answer store, c.ask roomId now bearer limit = (.ok answer, store) →
        ∃ room ∈ store.db.rooms, room.roomId = roomId ∧ store.db.History room ∧
          c.seen ++ answer.events <+: store.db.eventsOf roomId ∧
          (answer.events = [] → c.seen = store.db.eventsOf roomId) := by
  refine ⟨fun s hs room hr => (reachable_logged hs).2.history hr, fun roomId c hc => ?_⟩
  have hsound := Reader.Sound.reachable hc
  refine ⟨hsound.versions, fun now bearer limit answer store hask => ?_⟩
  obtain ⟨hnext, ⟨room, hr, hid⟩, hend⟩ := hsound.answered hask
  have hrows := hnext.logged.eventsOf roomId
  refine ⟨room, hr, hid, hnext.logged.history hr, ?_, ?_⟩
  · rw [hrows]
    exact hnext.known (List.mem_map.mpr ⟨room, hr, hid⟩)
  · rw [hrows]
    exact hend

theorem reading_calls (roomId : RoomId) (ops : List Op) :
    (reading roomId).Reachable System.Free { store := Store.initial.run ops, seen := [] } := by
  suffices hrun : ∀ (ops : List Op) (c : Reader), (reading roomId).Reachable System.Free c →
      (reading roomId).Reachable System.Free { c with store := c.store.run ops } from
    hrun ops _ (.init rfl)
  intro ops
  induction ops with
  | nil => exact fun c hc => hc
  | cons op ops ih => exact fun c hc => ih _ (hc.step (i := .call op) trivial rfl)

/-- The first member of a started room has read two of its four events. -/
def startedReader : Reader :=
  { store := Store.initial.run startedCalls, seen := [] : Reader }.read 0 0 3 2

theorem event_log_is_version_history_started :
    startedReader.seen.map (·.roomVersion) = List.range' 1 startedReader.seen.length ∧
      startedReader.seen.length = 2 ∧
      ∃ answer store, startedReader.ask 0 0 3 7 = (.ok answer, store) ∧ answer.events.length = 2 ∧
        startedReader.seen ++ answer.events <+: store.db.eventsOf 0 := by
  have hreach : (reading 0).Reachable System.Free startedReader :=
    (reading_calls 0 startedCalls).step (i := .page 0 3 2) trivial rfl
  obtain ⟨hversions, hpages⟩ := event_log_is_version_history.2 0 startedReader hreach
  have hanswer :
      ∃ answer, (startedReader.ask 0 0 3 7).1 = .ok answer ∧ answer.events.length = 2 := by
    have hlength :
        ((startedReader.ask 0 0 3 7).1.toOption.map (·.events.length)) = some 2 := by decide
    revert hlength
    cases (startedReader.ask 0 0 3 7).1 with
    | error e => simp [Except.toOption]
    | ok answer => exact fun hlength => ⟨answer, rfl, by simpa [Except.toOption] using hlength⟩
  obtain ⟨answer, hok, hlength⟩ := hanswer
  have hask : startedReader.ask 0 0 3 7 = (.ok answer, (startedReader.ask 0 0 3 7).2) :=
    Prod.ext hok rfl
  obtain ⟨-, -, -, -, hnext, -⟩ := hpages 0 3 7 answer _ hask
  exact ⟨hversions, by decide, answer, _, hask, hlength, hnext⟩

end SwitchTrade.Authority

import SwitchTrade.Authority.Reconnect

/-!
# A room with one member waits

A room whose partner is missing should be in `waiting_for_partner`, with a deadline that its
next load enforces. An attempt belongs to two members, so no write that ends an attempt
comes upon a room with one; what is left is `ready`, which writes the state of the room
whoever is there. `Room.Attended` is what every other write keeps.
-/

namespace SwitchTrade.Authority

open Fallible Relation Transition

namespace Room

variable {room r : Room} {now : Time} {fresh : AttemptId} {id memberId : MemberId}
  {payload : Payload} {event : String} {data : EventData} {revoked : Revoked}

/-! ## Counting the members that are there -/

theorem active_length : room.active.length = room.places.countP (·.onlineState ≠ .left) := by
  rw [← List.length_map (f := Member.place), active_places, List.countP_eq_length_filter]

theorem active_of_places (same : r.places = room.places) :
    r.active.length = room.active.length := by
  rw [active_length, active_length, same]

/-- A member that is there may change its state as long as it does not leave. -/
theorem active_become {state : OnlineState}
    (places : r.places = room.places.map (Place.become id state)) (stays : state ≠ .left)
    (alive : ∀ p ∈ room.places, p.memberId = id → p.onlineState ≠ .left) :
    r.active.length = room.active.length := by
  rw [active_length, active_length, places, List.countP_map]
  refine List.countP_congr fun p hp => ?_
  by_cases own : p.memberId = id
  · simp [Place.become_own own, stays, alive p hp own]
  · simp [Place.become_other own]

/-- One member fewer is there after one that was there has left. -/
theorem active_drop {p : Place}
    (places : r.places = room.places.map (Place.become p.memberId .left)) (held : p ∈ room.places)
    (alive : p.onlineState ≠ .left) :
    r.active.length < room.active.length := by
  rw [active_length, active_length, places, List.countP_map]
  have hmono : ∀ q : Place, decide ((q.become p.memberId .left).onlineState ≠ .left) = true →
      decide (q.onlineState ≠ .left) = true := by
    intro q
    by_cases own : q.memberId = p.memberId
    · simp [Place.become_own own]
    · simp [Place.become_other own]
  have hle : ∀ places : List Place,
      places.countP ((fun q => decide (q.onlineState ≠ .left)) ∘ Place.become p.memberId .left) ≤
        places.countP fun q => decide (q.onlineState ≠ .left) :=
    fun places => List.countP_mono_left fun q _ => hmono q
  obtain ⟨before, after, hsplit⟩ := List.append_of_mem held
  have hbefore := hle before
  have hafter := hle after
  have hgone : (p.become p.memberId .left).onlineState = .left := Place.become_own rfl
  rw [hsplit, List.countP_append, List.countP_append, List.countP_cons, List.countP_cons]
  simp only [Function.comp_apply, hgone, alive, ne_eq, not_true_eq_false, decide_false,
    Bool.false_eq_true, if_false, not_false_eq_true, decide_true, if_true]
  simp only [ne_eq] at hbefore hafter
  omega

/-- Besides the owner there is at most one member. -/
theorem Seated.active_le (h : room.Seated) : room.active.length ≤ 2 := by
  have hsplit : ∀ places : List Place, places.countP (·.onlineState ≠ .left) ≤
      places.countP (·.seat = .memberA) +
        places.countP (fun p => p.seat = .memberB ∧ p.onlineState ≠ .left) := by
    intro places
    induction places with
    | nil => simp
    | cons p places ih =>
      simp only [List.countP_cons]
      cases p.seat <;> by_cases hleft : p.onlineState = .left <;> simp [hleft] at ih ⊢ <;> omega
  have hone := h.one
  have hpartner := h.partner
  have := hsplit room.places
  rw [active_length]
  omega

/-! ## What a room with one member is in -/

/-- An attempt belongs to two members; a room that waits has a seat free; and an open room
with a seat free waits, no longer than it lives. -/
structure Attended (room : Room) : Prop where
  paired : room.attempt ≠ none → 2 ≤ room.active.length
  free : room.state = .waitingForPartner → room.active.length < 2
  waits : room.isOpen = true → room.active.length < 2 → room.state = .waitingForPartner ∧
    ∃ deadline, room.waitingExpiresAtEpoch = some deadline ∧ deadline ≤ room.expiresAtEpoch

/-- While both members are there it is enough that the room does not wait. -/
theorem Attended.full (full : 2 ≤ r.active.length) (busy : r.state ≠ .waitingForPartner) :
    r.Attended :=
  ⟨fun _ => full, fun hstate => absurd hstate busy,
    fun _ hfree => absurd full (Nat.not_le.mpr hfree)⟩

theorem Attended.busy (h : room.Attended) (full : 2 ≤ room.active.length) :
    room.state ≠ .waitingForPartner := fun hstate => absurd full (Nat.not_le.mpr (h.free hstate))

/-- A write that leaves the state and who is there alone keeps the rest. -/
theorem Attended.of_same (h : room.Attended) (active : r.active.length = room.active.length)
    (attempt : r.attempt ≠ none → room.attempt ≠ none) (state : r.state = room.state)
    (waiting : r.waitingExpiresAtEpoch = room.waitingExpiresAtEpoch)
    (expires : r.expiresAtEpoch = room.expiresAtEpoch) : r.Attended := by
  refine ⟨fun ha => ?_, fun hstate => ?_, fun hopen hfree => ?_⟩
  · rw [active]
    exact h.paired (attempt ha)
  · rw [active]
    exact h.free (state ▸ hstate)
  · have hopen' : room.isOpen = true := by
      unfold isOpen at hopen ⊢
      rw [← state]
      exact hopen
    rw [state, waiting, expires]
    exact h.waits hopen' (active ▸ hfree)

/-- A write to the attempt of a room, and to its state if that does not make it wait. -/
theorem Attended.of_attempt (h : room.Attended) (held : room.attempt ≠ none)
    (same : r.places = room.places) (state : r.state = room.state ∨ r.state ≠ .waitingForPartner) :
    r.Attended := by
  have hfull : 2 ≤ room.active.length := h.paired held
  refine .full ((active_of_places same).symm ▸ hfull) ?_
  rcases state with hstate | hstate
  · rw [hstate]
    exact h.busy hfull
  · exact hstate

theorem Attended.close (h : room.Attended) (same : r.places = room.places)
    (attempt : r.attempt ≠ none → room.attempt ≠ none) (shut : r.isOpen = false) : r.Attended := by
  have hactive := active_of_places same
  refine ⟨fun ha => hactive.symm ▸ h.paired (attempt ha), fun hstate => ?_, fun hopen => ?_⟩
  · simp [isOpen, hstate] at shut
  · simp [shut] at hopen

/-- When a member has left, the room waits for another. -/
theorem dropMember_attended {p : Place} (seated : room.Seated) (held : p ∈ room.places)
    (alive : p.onlineState ≠ .left) : (room.dropMember now p.memberId).Attended := by
  have hfree : (room.dropMember now p.memberId).active.length < 2 :=
    (active_drop dropMember_places held alive).trans_le seated.active_le
  exact ⟨fun ha => absurd rfl ha, fun _ => hfree, fun _ _ => ⟨rfl, _, rfl, Nat.min_le_right _ _⟩⟩

/-! ## What the writers leave -/

theorem setReadiness_attended (h : room.Attended) {ready : Bool} {role : Option SwitchRoomRole} :
    (room.setReadiness memberId ready role).Attended := by
  have hplaces : (room.setReadiness memberId ready role).places = room.places := setReadiness_places
  refine h.of_same (active_of_places hplaces) ?_ ?_ ?_ ?_ <;> unfold setReadiness <;> split
  · exact fun ha => absurd rfl ha
  · exact id
  all_goals rfl

theorem enterPhase_state {a : Attempt} {p : AttemptPhase} {code : Option String} :
    (room.enterPhase now a p code).state = room.state ∨
      (room.enterPhase now a p code).state ≠ .waitingForPartner := by
  unfold enterPhase
  simp only
  split
  · exact .inr (by simp)
  · split
    · exact .inr (by simp)
    · exact .inl rfl

/-- Every command but a `ready` that finds one member keeps the room well. -/
theorem dispatch_attended {act : Action} (h : room.Attended) (seated : room.Seated)
    (holds : room.Holds memberId)
    (full : act = .ready → (payload.ready.getD true = true → payload.switchRoomRole ≠ none) →
      2 ≤ room.active.length)
    (written : room.dispatch now fresh memberId act payload = .ok (.write r event data revoked)) :
    r.Attended := by
  obtain ⟨-, p, hp, rfl, hpresent⟩ := holds
  have halive : p.onlineState ≠ .left := SeatMove.present_alive hpresent
  have hboth : ∀ before : Room, before.places = room.places → 2 ≤ room.active.length →
      2 ≤ before.active.length := fun before hplaces htwo => (active_of_places hplaces).symm ▸ htwo
  cases dispatch_dispatched written with
  | chosen before a choice => exact choice ▸ setReadiness_attended h
  | begun before creator choice idle two =>
    exact .full (show 2 ≤ before.active.length from two.ge) (by simp [beginAttempt])
  | settled before state choice idle next named =>
    have htwo := hboth before (choice ▸ setReadiness_places) (full rfl named)
    refine .full (show 2 ≤ before.active.length from htwo) ?_
    rcases next with rfl | rfl <;> simp
  | heartbeat =>
    have hactive := active_become (@SeatMove.seen_places now room _) (by simp)
      (SeatMove.alive seated hp halive)
    exact h.of_same hactive id rfl rfl rfl
  | attempt creator idle two =>
    exact .full (show 2 ≤ room.active.length from two.ge) (by simp [beginAttempt])
  | claim a b held => exact h.of_attempt (by simp [held]) rfl (.inl rfl)
  | transfer a target held => exact h.of_attempt (by simp [held]) rfl (.inl rfl)
  | lockRole a held => exact h.of_attempt (by simp [held]) rfl (.inl rfl)
  | refine a code held => exact h.of_attempt (by simp [held]) rfl (.inl rfl)
  | enter a phase code held =>
    exact h.of_attempt (by simp [held]) enterPhase_places enterPhase_state
  | leave => exact dropMember_attended seated hp halive
  | removeOffline target owner pending held other offline =>
    have hthere : target.place.onlineState ≠ .left := by simp [Member.place, offline]
    exact dropMember_attended seated (List.mem_map_of_mem held) hthere
  | close => exact h.close rfl (by simp) rfl

theorem terminalizeD_attended (h : room.Attended) (held : room.attempt ≠ none) {a : Attempt}
    {d : DState} {status : BarrierStatus} {cleanup : CleanupStatus} {code : Option String} :
    (room.terminalizeD a d status cleanup code now).Attended :=
  h.of_attempt held unreadyActive_places (.inr (by simp [terminalizeD]))

theorem expireMember_attended (h : room.Attended) (seated : room.Seated) {i : Nat} {m : Member}
    (held : room.members[i]? = some m) (missed : m.onlineState = .reconnecting) :
    (room.expireMember now i).Attended := by
  have hlive : m.place.onlineState ≠ .left := by simp [Member.place, missed]
  have hactive : (room.expireMember now i).active.length = room.active.length :=
    active_become (SeatMove.lapse_places seated held) (by simp)
      (SeatMove.alive seated (SeatMove.place_held held) hlive)
  by_cases hattempt : room.attempt = none
  · refine h.of_same hactive ?_ ?_ ?_ ?_ <;> simp [expireMember, modifyAt, hattempt]
  · obtain ⟨a, ha⟩ := Option.ne_none_iff_exists'.mp hattempt
    refine .full (hactive.symm ▸ h.paired hattempt) ?_
    have hbusy := h.busy (h.paired hattempt)
    simp only [expireMember, modifyAt, ha]
    split
    · exact hbusy
    · simp

end Room

/-! ## Every call but one keeps the rooms well -/

/-- A member readies or unreadies in a room where it is the only one, and the choice is one
that `ready` takes. -/
def ReadiesAlone (s : Store) (op : Op) : Prop :=
  ∃ now roomId bearer commandId payload version room id,
    op = .mutate now roomId bearer commandId .ready payload version ∧
    s.db.Addresses now roomId bearer commandId (.member · .ready) room id ∧ room.isOpen = true ∧
    (payload.ready.getD true = true → payload.switchRoomRole ≠ none) ∧ room.active.length < 2

/-- No member readies or unreadies alone. -/
def ReadiesTogether (s : Store) (op : Op) : Prop := ¬ ReadiesAlone s op

section Stroke

variable {s : Store} {op : Op} {db db' : Database} {room r : Room}

/-- Whoever a command is carried out for is there, if the room is open. -/
theorem Database.Addresses.holds {full : Prop} (base : s.db.Housed full) {now : Time}
    {roomId : RoomId} {bearer : Token} {commandId : CommandId} {scope : MemberId → Scope}
    {id : MemberId} (h : s.db.Addresses now roomId bearer commandId scope room id)
    (isOpen : room.isOpen = true) : room.Holds id := by
  have hcredited := h.credited
  obtain ⟨db', hcredentials, -⟩ := h
  obtain ⟨-, loaded, hload⟩ := credentialsFor_ok hcredentials
  obtain ⟨-, hroom, -⟩ := load_open hload isOpen
  exact base.credited_room (Database.room?_mem hroom).1 id hcredited

theorem RoomWrite.attended (h : RoomWrite s op room r) (together : ReadiesTogether s op)
    (base : s.db.Housed False) (seated : room.Seated) (attended : room.Attended) : r.Attended := by
  cases h with
  | expire => exact attended.close rfl (fun ha => ha) rfl
  | mutate call addressed written =>
    obtain ⟨isOpen, -, -, -, hwritten⟩ := Room.mutate_write written
    refine Room.dispatch_attended attended seated (addressed.holds base isOpen)
      (fun hready htaken => ?_) hwritten
    subst hready
    exact Nat.not_lt.mp fun hfree =>
      together ⟨_, _, _, _, _, _, room, _, call, addressed, isOpen, htaken, hfree⟩
  | beginDClosing _ _ written =>
    obtain ⟨a, d, ha, -, -, -, rfl, -⟩ := Room.beginDClosing_write written
    exact attended.of_attempt (by simp [ha]) rfl (.inl rfl)
  | acknowledgeDQuiescent _ _ written =>
    obtain ⟨a, d, m, report, checked, rfl⟩ := Room.acknowledgeDQuiescent_write written
    have held : room.attempt ≠ none := by simp [checked.held]
    obtain ⟨-, heq⟩ | ⟨status, code, -, heq⟩ := @Room.recordQuiescent_cases room _ a d m.seat report
    · rw [heq]
      exact attended.of_attempt held rfl (.inl rfl)
    · rw [heq]
      exact Room.terminalizeD_attended attended held
  | join _ written =>
    obtain ⟨hfree, -, -, -, hplaces⟩ := Room.joinRoom_ok written
    obtain ⟨p, howner, -⟩ := seated.active_owner hfree
    simp only [Room.joinRoom, bind_eq_ok, raiseIf_eq_ok, pure_eq_ok] at written
    obtain ⟨-, -, rfl⟩ := written
    refine .full ?_ (by simp)
    rw [Room.active_length, hplaces, howner]
    have hp : p.onlineState ≠ .left := by
      have hmem : p ∈ room.places.filter (·.onlineState ≠ .left) :=
        howner ▸ List.mem_singleton_self p
      simpa using (List.mem_filter.mp hmem).2
    simp [hp]
  | @reconnect _ memberId _ _ written =>
    obtain ⟨m, hm, -, hleft, -, -, rfl⟩ := reconnectMember_ok written
    have hplace : m.place ∈ room.places := List.mem_map_of_mem (List.mem_of_find?_eq_some hm)
    have hid : m.memberId = memberId := by simpa using List.find?_some hm
    have hactive := Room.active_become (@SeatMove.seen_places op.now room _) (by simp)
      fun q hq hq' => SeatMove.alive seated hplace hleft q hq (hq'.trans hid.symm)
    exact attended.of_same hactive (fun ha => ha) rfl rfl rfl
  | fail _ written =>
    obtain ⟨a, ha, -, -, -, -, rfl⟩ := Room.failTransportAttempt_some written
    exact attended.of_attempt (by simp [ha]) Room.unreadyActive_places (.inr (by simp))
  | force _ written =>
    obtain ⟨a, d, ha, -, -, -, -, rfl⟩ := Room.forceDBarrier_some written
    exact Room.terminalizeD_attended attended (by simp [ha])
  | sweepBarrier _ written =>
    obtain ⟨a, d, ha, -, -, -, rfl⟩ := Room.sweepBarrier_some written
    exact Room.terminalizeD_attended attended (by simp [ha])
  | sweepMember _ written =>
    obtain ⟨m, hm, -, ⟨honline, -, rfl⟩ | ⟨hmissed, -, rfl⟩⟩ := Room.sweepMember_some written
    · have hlive : m.place.onlineState ≠ .left := by simp [Member.place, honline]
      have hactive := Room.active_become (@SeatMove.suspect_places op.now _ seated _ _ hm) (by simp)
        (SeatMove.alive seated (SeatMove.place_held hm) hlive)
      exact attended.of_same hactive (fun ha => ha) rfl rfl rfl
    · exact Room.expireMember_attended attended seated hm hmissed

theorem commit_attended {now : Time} {event : String} {actor : Option MemberId} {data : EventData}
    (h : ∀ room ∈ db.rooms, room.Attended) (written : r.Attended) :
    ∀ room ∈ (db.commit now r event actor data).rooms, room.Attended := by
  intro room hr
  rcases Database.mem_save hr with ⟨hr, -⟩ | rfl
  · exact h room hr
  · exact written.of_same rfl id rfl rfl rfl

theorem Stroke.attended (h : Stroke s op db db') (together : ReadiesTogether s op)
    (base : s.db.Housed False) (housed : db.Housed False)
    (attended : ∀ room ∈ db.rooms, room.Attended) : ∀ room ∈ db'.rooms, room.Attended := by
  have hwrite : ∀ {room r : Room}, room ∈ db.rooms → RoomWrite s op room r → r.Attended :=
    fun held written =>
      written.attended together base (housed.seated _ held) (attended _ held)
  cases h with
  | remember => exact attended
  | write room event actor data held written => exact commit_attended attended (hwrite held written)
  | join room display call held isOpen first written =>
    exact commit_attended attended (hwrite held (.join call written))
  | reconnect room row call held known own first written =>
    exact commit_attended attended (hwrite held (.reconnect call written))
  | purge =>
    intro room hr
    rw [Database.purge_rooms] at hr
    exact attended room (List.mem_filter.mp hr).1

theorem Strokes.attended (h : Strokes s op s.db db) (together : ReadiesTogether s op)
    (fresh : ∀ row ∈ s.db.credentials, row.memberId < s.supply) (base : s.db.Housed False)
    (attended : ∀ room ∈ s.db.rooms, room.Attended) : ∀ room ∈ db.rooms, room.Attended := by
  induction h with
  | refl => exact attended
  | tail hfirst hlast ih =>
    have housed := Strokes.housed hfirst (fun h => h.elim) fresh base
    exact hlast.attended together base housed ih

theorem Opened.attended {room : Room} (h : Opened s db room) : room.Attended := by
  have hfree : room.active.length < 2 := by
    rw [Room.active_length, h.places]
    simp
  exact ⟨fun ha => absurd h.attempt ha, fun _ => hfree, fun _ _ => ⟨h.state, h.deadline⟩⟩

end Stroke

theorem reachable_attended {s : Store} (h : system.Reachable ReadiesTogether s) :
    ∀ room ∈ s.db.rooms, room.Attended := by
  have hinv : s.Housed False ∧ ∀ room ∈ s.db.rooms, room.Attended := by
    refine h.invariant (P := fun s => s.Housed False ∧ ∀ room ∈ s.db.rooms, room.Attended)
      (fun s hs => ⟨reachable_housed (fun h => h.elim) (.init (G := ReadiesTogether) hs), ?_⟩)
      fun s op t hs together ht => ?_
    · subst hs
      exact fun room hr => (List.not_mem_nil hr).elim
    · obtain ⟨housed, attended⟩ := hs
      subst ht
      refine ⟨step_housed housed fun h => h.elim, fun room hr => ?_⟩
      obtain ⟨opened, hopened⟩ | hstrokes :=
        step_strokes op housed.ids.nodup fun room hr => (housed.ids.rooms room hr).ne
      · rw [hopened.rooms, List.mem_append, List.mem_singleton] at hr
        rcases hr with hr | rfl
        · exact attended room hr
        · exact hopened.attended
      · exact hstrokes.attended together housed.rows housed.housed attended room hr
  exact hinv.2

/-! ## Lonely rooms wait and expire -/

/-- The rooms of a store by how many members are there: an open room with one waits for a
partner until a deadline within its life, at which its next load expires it; one with two
does not wait. -/
def LonelyRoomsWait (s : Store) : Prop :=
  ∀ room ∈ s.db.rooms, room.isOpen = true →
    (room.active.length = 1 → room.state = .waitingForPartner ∧
      ∃ deadline, room.waitingExpiresAtEpoch = some deadline ∧ deadline ≤ room.expiresAtEpoch ∧
        ∀ now, deadline ≤ now → room.expiryDue now = some true) ∧
    (room.active.length = 2 → room.state ≠ .waitingForPartner)

/-- In every run in which nobody readies or unreadies alone, the rooms with one member wait
and expire. -/
theorem lonely_rooms_wait {s : Store} (hs : system.Reachable ReadiesTogether s) :
    LonelyRoomsWait s := by
  intro room hr isOpen
  have hattended := reachable_attended hs room hr
  refine ⟨fun hone => ?_, fun htwo => hattended.busy htwo.ge⟩
  obtain ⟨hstate, deadline, hdeadline, hlife⟩ := hattended.waits isOpen (by omega)
  refine ⟨hstate, deadline, hdeadline, hlife, fun now hdue => ?_⟩
  simp [Room.expiryDue, hstate, hdeadline, hdue]

/-- The owner of a new room waits. -/
theorem lonely_rooms_wait_owner :
    LonelyRoomsWait (Store.initial.run (startedCalls.take 1)) :=
  lonely_rooms_wait (reachable_calls _ fun s => by
    refine (List.forall_cons _ _ _).mpr ⟨?_, trivial⟩
    rintro ⟨_, _, _, _, _, _, _, _, heq, -⟩
    cases heq)

/-- The owner of a new room readies before anybody has joined: the room no longer waits. -/
theorem lonely_owner_readies : ¬ ∀ s, system.Reachable System.Free s → LonelyRoomsWait s := by
  intro h
  let s := Store.initial.run (startedCalls.take 1 ++ [readyCall 3 "r" .creator])
  have hbad : s.db.rooms.any (fun room => room.isOpen && room.active.length = 1 &&
      room.state ≠ .waitingForPartner) = true := by decide
  obtain ⟨room, hr, hbad⟩ := List.any_eq_true.mp hbad
  simp only [Bool.and_eq_true, decide_eq_true_eq] at hbad
  obtain ⟨⟨hopen, hone⟩, hstate⟩ := hbad
  exact hstate (((h s (reachable_free _)) room hr hopen).1 hone).1

end SwitchTrade.Authority

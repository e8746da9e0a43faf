import SwitchTrade.Authority.AttemptRun

/-!
# Seats, credentials and closed rooms

Membership is kept in two tables: the entries of a document say who sits where and is there,
the credential rows say who may speak. `Database.Housed` couples them: the bearers of active
credentials are exactly the members of open rooms that are there. Every write keeps it
(`Stroke.housed`) but one: a report that completes the pair in a room that has just expired
opens the room again after its credentials were taken away.
-/

namespace SwitchTrade.Authority

open Fallible Relation Transition

/-! ## Writing the state of one member -/

/-- A place after the state of one member was written. -/
def Place.become (id : MemberId) (state : OnlineState) (p : Place) : Place :=
  if p.memberId = id then { p with onlineState := state } else p

@[simp] theorem Place.become_memberId {id : MemberId} {state : OnlineState} (p : Place) :
    (p.become id state).memberId = p.memberId := by
  unfold become
  split <;> rfl

@[simp] theorem Place.become_seat {id : MemberId} {state : OnlineState} (p : Place) :
    (p.become id state).seat = p.seat := by
  unfold become
  split <;> rfl

theorem Place.become_own {id : MemberId} {state : OnlineState} {p : Place} (own : p.memberId = id) :
    (p.become id state).onlineState = state := by
  rw [become, if_pos own]

theorem Place.become_other {id : MemberId} {state : OnlineState} {p : Place}
    (other : p.memberId ≠ id) : p.become id state = p := by
  rw [become, if_neg other]

namespace Room

variable {room r : Room} {now : Time} {id : MemberId}

theorem modifyMember_become {f : Member → Member} {state : OnlineState}
    (hf : ∀ m, (f m).place = { m.place with onlineState := state }) :
    (room.modifyMember id f).places = room.places.map (Place.become id state) := by
  simp only [modifyMember, places, List.map_map]
  refine List.map_congr_left fun m _ => ?_
  simp only [Function.comp_apply, Place.become]
  by_cases own : m.memberId = id
  · rw [if_pos own, if_pos (show m.place.memberId = id from own), hf m]
  · rw [if_neg own, if_neg (show ¬ m.place.memberId = id from own)]

/-- Writing at the position of a member is writing to the member: nobody sits twice. -/
theorem modifyAt_modifyMember (nodup : (room.places.map (·.memberId)).Nodup) {i : Nat} {m : Member}
    (held : room.members[i]? = some m) (f : Member → Member) :
    room.modifyAt i f = room.modifyMember m.memberId f := by
  simp only [modifyAt, modifyMember, mk.injEq, true_and, and_true]
  refine List.ext_getElem? fun j => ?_
  rw [List.getElem?_modify, List.getElem?_map]
  cases hj : room.members[j]? with
  | none => rfl
  | some m' =>
    simp only [Option.map_some, Option.map_eq_map, Option.some.injEq]
    by_cases hij : i = j
    · subst hij
      obtain rfl := Option.some.inj (hj.symm.trans held)
      rw [if_pos rfl, if_pos rfl]
    · have hother : m'.memberId ≠ m.memberId := by
        intro heq
        have hids : ∀ k : Nat,
            (room.places.map (·.memberId))[k]? = room.members[k]?.map Member.memberId := by
          intro k
          simp only [places, List.map_map, List.getElem?_map]
          rfl
        have hi : i < (room.places.map (·.memberId)).length := by
          simpa [places] using (List.getElem?_eq_some_iff.mp held).1
        refine hij ((List.getElem?_inj hi nodup).mp ?_)
        rw [hids, hids, held, hj, Option.map_some, Option.map_some, heq]
      rw [if_neg hij, if_neg hother]

theorem dropMember_places :
    (room.dropMember now id).places = room.places.map (Place.become id .left) := by
  have hdropped : (room.modifyMember id fun m => { m with onlineState := .left }).places =
      room.places.map (Place.become id .left) := modifyMember_become fun _ => rfl
  exact unreadyAll_places.trans hdropped

theorem expireMember_places {i : Nat} :
    (room.expireMember now i).places =
      (room.modifyAt i fun m => { m.unready with onlineState := .offline }).places := by
  unfold expireMember
  simp only
  split
  · rfl
  · split
    · rfl
    · exact unreadyAll_places

/-! ## Seats -/

/-- One owner, who is in seat A and never leaves, and at most one partner. -/
structure Seated (room : Room) : Prop where
  ids : (room.places.map (·.memberId)).Nodup
  one : room.places.countP (·.seat = .memberA) = 1
  owner : ∀ p ∈ room.places, p.seat = .memberA →
    p.memberId = room.ownerMemberId ∧ p.onlineState ≠ .left
  partner : room.places.countP (fun p => p.seat = .memberB ∧ p.onlineState ≠ .left) ≤ 1

theorem Seated.of_places (h : room.Seated) (same : r.places = room.places)
    (owner : r.ownerMemberId = room.ownerMemberId) : r.Seated :=
  ⟨same ▸ h.ids, same ▸ h.one, by rw [same, owner]; exact h.owner, same ▸ h.partner⟩

theorem Seated.become (h : room.Seated) {state : OnlineState}
    (places : r.places = room.places.map (Place.become id state))
    (owner : r.ownerMemberId = room.ownerMemberId)
    (stays : state = .left → id ≠ room.ownerMemberId)
    (alive : state ≠ .left → ∀ p ∈ room.places, p.memberId = id → p.onlineState ≠ .left) :
    r.Seated := by
  refine ⟨?_, ?_, fun p' hp' hseat => ?_, ?_⟩
  · rw [places, List.map_map]
    simpa [Function.comp_def] using h.ids
  · rw [places, List.countP_map]
    simpa [Function.comp_def] using h.one
  · rw [places] at hp'
    obtain ⟨p, hp, rfl⟩ := List.mem_map.mp hp'
    obtain ⟨howner, hleft⟩ := h.owner p hp (by simpa using hseat)
    refine ⟨by rw [Place.become_memberId, howner, owner], ?_⟩
    by_cases own : p.memberId = id
    · rw [Place.become_own own]
      exact fun hstate => stays hstate (own.symm.trans howner)
    · rw [Place.become_other own]
      exact hleft
  · rw [places, List.countP_map]
    refine (List.countP_mono_left fun p hp hkeep => ?_).trans h.partner
    simp only [Function.comp_apply, Place.become_seat, ne_eq, Bool.decide_and, Bool.and_eq_true,
      decide_eq_true_eq] at hkeep ⊢
    refine ⟨hkeep.1, ?_⟩
    by_cases own : p.memberId = id
    · rw [Place.become_own own] at hkeep
      exact alive hkeep.2 p hp own
    · rw [Place.become_other own] at hkeep
      exact hkeep.2

/-- The members that are not gone are the places that are not left. -/
theorem active_places :
    room.active.map Member.place = room.places.filter (·.onlineState ≠ .left) := by
  rw [active, places, List.filter_map]
  rfl

/-- With one seat free, only the owner is there. -/
theorem Seated.active_owner (h : room.Seated) (free : room.active.length < 2) :
    ∃ p, room.places.filter (·.onlineState ≠ .left) = [p] ∧ p.seat = .memberA := by
  obtain ⟨p, hp, hseat⟩ := List.countP_pos_iff.mp (show 0 < room.places.countP (·.seat = .memberA)
    from h.one ▸ Nat.one_pos)
  have hseat : p.seat = .memberA := by simpa using hseat
  have hkept : p ∈ room.places.filter (·.onlineState ≠ .left) :=
    List.mem_filter.mpr ⟨hp, by simpa using (h.owner p hp hseat).2⟩
  have hlength : (room.places.filter (·.onlineState ≠ .left)).length < 2 := by
    rw [← active_places, List.length_map]
    exact free
  obtain ⟨q, hq⟩ := List.length_eq_one_iff.mp
    (show (room.places.filter (·.onlineState ≠ .left)).length = 1 by
      have := List.length_pos_of_mem hkept
      omega)
  rw [hq, List.mem_singleton] at hkept
  exact ⟨p, hkept ▸ hq, hseat⟩

theorem joinRoom_ok {display : String} (h : room.joinRoom now id display = .ok r) :
    room.active.length < 2 ∧ r.isOpen = true ∧ r.header = room.header ∧ r.attempt = room.attempt ∧
      r.places = room.places.filter (·.onlineState ≠ .left) ++ [⟨id, .memberB, .online⟩] := by
  simp only [joinRoom, bind_eq_ok, raiseIf_eq_ok, pure_eq_ok, not_le] at h
  obtain ⟨-, hfree, rfl⟩ := h
  refine ⟨hfree, rfl, rfl, rfl, ?_⟩
  rw [← active_places]
  simp [places, Member.place]

theorem Seated.join (h : room.Seated) {display : String}
    (fresh : ∀ p ∈ room.places, p.memberId ≠ id)
    (written : room.joinRoom now id display = .ok r) : r.Seated := by
  obtain ⟨free, -, header, -, hplaces⟩ := joinRoom_ok written
  obtain ⟨p, hactive, hseat⟩ := h.active_owner free
  have hp : p ∈ room.places := (List.mem_filter.mp (hactive ▸ List.mem_singleton_self p)).1
  rw [hactive, List.singleton_append] at hplaces
  have howner : r.ownerMemberId = room.ownerMemberId := congrArg (·.ownerMemberId) header
  refine ⟨?_, ?_, ?_, ?_⟩
  · rw [hplaces]
    simpa using fresh p hp
  · rw [hplaces]
    simp [hseat]
  · rw [hplaces, howner]
    intro q hq hA
    rcases List.mem_cons.mp hq with rfl | hq
    · exact h.owner q hp hA
    · rw [List.mem_singleton.mp hq] at hA
      cases hA
  · rw [hplaces]
    simp [hseat]

/-! ## Who should hold a credential -/

/-- A member of an open room that is there. -/
def Holds (room : Room) (id : MemberId) : Prop :=
  room.isOpen = true ∧ ∃ p ∈ room.places, p.memberId = id ∧ p.onlineState.present = true

theorem Holds.of_places (same : r.places = room.places) (open_ : r.isOpen = room.isOpen) :
    r.Holds id ↔ room.Holds id := by
  rw [Holds, Holds, same, open_]

theorem holds_become {id' : MemberId} {state : OnlineState} (isOpen : room.isOpen = true)
    (stays : r.isOpen = true) (places : r.places = room.places.map (Place.become id' state)) :
    r.Holds id ↔ if id = id' then state.present = true ∧ ∃ p ∈ room.places, p.memberId = id'
      else room.Holds id := by
  rw [Holds, places]
  simp only [List.mem_map, exists_exists_and_eq_and, Place.become_memberId, stays, true_and]
  by_cases own : id = id'
  · subst own
    rw [if_pos rfl]
    constructor
    · rintro ⟨p, hp, hid, hpresent⟩
      rw [Place.become_own hid] at hpresent
      exact ⟨hpresent, p, hp, hid⟩
    · rintro ⟨hpresent, p, hp, hid⟩
      exact ⟨p, hp, hid, by rw [Place.become_own hid]; exact hpresent⟩
  · rw [if_neg own, Holds]
    simp only [isOpen, true_and]
    refine exists_congr fun p => and_congr_right fun _ => and_congr_right fun hid => ?_
    rw [Place.become_other (hid ▸ own)]

end Room

/-- The members a revocation is about. -/
def Revoked.Covers (id : MemberId) : Revoked → Prop
  | .nobody => False
  | .member id' => id = id'
  | .everybody => True

namespace SeatMove

variable {now : Time} {db : Database} {room r : Room} {revoked : Revoked} {id : MemberId}

theorem place_held {i : Nat} {m : Member} (held : room.members[i]? = some m) :
    m.place ∈ room.places :=
  List.mem_map_of_mem (List.mem_of_getElem? held)

theorem suspect_places (seated : room.Seated) {i : Nat} {m : Member}
    (held : room.members[i]? = some m) :
    (room.modifyAt i (Member.suspected now)).places =
      room.places.map (Place.become m.memberId .reconnecting) := by
  rw [Room.modifyAt_modifyMember seated.ids held]
  exact Room.modifyMember_become fun _ => rfl

theorem lapse_places (seated : room.Seated) {i : Nat} {m : Member}
    (held : room.members[i]? = some m) :
    (room.expireMember now i).places = room.places.map (Place.become m.memberId .offline) := by
  rw [Room.expireMember_places, Room.modifyAt_modifyMember seated.ids held]
  exact Room.modifyMember_become fun _ => rfl

theorem seen_places :
    (room.modifyMember id (Member.seen now)).places = room.places.map (Place.become id .online) :=
  Room.modifyMember_become fun _ => rfl

/-- The entry of a member is the only one with its identifier. -/
theorem alone (seated : room.Seated) {p q : Place} (hp : p ∈ room.places) (hq : q ∈ room.places)
    (hid : p.memberId = q.memberId) : p = q :=
  List.inj_on_of_nodup_map seated.ids hp hq hid

theorem alive (seated : room.Seated) {p : Place} (hp : p ∈ room.places)
    (alive : p.onlineState ≠ .left) :
    ∀ q ∈ room.places, q.memberId = p.memberId → q.onlineState ≠ .left := by
  intro q hq hid
  rw [alone seated hq hp hid]
  exact alive

theorem present_alive {state : OnlineState} (h : state.present = true) : state ≠ .left := by
  rintro rfl
  cases h

/-- Only joining adds a member. -/
theorem members (h : SeatMove now db room revoked r) (seated : room.Seated) :
    r.places.map (·.memberId) = room.places.map (·.memberId) := by
  have become : ∀ {id : MemberId} {state : OnlineState},
      r.places = room.places.map (Place.become id state) →
      r.places.map (·.memberId) = room.places.map (·.memberId) := by
    intro id state places
    rw [places, List.map_map]
    exact List.map_congr_left fun p _ => p.become_memberId
  cases h with
  | settle r same => rw [same]
  | late r same => rw [same]
  | expire => rfl
  | close r same => rw [same]
  | drop => exact become Room.dropMember_places
  | suspect i m held => exact become (suspect_places seated held)
  | lapse i m held => exact become (lapse_places seated held)
  | beat => exact become seen_places

/-- A write keeps the seats; `credited` says whom a heartbeat may come from. -/
theorem seated (h : SeatMove now db room revoked r) (seated : room.Seated)
    (header : r.header = room.header)
    (credited : ∀ id, db.Credited room.roomId id → room.Holds id) : r.Seated := by
  have owner : r.ownerMemberId = room.ownerMemberId := congrArg (·.ownerMemberId) header
  cases h with
  | settle r same => exact seated.of_places same owner
  | late r same => exact seated.of_places same owner
  | expire => exact seated.of_places rfl rfl
  | close r same => exact seated.of_places same owner
  | drop id isOpen other =>
    exact seated.become Room.dropMember_places owner (fun _ => other) (absurd rfl)
  | suspect i m held online isOpen =>
    have hlive : m.place.onlineState ≠ .left := by simp [Member.place, online]
    exact seated.become (suspect_places seated held) owner nofun fun _ =>
      alive seated (place_held held) hlive
  | lapse i m held missed isOpen =>
    have hlive : m.place.onlineState ≠ .left := by simp [Member.place, missed]
    exact seated.become (lapse_places seated held) owner nofun fun _ =>
      alive seated (place_held held) hlive
  | beat id isOpen hcredited =>
    obtain ⟨-, p, hp, rfl, hpresent⟩ := credited id hcredited
    exact seated.become seen_places owner nofun fun _ =>
      alive seated hp (present_alive hpresent)

/-- The members that should hold a credential after a write are those from before it, less
the ones whose rows it deactivates. -/
theorem holds (h : SeatMove now db room revoked r) (seated : room.Seated)
    (credited : ∀ id, db.Credited room.roomId id → room.Holds id)
    (timely : room.isOpen = true ∨ r.isOpen = false) :
    r.Holds id ↔ room.Holds id ∧ ¬ revoked.Covers id := by
  cases h with
  | settle r same isOpen stays =>
    simp [Revoked.Covers, Room.Holds.of_places same (stays.trans isOpen.symm)]
  | late r same shut =>
    have hover : r.isOpen = false := timely.resolve_left (by simp [shut])
    simp [Revoked.Covers, Room.Holds.of_places same (hover.trans shut.symm)]
  | expire => simp [Revoked.Covers, Room.Holds, Room.isOpen]
  | close r same isOpen shut => simp [Revoked.Covers, Room.Holds, shut]
  | drop id' isOpen other =>
    rw [Room.holds_become isOpen rfl Room.dropMember_places]
    by_cases own : id = id' <;> simp [own, Revoked.Covers, OnlineState.present]
  | suspect i m held online isOpen =>
    have stays : (room.modifyAt i (Member.suspected now)).isOpen = true := isOpen
    rw [Room.holds_become isOpen stays (suspect_places seated held)]
    by_cases own : id = m.memberId
    · have hheld : room.Holds m.memberId :=
        ⟨isOpen, m.place, place_held held, rfl, by simp [Member.place, online, OnlineState.present]⟩
      simp only [own, if_true, Revoked.Covers, not_false_eq_true, and_true, hheld, iff_true]
      exact ⟨rfl, m.place, place_held held, rfl⟩
    · simp [own, Revoked.Covers]
  | lapse i m held missed isOpen =>
    rw [Room.holds_become isOpen (Room.expireMember_isOpen isOpen) (lapse_places seated held)]
    by_cases own : id = m.memberId <;> simp [own, Revoked.Covers, OnlineState.present]
  | beat id' isOpen hcredited =>
    have stays : (room.modifyMember id' (Member.seen now)).isOpen = true := isOpen
    rw [Room.holds_become isOpen stays seen_places]
    have hheld := credited id' hcredited
    by_cases own : id = id'
    · obtain ⟨-, p, hp, hid, -⟩ := hheld
      simp only [own, if_true, Revoked.Covers, not_false_eq_true, and_true, credited id' hcredited,
        iff_true]
      exact ⟨rfl, p, hp, hid⟩
    · simp [own, Revoked.Covers]

end SeatMove

end SwitchTrade.Authority

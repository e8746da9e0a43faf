import SwitchTrade.Authority.Credentials
import SwitchTrade.Authority.RoleMove

/-!
# The pair behind an attempt

An attempt belongs to the two members of its room, and it is numbered by a counter of the
room that only counts up. The writers split into those that move members (`SeatMove`) and
those that move the attempt and the roles (`RoleMove`); this file puts the two views of one
write together. `Room.Sound` is what every write keeps, and `Room.Succeeds` what a write, and
therefore a call, does to the attempt of a room.
-/

namespace SwitchTrade.Authority

open Fallible Relation Transition

namespace Room

variable {room r : Room} {now : Time} {fresh : AttemptId} {a b : Attempt} {full : Prop}

/-! ## Two members -/

/-- The members that have not left. -/
def pair (room : Room) : List MemberId :=
  (room.places.filter (·.onlineState ≠ .left)).map (·.memberId)

theorem pair_length : room.pair.length = room.active.length := by
  rw [pair, ← active_places, List.length_map, List.length_map]

theorem mem_pair {id : MemberId} : id ∈ room.pair ↔ ∃ m ∈ room.active, m.memberId = id := by
  rw [pair, ← active_places, List.map_map, List.mem_map]
  rfl

theorem pair_of_places (same : r.places = room.places) : r.pair = room.pair := by
  rw [pair, same, pair]

/-- Writing a state other than `left` to a member that had not left changes no pair. -/
theorem pair_become {id : MemberId} {state : OnlineState}
    (places : r.places = room.places.map (Place.become id state)) (stays : state ≠ .left)
    (alive : ∀ p ∈ room.places, p.memberId = id → p.onlineState ≠ .left) : r.pair = room.pair := by
  rw [pair, places, List.filter_map, List.map_map, pair]
  have hkept :
      room.places.filter ((fun p => decide (p.onlineState ≠ .left)) ∘ Place.become id state) =
      room.places.filter (·.onlineState ≠ .left) := by
    refine List.filter_congr fun p hp => ?_
    simp only [Function.comp_apply, decide_eq_decide]
    by_cases own : p.memberId = id
    · rw [Place.become_own own]
      exact iff_of_true stays (alive p hp own)
    · rw [Place.become_other own]
  rw [hkept]
  exact List.map_congr_left fun p _ => p.become_memberId

/-- With two members that have not left, each seat is taken once. -/
theorem Seated.both (h : room.Seated) (two : room.active.length = 2) :
    room.active.countP (·.seat = .memberA) = 1 ∧ room.active.countP (·.seat = .memberB) = 1 := by
  have hA : room.active.countP (·.seat = .memberA) ≤ 1 := by
    have hsub : room.active.countP (·.seat = .memberA) ≤ room.members.countP (·.seat = .memberA) :=
      List.filter_sublist.countP_le
    have hone : room.members.countP (·.seat = .memberA) = 1 := by
      have := h.one
      rwa [places, List.countP_map] at this
    omega
  have hB : room.active.countP (·.seat = .memberB) ≤ 1 := by
    have hpartner := h.partner
    rw [places, List.countP_map] at hpartner
    rw [active, List.countP_filter]
    refine (List.countP_mono_left fun m _ hm => ?_).trans hpartner
    show decide (m.seat = .memberB ∧ m.onlineState ≠ .left) = true
    simpa using hm
  have hsum := List.length_eq_countP_add_countP (·.seat = .memberA) (l := room.active)
  have hother : room.active.countP (fun m => decide ¬ (decide (m.seat = .memberA)) = true) =
      room.active.countP (·.seat = .memberB) := by
    refine List.countP_congr fun m _ => ?_
    cases m.seat <;> simp
  rw [two, hother] at hsum
  omega

end Room

namespace SeatMove

variable {now : Time} {db : Database} {room r : Room} {revoked : Revoked}

/-- A write drops the attempt or leaves the pair alone. -/
theorem pair (h : SeatMove now db room revoked r) (seated : room.Seated)
    (credited : ∀ id, db.Credited room.roomId id → room.Holds id) :
    r.attempt = none ∨ r.pair = room.pair := by
  cases h with
  | settle r same => exact .inr (Room.pair_of_places same)
  | late r same => exact .inr (Room.pair_of_places same)
  | expire => exact .inr (Room.pair_of_places rfl)
  | close r same => exact .inr (Room.pair_of_places same)
  | drop => exact .inl rfl
  | suspect i m held online =>
    have hlive : m.place.onlineState ≠ .left := by simp [Member.place, online]
    refine .inr (Room.pair_become (suspect_places seated held) (by decide) ?_)
    exact alive seated (place_held held) hlive
  | lapse i m held missed =>
    have hlive : m.place.onlineState ≠ .left := by simp [Member.place, missed]
    refine .inr (Room.pair_become (lapse_places seated held) (by decide) ?_)
    exact alive seated (place_held held) hlive
  | beat id isOpen hcredited =>
    obtain ⟨-, p, hp, rfl, hpresent⟩ := credited id hcredited
    refine .inr (Room.pair_become seen_places (by decide) ?_)
    exact alive seated hp (present_alive hpresent)

/-- Where a place comes from: its member had not left, and was not offline unless it is. -/
def From (room : Room) (p' : Place) : Prop :=
  ∃ p ∈ room.places, p.memberId = p'.memberId ∧ p.onlineState ≠ .left ∧
    (p.onlineState = .offline → p'.onlineState = .offline)

theorem from_become {id : MemberId} {state : OnlineState}
    (places : r.places = room.places.map (Place.become id state))
    (own : state ≠ .left → ∀ p ∈ room.places, p.memberId = id →
      p.onlineState ≠ .left ∧ (p.onlineState = .offline → state = .offline))
    {p' : Place} (hp' : p' ∈ r.places) (stays : p'.onlineState ≠ .left) : From room p' := by
  rw [places] at hp'
  obtain ⟨p, hp, rfl⟩ := List.mem_map.mp hp'
  refine ⟨p, hp, p.become_memberId.symm, ?_⟩
  by_cases hid : p.memberId = id
  · rw [Place.become_own hid] at stays ⊢
    exact own stays p hp hid
  · rw [Place.become_other hid] at stays ⊢
    exact ⟨stays, fun h => h⟩

/-- No write brings a member back that has left or is offline. -/
theorem from_places (h : SeatMove now db room revoked r) (seated : room.Seated)
    (credited : ∀ id, db.Credited room.roomId id → room.Holds id) {p' : Place}
    (hp' : p' ∈ r.places) (stays : p'.onlineState ≠ .left) : From room p' := by
  have same : r.places = room.places → From room p' := fun same =>
    ⟨p', same ▸ hp', rfl, stays, fun h => h⟩
  cases h with
  | settle r hsame => exact same hsame
  | late r hsame => exact same hsame
  | expire => exact same rfl
  | close r hsame => exact same hsame
  | drop => exact from_become Room.dropMember_places (absurd rfl) hp' stays
  | suspect i m held online =>
    refine from_become (suspect_places seated held) (fun _ p hp hid => ?_) hp' stays
    obtain rfl := alone seated hp (place_held held) hid
    simp [Member.place, online]
  | lapse i m held missed =>
    refine from_become (lapse_places seated held) (fun _ p hp hid => ?_) hp' stays
    obtain rfl := alone seated hp (place_held held) hid
    simp [Member.place, missed]
  | beat id isOpen hcredited =>
    obtain ⟨-, q, hq, rfl, hpresent⟩ := credited id hcredited
    refine from_become seen_places (fun _ p hp hid => ?_) hp' stays
    obtain rfl := alone seated hp hq hid
    refine ⟨present_alive hpresent, fun hoffline => ?_⟩
    simp [hoffline, OnlineState.present] at hpresent

end SeatMove

namespace Room

variable {room r : Room} {now : Time} {fresh : AttemptId} {a b : Attempt} {full : Prop}

/-! ## What every write keeps -/

/-- The attempt of a room is one of its two members, and the last one the room counted. -/
structure Paired (room : Room) (a : Attempt) : Prop where
  two : room.pair.length = 2
  creator : ∃ id ∈ room.pair, a.creatorMemberId = some id
  generation : a.activationGeneration = a.attemptNumber
  last : room.lastAttemptNumber = some a.attemptNumber
  locked : a.roleLocked = true

theorem Paired.same (h : room.Paired a) (same : SameAttempt a b) (pair : r.pair = room.pair)
    (last : r.lastAttemptNumber = room.lastAttemptNumber) : r.Paired b where
  two := pair ▸ h.two
  creator := by
    rw [pair, same.creator]
    exact h.creator
  generation := by rw [same.generation, same.number, h.generation]
  last := by rw [last, same.number, h.last]
  locked := same.locked h.locked

/-- While an attempt runs, the members have the roles it gives them; a member that went
offline while it closes has none. -/
def Coupled (room : Room) (a : Attempt) : Prop :=
  a.phase.terminal = false → ∀ m ∈ room.members, m.onlineState ≠ .left →
    m.switchRoomRole = a.localSwitchRole m.memberId ∨
      (a.phase = .closing ∧ m.onlineState = .offline ∧ m.switchRoomRole = none)

theorem localSwitchRole_same (same : SameAttempt a b) (active : a.phase.terminal = false)
    (stays : b.phase.terminal = false) (id : MemberId) :
    b.localSwitchRole id = a.localSwitchRole id := by
  simp only [Attempt.localSwitchRole, active, stays, same.creator]

/-- Where a member of the document after a write comes from. -/
theorem member_from (seated : room.Seated)
    (states : ∀ p' ∈ r.places, p'.onlineState ≠ .left → SeatMove.From room p') {m m' : Member}
    (hm : m ∈ room.members) (hm' : m' ∈ r.members) (hid : m'.memberId = m.memberId)
    (stays : m'.onlineState ≠ .left) :
    m.onlineState ≠ .left ∧ (m.onlineState = .offline → m'.onlineState = .offline) := by
  obtain ⟨p, hp, hp_id, hleft, hoffline⟩ := states m'.place (List.mem_map_of_mem hm') stays
  have hplace : p = m.place :=
    SeatMove.alone seated hp (List.mem_map_of_mem hm) (hp_id.trans hid)
  subst hplace
  exact ⟨hleft, hoffline⟩

theorem Coupled.kept (h : room.Coupled a) (seated : room.Seated)
    (states : ∀ p' ∈ r.places, p'.onlineState ≠ .left → SeatMove.From room p')
    (same : SameAttempt a b) (active : a.phase.terminal = false)
    (closing : a.phase = .closing → b.phase = .closing) (roles : RolesKept room r) :
    r.Coupled b := by
  intro stays m' hm' hleft
  obtain ⟨m, hm, hid, hrole⟩ := roles m' hm'
  obtain ⟨hleft, hoffline⟩ := member_from seated states hm hm' hid hleft
  rw [hrole, localSwitchRole_same same active stays, hid]
  exact (h active m hm hleft).imp_right fun ⟨hphase, hgone, hnone⟩ =>
    ⟨closing hphase, hoffline hgone, hnone⟩

theorem Coupled.lapsed (h : room.Coupled a) (seated : room.Seated)
    (states : ∀ p' ∈ r.places, p'.onlineState ≠ .left → SeatMove.From room p')
    (closing : a.phase = .closing)
    (roles : ∀ m' ∈ r.members, (∃ m ∈ room.members,
        m'.memberId = m.memberId ∧ m'.switchRoomRole = m.switchRoomRole) ∨
      (m'.onlineState = .offline ∧ m'.switchRoomRole = none)) : r.Coupled a := by
  intro active m' hm' hleft
  obtain ⟨m, hm, hid, hrole⟩ | hlapsed := roles m' hm'
  · obtain ⟨hleft, hoffline⟩ := member_from seated states hm hm' hid hleft
    rw [hrole, hid]
    exact (h active m hm hleft).imp_right fun ⟨hphase, hgone, hnone⟩ =>
      ⟨hphase, hoffline hgone, hnone⟩
  · exact .inr ⟨closing, hlapsed⟩

theorem Coupled.chosen (h : room.Coupled a) {id : MemberId} {role : Option SwitchRoomRole}
    (own : role = a.localSwitchRole id)
    (members : r.members = (room.modifyMember id (·.choose true role)).members) : r.Coupled a := by
  intro active m' hm' hleft
  rw [members] at hm'
  obtain ⟨m, hm, rfl⟩ := List.mem_map.mp hm'
  by_cases hid : m.memberId = id
  · rw [if_pos hid]
    refine .inl ?_
    show role = a.localSwitchRole m.memberId
    rw [own, hid]
  · rw [if_neg hid] at hleft ⊢
    exact h active m hm hleft

/-- The two complementary choices an attempt starts from are the roles it gives. -/
theorem begun_roles {x y : Member} (distinct : x.memberId ≠ y.memberId) {creator : MemberId}
    (roles : complementaryRoles [x, y] = true) (first : creatorOf [x, y] = some creator) :
    ∀ m ∈ [x, y], m.switchRoomRole =
      if some creator = some m.memberId then some .creator else some .finder := by
  cases hx : x.switchRoomRole with
  | none => simp [complementaryRoles, hx] at roles
  | some rx =>
    cases hy : y.switchRoomRole with
    | none => simp [complementaryRoles, hy] at roles
    | some ry =>
      cases rx <;> cases ry <;>
        simp [complementaryRoles, creatorOf, hx, hy] at roles first
      · subst first
        simp [hx, hy, distinct]
      · subst first
        simp [hx, hy, distinct.symm]

theorem begin_coupled (seated : (room.places.map (·.memberId)).Nodup)
    (two : room.active.length = 2) {creator : MemberId}
    (roles : complementaryRoles room.active = true)
    (first : creatorOf room.active = some creator) {b : Attempt}
    (begun : (room.beginAttempt now fresh creator).attempt = some b) :
    (room.beginAttempt now fresh creator).Coupled b := by
  obtain ⟨x, y, hactive⟩ := List.length_eq_two.mp two
  have hdistinct : x.memberId ≠ y.memberId := by
    have hsub : (room.active.map (·.memberId)).Nodup := by
      have hids : room.places.map (·.memberId) = room.members.map (·.memberId) := by
        rw [places, List.map_map]
        rfl
      rw [hids] at seated
      exact seated.sublist (List.filter_sublist.map _)
    simpa [hactive] using hsub
  rw [hactive] at roles first
  intro _ m hm hleft
  have hlive : m ∈ room.active := List.mem_filter.mpr ⟨hm, by simpa using hleft⟩
  rw [hactive] at hlive
  have hrole := begun_roles hdistinct roles first m hlive
  obtain rfl := Option.some.inj begun
  exact .inl hrole

/-- What a document says of its attempt; the roles are part of it where `full` is. -/
structure Sound (full : Prop) (room : Room) : Prop where
  paired : ∀ a, room.attempt = some a → room.Paired a
  coupled : full → ∀ a, room.attempt = some a → room.Coupled a

theorem Sound.sealed (h : r.Sound full) (n : Nat) : (r.sealed n).Sound full :=
  ⟨fun a ha => ⟨(h.paired a ha).two, (h.paired a ha).creator, (h.paired a ha).generation,
    (h.paired a ha).last, (h.paired a ha).locked⟩, fun hfull a ha => h.coupled hfull a ha⟩

theorem Sound.idle (none : r.attempt = none) : r.Sound full :=
  ⟨fun a ha => by simp [none] at ha, fun _ a ha => by simp [none] at ha⟩

/-- A write that leaves the seats to `SeatMove` and the roles to `RoleMove` keeps the pair. -/
theorem Sound.write {act : Option Action} (h : room.Sound full) (seated : room.Seated)
    (pair : r.attempt = none ∨ r.pair = room.pair)
    (states : ∀ p' ∈ r.places, p'.onlineState ≠ .left → SeatMove.From room p')
    (moved : RoleMove now fresh act room r)
    (guard : full → act = some .lockRole → ∀ a b, room.attempt = some a → r.attempt = some b →
      b.phase = .connectingSwitches → a.phase.terminal = false ∧ a.phase ≠ .closing) :
    r.Sound full := by
  rcases pair with hnone | hpair
  · exact .idle hnone
  have kept : ∀ {a b}, room.attempt = some a → r.attempt = some b → SameAttempt a b →
      r.lastAttemptNumber = room.lastAttemptNumber → (full → r.Coupled b) → r.Sound full := by
    intro a b ha hb same last coupled
    refine ⟨fun c hc => ?_, fun hfull c hc => ?_⟩
    · obtain rfl := Option.some.inj (hb.symm.trans hc)
      exact (h.paired a ha).same same hpair last
    · obtain rfl := Option.some.inj (hb.symm.trans hc)
      exact coupled hfull
  cases moved with
  | idle last none => exact .idle none
  | finish a b last held hb same terminal =>
    refine kept held hb same last fun _ active => ?_
    simp [terminal] at active
  | keep a b last held hb same active stays closing roles =>
    exact kept held hb same last fun hfull =>
      (h.coupled hfull a held).kept seated states same active closing roles
  | choose a id role last held hb active own members =>
    exact kept held hb (.refl a) last fun hfull => (h.coupled hfull a held).chosen own members
  | lock a b last held hb same phase command roles =>
    refine kept held hb same last fun hfull => ?_
    obtain ⟨active, hclosing⟩ := guard hfull command a b held hb phase
    exact (h.coupled hfull a held).kept seated states same active
      (fun h => absurd h hclosing) roles
  | lapse a last held hb closing roles =>
    exact kept held hb (.refl a) last fun hfull =>
      (h.coupled hfull a held).lapsed seated states closing roles
  | join last hkept free =>
    cases ha : room.attempt with
    | none => exact .idle (hkept.trans ha)
    | some a =>
      have htwo := (h.paired a ha).two
      rw [pair_length] at htwo
      omega
  | assign a held unlocked =>
    have hlocked := (h.paired a held).locked
    simp [unlocked] at hlocked
  | begin before creator begun last seats two roles first =>
    subst begun
    refine ⟨fun b hb => ?_, fun _ b hb => ?_⟩
    · obtain rfl := Option.some.inj hb
      have hbefore : before.pair = room.pair := pair_of_places seats
      refine ⟨?_, ?_, rfl, rfl, rfl⟩
      · rw [hpair, ← hbefore, pair_length, two]
      · obtain ⟨m, hm, hcreator⟩ := Option.map_eq_some_iff.mp first
        refine ⟨creator, ?_, rfl⟩
        rw [hpair, ← hbefore, mem_pair]
        exact ⟨m, List.mem_of_find?_eq_some hm, hcreator⟩
    · exact begin_coupled (seats ▸ seated.ids) two roles first hb

/-! ## The attempt from one document to the next -/

/-- The attempt after a write is the one before it, or one with a higher number and a new
identifier. An attempt is only replaced by a call that retires it, and then not while it
runs. -/
structure Succeeds (fresh : AttemptId) (retires : Bool) (room r : Room) : Prop where
  last : room.lastAttemptNumber.getD 0 ≤ r.lastAttemptNumber.getD 0
  attempt : ∀ b, r.attempt = some b → (∃ a, room.attempt = some a ∧ SameAttempt a b) ∨
    (room.lastAttemptNumber.getD 0 < b.attemptNumber ∧ fresh ≤ b.attemptId)
  stays : ∀ a, room.attempt = some a → (retires = true → a.phase.terminal = false) →
    ∃ b, r.attempt = some b ∧ SameAttempt a b ∧ (retires = true → b.phase.terminal = false)

theorem Succeeds.refl {retires : Bool} (room : Room) : Succeeds fresh retires room room :=
  ⟨le_rfl, fun b hb => .inl ⟨b, hb, .refl b⟩, fun a ha active => ⟨a, ha, .refl a, active⟩⟩

theorem Succeeds.trans {retires : Bool} {r' : Room} (h : Succeeds fresh retires room r)
    (h' : Succeeds fresh retires r r') : Succeeds fresh retires room r' := by
  refine ⟨h.last.trans h'.last, fun c hc => ?_, fun a ha active => ?_⟩
  · obtain ⟨b, hb, hbc⟩ | ⟨hlast, hfresh⟩ := h'.attempt c hc
    · obtain ⟨a, ha, hab⟩ | ⟨hlast, hfresh⟩ := h.attempt b hb
      · exact .inl ⟨a, ha, hab.trans hbc⟩
      · exact .inr ⟨hbc.number ▸ hlast, hbc.id ▸ hfresh⟩
    · exact .inr ⟨h.last.trans_lt hlast, hfresh⟩
  · obtain ⟨b, hb, hab, active⟩ := h.stays a ha active
    obtain ⟨c, hc, hbc, active⟩ := h'.stays b hb active
    exact ⟨c, hc, hab.trans hbc, active⟩

theorem Succeeds.sealed {retires : Bool} (h : Succeeds fresh retires room r) (n : Nat) :
    Succeeds fresh retires room (r.sealed n) :=
  ⟨h.last, h.attempt, h.stays⟩

/-- The attempt after a write of a sound document. -/
theorem Sound.succeeds {act : Option Action} (h : room.Sound full)
    (moved : RoleMove now fresh act room r) :
    Succeeds fresh (act.any Action.retires) room r := by
  have kept : ∀ {a b}, room.attempt = some a → r.attempt = some b → SameAttempt a b →
      r.lastAttemptNumber = room.lastAttemptNumber →
      (act.any Action.retires = true → a.phase.terminal = false → b.phase.terminal = false) →
      Succeeds fresh (act.any Action.retires) room r := by
    intro a b ha hb same last active
    refine ⟨le_of_eq (by rw [last]), fun c hc => ?_, fun c hc running => ?_⟩
    · obtain rfl := Option.some.inj (hb.symm.trans hc)
      exact .inl ⟨a, ha, same⟩
    · obtain rfl := Option.some.inj (ha.symm.trans hc)
      exact ⟨b, hb, same, fun retires => active retires (running retires)⟩
  cases moved with
  | idle last none finished =>
    refine ⟨le_of_eq (by rw [last]), fun b hb => by simp [none] at hb, fun a ha running => ?_⟩
    obtain ⟨retires, hfinished⟩ := finished a ha
    have := hfinished (h.paired a ha).locked
    simp [running retires] at this
  | finish a b last held hb same terminal new =>
    refine kept held hb same last fun retires active => ?_
    simp [new retires] at active
  | keep a b last held hb same active stays closing roles =>
    exact kept held hb same last fun _ _ => stays
  | choose a id role last held hb active own members =>
    exact kept held hb (.refl a) last fun _ active => active
  | lock a b last held hb same phase command roles =>
    refine kept held hb same last fun _ _ => ?_
    rw [phase]
    rfl
  | lapse a last held hb closing roles =>
    exact kept held hb (.refl a) last fun _ active => active
  | join last hkept free =>
    refine ⟨le_of_eq (by rw [last]), fun b hb => .inl ⟨b, hkept ▸ hb, .refl b⟩,
      fun a ha running => ?_⟩
    exact ⟨a, hkept ▸ ha, .refl a, running⟩
  | assign a held unlocked =>
    have hlocked := (h.paired a held).locked
    simp [unlocked] at hlocked
  | begin before creator begun last seats two roles first finished command =>
    subst begun
    have hnext : (before.beginAttempt now fresh creator).lastAttemptNumber =
        some (room.lastAttemptNumber.getD 0 + 1) := by rw [← last]; rfl
    refine ⟨?_, fun b hb => .inr ?_, fun a ha running => ?_⟩
    · rw [hnext]
      exact Nat.le_succ _
    · obtain rfl := Option.some.inj hb
      refine ⟨?_, le_rfl⟩
      show room.lastAttemptNumber.getD 0 < before.lastAttemptNumber.getD 0 + 1
      rw [last]
      exact Nat.lt_succ_self _
    · have := finished a ha
      simp [running command] at this

end Room

/-! ## One call -/

/-- `lock_role`, which compares the phase with nothing, is not accepted for an attempt that
is closing or finished. -/
def KeepsRoles (s : Store) : Op → Prop
  | .mutate now roomId bearer commandId .lockRole payload version =>
    ∀ room memberId a,
      s.db.Addresses now roomId bearer commandId (.member · .lockRole) room memberId →
      room.LocksRole memberId payload version a → a.phase.terminal = false ∧ a.phase ≠ .closing
  | _ => True

theorem RoomWrite.lock_guard {s : Store} {op : Op} {room r : Room} (hg : KeepsRoles s op)
    (h : RoomWrite s op room r) (lock : op.action = some .lockRole) {a b : Attempt}
    (ha : room.attempt = some a) (hb : r.attempt = some b) (phase : b.phase = .connectingSwitches) :
    a.phase.terminal = false ∧ a.phase ≠ .closing := by
  cases h with
  | expire due =>
    obtain rfl : a = b := Option.some.inj (ha.symm.trans hb)
    rw [phase]
    decide
  | mutate call addressed written =>
    subst call
    obtain rfl := Option.some.inj lock
    obtain ⟨a', accepted⟩ := Room.lockRole_write written
    obtain rfl := Option.some.inj (accepted.held.symm.trans ha)
    exact hg room _ a' addressed accepted
  | beginDClosing call => simp [call, Op.action] at lock
  | acknowledgeDQuiescent call => simp [call, Op.action] at lock
  | join call => simp [Op.action_joins call] at lock
  | reconnect call => simp [Op.action_reconnects call] at lock
  | fail call => simp [Op.action_failsTransport call] at lock
  | force call => simp [Op.action_failsTransport call] at lock
  | sweepBarrier call => simp [Op.action_sweeps call] at lock
  | sweepMember call => simp [Op.action_sweeps call] at lock

section Stroke

variable {s : Store} {op : Op} {db db' : Database} {full : Prop}

/-- Every document of `db'` is one of `db`, and its attempt succeeds the one there. -/
def Follows (s : Store) (op : Op) (db db' : Database) : Prop :=
  ∀ room' ∈ db'.rooms, ∃ room ∈ db.rooms, room.roomId = room'.roomId ∧
    room.Succeeds s.supply op.retires room'

theorem Follows.refl (db : Database) : Follows s op db db :=
  fun room hr => ⟨room, hr, rfl, .refl room⟩

theorem Follows.trans {db'' : Database} (h : Follows s op db db') (h' : Follows s op db' db'') :
    Follows s op db db'' := by
  intro room₂ hr₂
  obtain ⟨room₁, hr₁, hid₁, hlast⟩ := h' room₂ hr₂
  obtain ⟨room₀, hr₀, hid₀, hfirst⟩ := h room₁ hr₁
  exact ⟨room₀, hr₀, hid₀.trans hid₁, hfirst.trans hlast⟩

/-- A commit keeps the pairs when the document it writes does. -/
theorem commit_sound {room r : Room} {now : Time} {event : String} {actor : Option MemberId}
    {data : EventData} {base : Database} (rooms : db.rooms = base.rooms)
    (sound : ∀ room ∈ base.rooms, room.Sound full) (held : room ∈ base.rooms)
    (id_eq : r.roomId = room.roomId) (written : r.Sound full)
    (succeeds : room.Succeeds s.supply op.retires r) :
    (∀ room' ∈ (db.commit now r event actor data).rooms, room'.Sound full) ∧
      Follows s op base (db.commit now r event actor data) := by
  refine ⟨fun room' hr' => ?_, fun room' hr' => ?_⟩
  · rcases Database.mem_save hr' with ⟨hr', -⟩ | rfl
    · exact sound room' (rooms ▸ hr')
    · exact written.sealed _
  · rcases Database.mem_save hr' with ⟨hr', -⟩ | rfl
    · exact ⟨room', rooms ▸ hr', rfl, .refl room'⟩
    · exact ⟨room, held, id_eq.symm, succeeds.sealed _⟩

theorem Stroke.sound (h : Stroke s op db db') (guard : full → KeepsRoles s op)
    (housed : db.Housed False) (sound : ∀ room ∈ db.rooms, room.Sound full) :
    (∀ room ∈ db'.rooms, room.Sound full) ∧ Follows s op db db' := by
  cases h with
  | remember => exact ⟨sound, .refl db⟩
  | @write room r revoked event actor data held written moved timely =>
    have hseated := housed.seated room held
    have hcredited := housed.credited_room held
    have hsound : r.Sound full := (sound room held).write hseated (moved.pair hseated hcredited)
      (fun _ => moved.from_places hseated hcredited) written.roleMove
      fun hfull lock a b ha hb phase => written.lock_guard (guard hfull) lock ha hb phase
    exact commit_sound rfl sound held written.roomId hsound
      ((sound room held).succeeds written.roleMove)
  | @join room r display call held isOpen first written =>
    obtain ⟨hfree, -, header, hattempt, -⟩ := Room.joinRoom_ok written
    have hnone : room.attempt = none := by
      refine Option.eq_none_iff_forall_ne_some.mpr fun a ha => ?_
      have htwo := ((sound room held).paired a ha).two
      rw [Room.pair_length] at htwo
      omega
    have hmove : RoleMove op.now s.supply none room r := Room.joinRoom_roles written
    have hsucceeds := (sound room held).succeeds hmove
    rw [← Op.action_joins call] at hsucceeds
    exact commit_sound rfl sound held (congrArg (·.roomId) header) (.idle (hattempt.trans hnone))
      hsucceeds
  | @reconnect room r row call held known own first written =>
    obtain ⟨m, -, isOpen, -, -, hactive, hseen⟩ := reconnectMember_ok written
    have hmove := (RoomWrite.reconnect (s := s) call written).roleMove
    subst hseen
    have moved : SeatMove op.now db room .nobody
        (room.modifyMember row.memberId (Member.seen op.now)) :=
      .beat row.memberId isOpen ⟨row, known, hactive, own, rfl⟩
    have hseated := housed.seated room held
    have hcredited := housed.credited_room held
    have hsound : (room.modifyMember row.memberId (Member.seen op.now)).Sound full :=
      (sound room held).write hseated (moved.pair hseated hcredited)
        (fun _ => moved.from_places hseated hcredited) hmove
        fun _ lock => by simp [Op.action_reconnects call] at lock
    exact commit_sound rfl sound held rfl hsound ((sound room held).succeeds hmove)
  | purge =>
    have hkept : ∀ room ∈ (db.purge op.now).rooms, room ∈ db.rooms := by
      intro room hr
      rw [Database.purge_rooms] at hr
      exact (List.mem_filter.mp hr).1
    exact ⟨fun room hr => sound room (hkept room hr),
      fun room hr => ⟨room, hkept room hr, rfl, .refl room⟩⟩

theorem Strokes.sound (h : Strokes s op s.db db') (guard : full → KeepsRoles s op)
    (housed : s.Housed False) (sound : ∀ room ∈ s.db.rooms, room.Sound full) :
    (∀ room ∈ db'.rooms, room.Sound full) ∧ Follows s op s.db db' := by
  induction h with
  | refl => exact ⟨sound, .refl _⟩
  | tail hfirst hlast ih =>
    have hhoused := Strokes.housed hfirst (fun h => h.elim) housed.rows housed.housed
    obtain ⟨hsound, hfollows⟩ := hlast.sound guard hhoused ih.1
    exact ⟨hsound, ih.2.trans hfollows⟩

/-- A call creates a room without an attempt, or its documents follow those before it. -/
theorem step_sound (guard : full → KeepsRoles s op) (housed : s.Housed False)
    (sound : ∀ room ∈ s.db.rooms, room.Sound full) :
    (∀ room ∈ (s.step op).db.rooms, room.Sound full) ∧
      ∀ room' ∈ (s.step op).db.rooms, room'.roomId = s.supply ∨
        ∃ room ∈ s.db.rooms, room.roomId = room'.roomId ∧
          room.Succeeds s.supply op.retires room' := by
  obtain ⟨room, hopened⟩ | hstrokes :=
    step_strokes op housed.ids.nodup fun room hr => (housed.ids.rooms room hr).ne
  · refine ⟨fun room' hr' => ?_, fun room' hr' => ?_⟩
    · rw [hopened.rooms, List.mem_append, List.mem_singleton] at hr'
      rcases hr' with hr' | rfl
      · exact sound room' hr'
      · exact .idle hopened.attempt
    · rw [hopened.rooms, List.mem_append, List.mem_singleton] at hr'
      rcases hr' with hr' | rfl
      · exact .inr ⟨room', hr', rfl, .refl room'⟩
      · exact .inl hopened.roomId
  · obtain ⟨hsound, hfollows⟩ := hstrokes.sound guard housed sound
    exact ⟨hsound, fun room' hr' => .inr (hfollows room' hr')⟩

end Stroke

/-! ## Runs -/

theorem reachable_free_housed {G : Store → Op → Prop} {s : Store} (h : system.Reachable G s) :
    s.Housed False :=
  reachable_housed (fun h => h.elim) h

theorem reachable_sound {G : Store → Op → Prop} {full : Prop}
    (guard : full → ∀ s op, G s op → KeepsRoles s op) {s : Store} (h : system.Reachable G s) :
    ∀ room ∈ s.db.rooms, room.Sound full := by
  have hinv : s.Housed False ∧ ∀ room ∈ s.db.rooms, room.Sound full := by
    refine h.invariant (P := fun s => s.Housed False ∧ ∀ room ∈ s.db.rooms, room.Sound full)
      (fun s hs => ?_) fun s op t ⟨housed, hs⟩ hg ht => ?_
    · refine ⟨reachable_free_housed (G := G) (.init hs), ?_⟩
      subst hs
      exact fun room hr => (List.not_mem_nil hr).elim
    · subst ht
      exact ⟨step_housed housed fun h => h.elim,
        (step_sound (fun hfull => guard hfull s op hg) housed hs).1⟩
  exact hinv.2

/-- The attempts of the second store: those of the first, or later ones of the same rooms. -/
def Numbered (s t : Store) : Prop :=
  s.supply ≤ t.supply ∧ ∀ room' ∈ t.db.rooms, room'.roomId < s.supply →
    ∃ room ∈ s.db.rooms, room.roomId = room'.roomId ∧
      room.lastAttemptNumber.getD 0 ≤ room'.lastAttemptNumber.getD 0 ∧
      ∀ b, room'.attempt = some b → (∃ a, room.attempt = some a ∧ SameAttempt a b) ∨
        (room.lastAttemptNumber.getD 0 < b.attemptNumber ∧ s.supply ≤ b.attemptId)

theorem run_numbered {s t : Store} (hs : system.Reachable System.Free s)
    (h : system.Run System.Free s t) : Numbered s t := by
  refine h.relates (R := Numbered) (fun s => ?_) (fun s t u hst htu => ?_)
    (fun s op t hs hg ht => ?_) hs
  · exact ⟨le_rfl, fun room' hr' _ =>
      ⟨room', hr', rfl, le_rfl, fun b hb => .inl ⟨b, hb, .refl b⟩⟩⟩
  · refine ⟨hst.1.trans htu.1, fun room₂ hr₂ hlt => ?_⟩
    obtain ⟨room₁, hr₁, hid₁, hlast₁, hattempt₁⟩ := htu.2 room₂ hr₂ (hlt.trans_le hst.1)
    obtain ⟨room₀, hr₀, hid₀, hlast₀, hattempt₀⟩ := hst.2 room₁ hr₁ (hid₁ ▸ hlt)
    refine ⟨room₀, hr₀, hid₀.trans hid₁, hlast₀.trans hlast₁, fun c hc => ?_⟩
    obtain ⟨b, hb, hbc⟩ | ⟨hnumber, hfresh⟩ := hattempt₁ c hc
    · obtain ⟨a, ha, hab⟩ | ⟨hnumber, hfresh⟩ := hattempt₀ b hb
      · exact .inl ⟨a, ha, hab.trans hbc⟩
      · exact .inr ⟨hbc.number ▸ hnumber, hbc.id ▸ hfresh⟩
    · exact .inr ⟨hlast₀.trans_lt hnumber, hst.1.trans hfresh⟩
  · subst ht
    refine ⟨(Nat.le_add_right _ _).trans (step_supply s op), fun room' hr' hlt => ?_⟩
    have hsound : ∀ room ∈ s.db.rooms, room.Sound False :=
      reachable_sound (fun h => h.elim) hs
    obtain hnew | ⟨room, hr, hid, hsucceeds⟩ :=
      (@step_sound s op False (fun h => h.elim) (reachable_free_housed hs) hsound).2 room' hr'
    · exact absurd hnew hlt.ne
    · exact ⟨room, hr, hid, hsucceeds.last, hsucceeds.attempt⟩

/-- The number of an attempt is positive: the first one of a room is 1. -/
theorem reachable_attempt_pos {s : Store} (hs : system.Reachable System.Free s) {room : Room}
    (hr : room ∈ s.db.rooms) {a : Attempt} (ha : room.attempt = some a) : 0 < a.attemptNumber := by
  have hinv : system.Reachable System.Free s ∧
      ∀ room ∈ s.db.rooms, ∀ a, room.attempt = some a → 0 < a.attemptNumber := by
    refine hs.invariant (P := fun s => system.Reachable System.Free s ∧
        ∀ room ∈ s.db.rooms, ∀ a, room.attempt = some a → 0 < a.attemptNumber)
      (fun s hs => ⟨.init hs, ?_⟩) fun s op t ⟨hs, hpos⟩ hg ht => ⟨hs.step hg ht, ?_⟩
    · subst hs
      exact fun room hr => (List.not_mem_nil hr).elim
    · subst ht
      intro room' hr' b hb
      have hsound : ∀ room ∈ s.db.rooms, room.Sound False :=
        reachable_sound (fun h => h.elim) hs
      rcases step_rooms (reachable_ids hs) hr' with ⟨-, hnone⟩ | ⟨old, hold, hchange⟩
      · rw [hnone] at hb
        cases hb
      · obtain hnew | ⟨room, hr, -, hsucceeds⟩ :=
          (@step_sound s op False (fun h => h.elim) (reachable_free_housed hs) hsound).2 room' hr'
        · have hlt := (reachable_ids hs).rooms old hold
          exact absurd (hchange.roomId.symm.trans hnew) hlt.ne
        · rcases hsucceeds.attempt b hb with ⟨a, ha, hsame⟩ | ⟨hnumber, -⟩
          · rw [hsame.number]
            exact hpos room hr a ha
          · omega
  exact hinv.2 room hr a ha

/-! ## The pair behind every attempt -/

/-- The attempt of every room is that of its two members, one in each seat, and carries the
last number the room gave out. -/
def AttemptsPaired (s : Store) : Prop :=
  ∀ room ∈ s.db.rooms, ∀ a, room.attempt = some a →
    room.active.length = 2 ∧ room.active.countP (·.seat = .memberA) = 1 ∧
      room.active.countP (·.seat = .memberB) = 1 ∧
      (∃ m ∈ room.active, a.creatorMemberId = some m.memberId) ∧
      a.activationGeneration = a.attemptNumber ∧ room.lastAttemptNumber = some a.attemptNumber

/-- Whatever attempt a room holds later is the same one or has a higher number. -/
def AttemptsNumbered (s : Store) : Prop :=
  ∀ t, system.Run System.Free s t → ∀ room ∈ s.db.rooms, ∀ room' ∈ t.db.rooms,
    room'.roomId = room.roomId → ∀ a b, room.attempt = some a → room'.attempt = some b →
      SameAttempt a b ∨ (a.attemptNumber < b.attemptNumber ∧ a.attemptId ≠ b.attemptId)

/-- No call replaces or drops an attempt that is not in a terminal phase. -/
def AttemptsStay (s : Store) : Prop :=
  ∀ op, ∀ room ∈ s.db.rooms, ∀ a, room.attempt = some a → a.phase.terminal = false →
    ∀ room' ∈ (s.step op).db.rooms, room'.roomId = room.roomId →
      ∃ b, room'.attempt = some b ∧ SameAttempt a b

/-- The role the attempt gives a member. -/
def Attempt.roleOf (a : Attempt) (id : MemberId) : SwitchRoomRole :=
  if a.creatorMemberId = some id then .creator else .finder

/-- Both members have the role a running attempt gives them, but for a member that went
offline while the attempt closes: it has none. -/
def RolesMatch (s : Store) : Prop :=
  ∀ room ∈ s.db.rooms, ∀ a, room.attempt = some a → a.phase.terminal = false →
    ∀ m ∈ room.active, m.switchRoomRole = some (a.roleOf m.memberId) ∨
      (a.phase = .closing ∧ m.onlineState = .offline ∧ m.switchRoomRole = none)

theorem Room.Paired.roleOf {room : Room} {a : Attempt} (h : room.Paired a)
    (active : a.phase.terminal = false) (id : MemberId) :
    a.localSwitchRole id = some (a.roleOf id) := by
  obtain ⟨creator, -, hcreator⟩ := h.creator
  simp only [Attempt.localSwitchRole, Attempt.roleOf, active, hcreator]
  by_cases own : some creator = some id
  · simp [own]
  · simp [own]

/-- In every reachable state an attempt belongs to the two members of its room, is numbered
after every earlier one, and is not replaced while it runs. In every run in which `lock_role`
is not accepted for a closing or finished attempt, the members of a running attempt have the
roles it gives them, but for one that went offline while it closes. -/
theorem attempts_paired {s : Store} (hs : system.Reachable System.Free s) :
    AttemptsPaired s ∧ AttemptsNumbered s ∧ AttemptsStay s ∧
      (system.Reachable KeepsRoles s → RolesMatch s) := by
  have housed : s.Housed False := reachable_free_housed hs
  have hsound : ∀ room ∈ s.db.rooms, room.Sound False := reachable_sound (fun h => h.elim) hs
  refine ⟨fun room hr a ha => ?_, fun t hrun room hr room' hr' hid a b ha hb => ?_,
    fun op room hr a ha active room' hr' hid => ?_, fun hkept room hr a ha active m hm => ?_⟩
  · obtain ⟨two, ⟨creator, hcreator, hmade⟩, generation, last, -⟩ := (hsound room hr).paired a ha
    rw [Room.pair_length] at two
    obtain ⟨hA, hB⟩ := (housed.housed.seated room hr).both two
    obtain ⟨m, hm, rfl⟩ := Room.mem_pair.mp hcreator
    exact ⟨two, hA, hB, ⟨m, hm, hmade⟩, generation, last⟩
  · obtain ⟨room₀, hr₀, hid₀, hlast, hattempt⟩ :=
      (run_numbered hs hrun).2 room' hr' (hid ▸ housed.ids.rooms room hr)
    obtain rfl := housed.ids.unique hr₀ hr (hid₀.trans hid)
    obtain ⟨a', ha', same⟩ | ⟨hnumber, hfresh⟩ := hattempt b hb
    · obtain rfl := Option.some.inj (ha'.symm.trans ha)
      exact .inl same
    · rw [((hsound room₀ hr).paired a ha).last] at hnumber
      exact .inr ⟨hnumber, ((housed.ids.attempts room₀ hr a ha).trans_le hfresh).ne⟩
  · obtain hnew | ⟨room₀, hr₀, hid₀, hsucceeds⟩ :=
      (@step_sound s op False (fun h => h.elim) housed hsound).2 room' hr'
    · exact absurd (hid.symm.trans hnew) (housed.ids.rooms room hr).ne
    · obtain rfl := housed.ids.unique hr₀ hr (hid₀.trans hid)
      obtain ⟨b, hb, same, -⟩ := hsucceeds.stays a ha fun _ => active
      exact ⟨b, hb, same⟩
  · have hfull : ∀ room ∈ s.db.rooms, room.Sound True :=
      reachable_sound (fun _ _ _ hg => hg) hkept
    obtain ⟨hmember, hleft⟩ := List.mem_filter.mp hm
    have hrole := (hfull room hr).coupled trivial a ha active m hmember (by simpa using hleft)
    rwa [((hsound room hr).paired a ha).roleOf active] at hrole

theorem attempts_paired_started :
    ∃ room ∈ (Store.initial.run startedCalls).db.rooms, ∃ a, room.attempt = some a ∧
      room.active.length = 2 ∧ room.lastAttemptNumber = some a.attemptNumber ∧
      ∀ m ∈ room.active, m.switchRoomRole = some (a.roleOf m.memberId) := by
  have hguard : ∀ s : Store, startedCalls.Forall (KeepsRoles s) :=
    fun s => ⟨trivial, trivial, trivial, trivial⟩
  obtain ⟨hpaired, -, -, hroles⟩ := attempts_paired (reachable_free startedCalls)
  have hstarted : (Store.initial.run startedCalls).db.rooms.any (fun room =>
      room.attempt.any (·.phase = .connectingSwitches)) = true := by
    decide
  obtain ⟨room, hr, hstarted⟩ := List.any_eq_true.mp hstarted
  obtain ⟨a, ha, hphase⟩ := (Option.any_eq_true _ _).mp hstarted
  have hphase : a.phase = .connectingSwitches := by simpa using hphase
  obtain ⟨two, -, -, -, -, last⟩ := hpaired room hr a ha
  refine ⟨room, hr, a, ha, two, last, fun m hm => ?_⟩
  have hrole := hroles (reachable_calls _ hguard) room hr a ha (by rw [hphase]; rfl) m hm
  exact hrole.resolve_right fun h => by simp [hphase] at h

/-- Both members miss their heartbeats, one of them records the closing intent while it may
still reconnect, and the next sweep takes both offline: the attempt closes without roles. -/
theorem offline_member_loses_role :
    ¬ ∀ s, system.Reachable System.Free s →
      AttemptsPaired s ∧ AttemptsNumbered s ∧ AttemptsStay s ∧
        ∀ room ∈ s.db.rooms, ∀ a, room.attempt = some a → a.phase.terminal = false →
          ∀ m ∈ room.active, m.switchRoomRole = some (a.roleOf m.memberId) := by
  intro h
  let s := Store.initial.run (startedCalls ++ [.sweepPresence (46 * second),
    .beginDClosing (120 * second) 0 3 "d" 15
      { contractVersion := "d-closing-intent.v1", attemptId := some 15
        activationGeneration := some 1
        outcome := some .canceled, primaryFailureCode := .null, lastPassedGate := some "C1" } 6,
    .sweepPresence (137 * second)])
  have hlapsed : s.db.rooms.any (fun room => room.attempt.any fun a => a.phase = .closing &&
      room.active.any fun m => m.switchRoomRole = none) = true := by
    decide
  obtain ⟨room, hr, hlapsed⟩ := List.any_eq_true.mp hlapsed
  obtain ⟨a, ha, hlapsed⟩ := (Option.any_eq_true _ _).mp hlapsed
  simp only [Bool.and_eq_true, List.any_eq_true, decide_eq_true_eq] at hlapsed
  obtain ⟨hclosing, m, hm, hnone⟩ := hlapsed
  have hrole := (h s (reachable_free _)).2.2.2 room hr a ha (by rw [hclosing]; rfl) m hm
  simp [hnone] at hrole

end SwitchTrade.Authority

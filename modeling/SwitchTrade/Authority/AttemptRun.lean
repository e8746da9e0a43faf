import SwitchTrade.Authority.RoomChange
import Mathlib.Order.Basic
import Mathlib.Order.Nat

/-!
# Attempts along a run

An attempt is one value of `attempt_id`. `Reachable.attempts` and `Run.attempts` carry a
property of single attempts, and a preorder between two readings of one attempt, from one
write of a document to a whole run of the store.
-/

namespace SwitchTrade.Authority

open Fallible Relation Transition

/-! ## Who wrote -/

/-- The call behind a write, where its arguments matter. -/
def Writer.By (s : Store) (op : Op) (room r : Room) : Writer → Prop
  | .action act =>
    ∃ now roomId bearer commandId payload version memberId event data revoked,
      op = .mutate now roomId bearer commandId act payload version ∧
      s.db.Addresses now roomId bearer commandId (.member · act) room memberId ∧
      room.mutate now s.supply memberId act payload version = .ok (.write r event data revoked)
  | .beginDClosing =>
    ∃ now roomId bearer commandId attemptId payload version memberId event data revoked,
      op = .beginDClosing now roomId bearer commandId attemptId payload version ∧
      s.db.Addresses now roomId bearer commandId (.dClosing · attemptId) room memberId ∧
      room.beginDClosing now memberId attemptId payload version = .ok (.write r event data revoked)
  | .acknowledgeDQuiescent =>
    ∃ now roomId bearer commandId attemptId payload version memberId event data revoked,
      op = .acknowledgeDQuiescent now roomId bearer commandId attemptId payload version ∧
      s.db.Addresses now roomId bearer commandId (.dQuiescent · attemptId) room memberId ∧
      room.acknowledgeDQuiescent now memberId attemptId payload version =
        .ok (.write r event data revoked)
  | _ => True

/-- Every write of a document is one move of its attempt. -/
theorem RoomWrite.move {s : Store} {op : Op} {room r : Room} (h : RoomWrite s op room r) :
    ∃ w, AttemptMove op.now s.supply w room.attempt r.attempt ∧ w.By s op room r := by
  cases h with
  | expire => exact ⟨.presence, .same _ _, trivial⟩
  | mutate call addressed written =>
    subst call
    exact ⟨_, Room.mutate_move written, _, _, _, _, _, _, _, _, _, _, rfl, addressed, written⟩
  | beginDClosing call addressed written =>
    subst call
    exact ⟨_, Room.beginDClosing_move written,
      _, _, _, _, _, _, _, _, _, _, _, rfl, addressed, written⟩
  | acknowledgeDQuiescent call addressed written =>
    subst call
    exact ⟨_, Room.acknowledgeDQuiescent_move written,
      _, _, _, _, _, _, _, _, _, _, _, rfl, addressed, written⟩
  | join _ written =>
    simp only [Room.joinRoom, bind_eq_ok, raiseIf_eq_ok, pure_eq_ok] at written
    obtain ⟨-, -, rfl⟩ := written
    exact ⟨.presence, .same _ _, trivial⟩
  | reconnect _ written =>
    simp only [Room.reconnectMember, bind_eq_ok, raiseIf_eq_ok, orRaise_eq_ok, pure_eq_ok]
      at written
    obtain ⟨-, -, -, -, -, -, -, -, rfl⟩ := written
    exact ⟨.presence, .same _ _, trivial⟩
  | fail _ written => exact ⟨_, Room.failTransportAttempt_move written, trivial⟩
  | force _ written => exact ⟨_, Room.forceDBarrier_move written, trivial⟩
  | sweepBarrier _ written => exact ⟨_, Room.sweepBarrier_move written, trivial⟩
  | sweepMember _ written => exact ⟨_, Room.sweepMember_move written, trivial⟩

/-! ## Two readings of the attempt of one room -/

/-- The second reading satisfies `P` if the first does, and if it is of an attempt older
than `bound`, the first was of the same attempt and `R` relates them. -/
def Kept (bound : AttemptId) (P : Attempt → Prop) (R : Attempt → Attempt → Prop)
    (x y : Option Attempt) : Prop :=
  (∀ a, x = some a → P a) → ∀ b, y = some b →
    P b ∧ (b.attemptId < bound → ∃ a, x = some a ∧ a.attemptId = b.attemptId ∧ R a b)

section Kept

variable {bound : AttemptId} {P : Attempt → Prop} {R : Attempt → Attempt → Prop}

theorem Kept.refl (hrefl : ∀ a, R a a) (x : Option Attempt) : Kept bound P R x x :=
  fun hx a ha => ⟨hx a ha, fun _ => ⟨a, ha, rfl, hrefl a⟩⟩

theorem Kept.trans (htrans : ∀ a b c, R a b → R b c → R a c) {x y z : Option Attempt}
    (hxy : Kept bound P R x y) (hyz : Kept bound P R y z) : Kept bound P R x z := by
  intro hx c hc
  have hy : ∀ b, y = some b → P b := fun b hb => (hxy hx b hb).1
  refine ⟨(hyz hy c hc).1, fun hbound => ?_⟩
  obtain ⟨b, hb, hid, hbc⟩ := (hyz hy c hc).2 hbound
  obtain ⟨a, ha, hid', hab⟩ := (hxy hx b hb).2 (hid ▸ hbound)
  exact ⟨a, ha, hid'.trans hid, htrans a b c hab hbc⟩

theorem RoomChange.kept {s : Store} {op : Op} (hrefl : ∀ a, R a a)
    (htrans : ∀ a b c, R a b → R b c → R a c)
    (hwrite : ∀ room r, RoomWrite s op room r → Kept s.supply P R room.attempt r.attempt)
    {room room' : Room} (h : RoomChange s op room room') :
    Kept s.supply P R room.attempt room'.attempt := by
  induction h with
  | refl => exact .refl hrefl _
  | tail _ hlast ih =>
    obtain ⟨r, sequence, hwritten, rfl⟩ := hlast
    exact ih.trans htrans (hwrite _ r hwritten)

end Kept

/-! ## Identifiers are drawn once -/

/-- Room identifiers are pairwise different, and every identifier came from the supply. -/
structure Store.Ids (s : Store) : Prop where
  nodup : (s.db.rooms.map (·.roomId)).Nodup
  rooms : ∀ room ∈ s.db.rooms, room.roomId < s.supply
  attempts : ∀ room ∈ s.db.rooms, ∀ a, room.attempt = some a → a.attemptId < s.supply

theorem Store.Ids.unique {s : Store} (h : s.Ids) {room room' : Room} (hr : room ∈ s.db.rooms)
    (hr' : room' ∈ s.db.rooms) (hid : room.roomId = room'.roomId) : room = room' :=
  List.inj_on_of_nodup_map h.nodup hr hr' hid

theorem failActiveRow_supply {now : Time} {code : String} (acc : Except Exn Nat × Store)
    (row : Room) : acc.2.supply ≤ (Store.failActiveRow now code acc row).2.supply := by
  have htransaction : ∀ (s : Store) (α : Type) (body : Database → Except Exn (α × Database)),
      s.supply ≤ (s.transaction body).2.supply := by
    intro s α body
    unfold Store.transaction
    simp only
    split <;> exact Nat.le_add_right _ _
  unfold Store.failActiveRow
  split
  · rename_i failed attempt _ _
    have hforced : acc.2.supply ≤ (if attempt.phase = .closing then
        acc.2.forceDBarrier now row.roomId attempt.attemptId "D_RELAY_RESTART"
        else (.ok false, acc.2)).2.supply := by
      split
      · exact htransaction ..
      · exact le_rfl
    simp only
    split
    · exact hforced
    · exact hforced
    · split <;> exact hforced.trans (htransaction ..)
  · exact le_rfl

theorem failActiveAttempts_supply (s : Store) (now : Time) (code : String) :
    s.supply + drawsPerCall ≤ (s.failActiveAttempts now code).2.supply := by
  suffices hrows : ∀ (rows : List Room) (acc : Except Exn Nat × Store),
      acc.2.supply ≤ (rows.foldl (Store.failActiveRow now code) acc).2.supply from
    hrows s.db.rooms (.ok 0, { s with supply := s.supply + drawsPerCall })
  intro rows
  induction rows with
  | nil => exact fun acc => le_rfl
  | cons row rows ih => exact fun acc => (failActiveRow_supply acc row).trans (ih _)

theorem step_supply (s : Store) (op : Op) : s.supply + drawsPerCall ≤ (s.step op).supply := by
  have htransaction : ∀ (α : Type) (body : Database → Except Exn (α × Database)),
      s.supply + drawsPerCall ≤ (s.transaction body).2.supply := by
    intro α body
    unfold Store.transaction
    simp only
    split <;> exact le_rfl
  have hsecret : ∀ now scope commandId body,
      s.supply + drawsPerCall ≤ (s.secretCommand now scope commandId body).2.supply := by
    intro now scope commandId body
    unfold Store.secretCommand
    simp only
    split
    · exact le_rfl
    · exact le_rfl
    · split <;> exact le_rfl
  cases op with
  | create => exact hsecret ..
  | join => exact hsecret ..
  | joinPublic => exact hsecret ..
  | reconnect => exact hsecret ..
  | expire => exact htransaction ..
  | mutate => exact htransaction ..
  | beginDClosing => exact htransaction ..
  | acknowledgeDQuiescent => exact htransaction ..
  | failTransportAttempt => exact htransaction ..
  | forceDBarrier => exact htransaction ..
  | failActiveAttempts now code => exact failActiveAttempts_supply s now code
  | sweepPresence => exact htransaction ..
  | restart now => exact failActiveAttempts_supply { s with ephemeral := [] } now "relay.restart"

theorem AttemptMove.id {now : Time} {fresh : AttemptId} {w : Writer} {x y : Option Attempt}
    (h : AttemptMove now fresh w x y) {b : Attempt} (hb : y = some b) :
    b.attemptId = fresh ∨ ∃ a, x = some a ∧ a.attemptId = b.attemptId := by
  cases h with
  | same => exact .inr ⟨b, hb, rfl⟩
  | drop => cases hb
  | begin act x b' finished id =>
    cases hb
    exact .inl id
  | assign act a b' unlocked id =>
    cases hb
    exact .inr ⟨a, rfl, id.symm⟩
  | lock a | refine a | move a | cancel a | close a | report a | conclude a | force _ a
  | fail _ a =>
    cases hb
    exact .inr ⟨a, rfl, rfl⟩

theorem RoomWrite.id {s : Store} {op : Op} {room r : Room} (h : RoomWrite s op room r) {b : Attempt}
    (hb : r.attempt = some b) :
    b.attemptId = s.supply ∨ ∃ a, room.attempt = some a ∧ a.attemptId = b.attemptId := by
  obtain ⟨w, hmove, -⟩ := h.move
  exact hmove.id hb

/-- Every document after a call is a new one without an attempt, or was changed by it. -/
theorem step_rooms {s : Store} (ids : s.Ids) {op : Op} {room' : Room}
    (h : room' ∈ (s.step op).db.rooms) :
    (room'.roomId = s.supply ∧ room'.attempt = none) ∨
      ∃ room ∈ s.db.rooms, RoomChange s op room room' := by
  obtain ⟨created, hrooms, hid, hnone⟩ | hchanges :=
    step_changes op ids.nodup fun room hr => (ids.rooms room hr).ne
  · rw [hrooms, List.mem_append, List.mem_singleton] at h
    rcases h with h | rfl
    · exact .inr ⟨room', h, .refl⟩
    · exact .inl ⟨hid, hnone⟩
  · exact .inr (hchanges.rooms h)

/-- The reading `Kept` gives when nothing is asked of attempts but their identifiers. -/
theorem RoomChange.id {s : Store} {op : Op} {room room' : Room} (h : RoomChange s op room room')
    {b : Attempt} (hb : room'.attempt = some b) :
    b.attemptId = s.supply ∨ ∃ a, room.attempt = some a ∧ a.attemptId = b.attemptId := by
  induction h generalizing b with
  | refl => exact .inr ⟨b, hb, rfl⟩
  | tail _ hlast ih =>
    obtain ⟨r, sequence, hwritten, rfl⟩ := hlast
    rcases hwritten.id hb with hfresh | ⟨a, ha, hid⟩
    · exact .inl hfresh
    · rw [← hid]
      exact ih ha

theorem RoomChange.roomId {s : Store} {op : Op} {room room' : Room}
    (h : RoomChange s op room room') : room'.roomId = room.roomId := by
  induction h with
  | refl => rfl
  | tail _ hlast ih =>
    obtain ⟨r, sequence, hwritten, rfl⟩ := hlast
    exact hwritten.roomId.trans ih

/-- Changes of the documents of a store draw no identifier from its supply but the one of a
new attempt. -/
theorem Changes.store_ids {s t : Store} {op : Op} (h : Changes s op s.db t.db) (ids : s.Ids)
    (later : s.supply < t.supply) : t.Ids := by
  refine ⟨h.ids.nodup ids.nodup, fun room' hr' => ?_, fun room' hr' b hb => ?_⟩
  · obtain ⟨room, hr, hchange⟩ := h.rooms hr'
    exact hchange.roomId ▸ (ids.rooms room hr).trans later
  · obtain ⟨room, hr, hchange⟩ := h.rooms hr'
    rcases hchange.id hb with hfresh | ⟨a, ha, hid⟩
    · exact hfresh ▸ later
    · exact hid ▸ (ids.attempts room hr a ha).trans later

theorem step_ids {s : Store} (ids : s.Ids) (op : Op) : (s.step op).Ids := by
  have hsupply : s.supply < (s.step op).supply :=
    (Nat.lt_add_of_pos_right (by decide)).trans_le (step_supply s op)
  have hfresh : ∀ room ∈ s.db.rooms, room.roomId ≠ s.supply := fun room hr => (ids.rooms room hr).ne
  obtain ⟨created, hrooms, hid, hnone⟩ | hchanges := step_changes op ids.nodup hfresh
  · refine ⟨?_, fun room' hr' => ?_, fun room' hr' b hb => ?_⟩
    · rw [hrooms, List.map_append, List.nodup_append]
      refine ⟨ids.nodup, List.nodup_singleton _, fun n hn m hm => ?_⟩
      obtain ⟨room, hr, rfl⟩ := List.mem_map.mp hn
      rw [List.map_singleton, List.mem_singleton] at hm
      exact fun heq => hfresh room hr (heq.trans (hm.trans hid))
    · rw [hrooms, List.mem_append, List.mem_singleton] at hr'
      rcases hr' with hr' | rfl
      · exact (ids.rooms room' hr').trans hsupply
      · exact hid ▸ hsupply
    · rw [hrooms, List.mem_append, List.mem_singleton] at hr'
      rcases hr' with hr' | rfl
      · exact (ids.attempts room' hr' b hb).trans hsupply
      · simp [hnone] at hb
  · exact hchanges.store_ids ids hsupply

theorem reachable_ids {G : Store → Op → Prop} {s : Store} (h : system.Reachable G s) : s.Ids := by
  refine h.invariant (fun s hs => ?_) fun s op t hs _ ht => ?_
  · subst hs
    exact ⟨List.nodup_nil, fun room hr => (List.not_mem_nil hr).elim,
      fun room hr => (List.not_mem_nil hr).elim⟩
  · subst ht
    exact step_ids hs op

/-! ## The two rules -/

section Rules

variable {G : Store → Op → Prop} {P : Attempt → Prop} {R : Attempt → Attempt → Prop}

/-- Every attempt of `t` that is older than `s` was held in `s` by the same room, and `R`
relates its two readings. -/
def AttemptTrace (R : Attempt → Attempt → Prop) (s t : Store) : Prop :=
  s.supply ≤ t.supply ∧ ∀ room' ∈ t.db.rooms, ∀ b, room'.attempt = some b → b.attemptId < s.supply →
    ∃ room ∈ s.db.rooms, room.roomId = room'.roomId ∧
      ∃ a, room.attempt = some a ∧ a.attemptId = b.attemptId ∧ R a b

/-- A property of attempts that every guarded write keeps holds of every attempt of every
reachable state. -/
theorem reachable_attempts
    (hwrite : ∀ s op room r, G s op → RoomWrite s op room r →
      (∀ a, room.attempt = some a → P a) → ∀ b, r.attempt = some b → P b)
    {s : Store} (h : system.Reachable G s) {room : Room} (hr : room ∈ s.db.rooms) {a : Attempt}
    (ha : room.attempt = some a) : P a := by
  have hinv : s.Ids ∧ ∀ room ∈ s.db.rooms, ∀ a, room.attempt = some a → P a := by
    refine h.invariant (P := fun s => s.Ids ∧ ∀ room ∈ s.db.rooms, ∀ a, room.attempt = some a → P a)
      (fun s hs => ⟨reachable_ids (G := G) (.init hs), ?_⟩) fun s op t ⟨ids, hs⟩ hg ht => ?_
    · subst hs
      exact fun room hr => (List.not_mem_nil hr).elim
    · subst ht
      refine ⟨step_ids ids op, fun room' hr' b hb => ?_⟩
      rcases step_rooms ids hr' with ⟨-, hnone⟩ | ⟨room, hr, hchange⟩
      · simp [hnone] at hb
      · have hkept := hchange.kept (P := P) (R := fun _ _ => True) (fun _ => trivial)
          (fun _ _ _ _ _ => trivial) fun room r hwritten hx b hb =>
            ⟨hwrite s op room r hg hwritten hx b hb, fun hlt => by
              rcases hwritten.id hb with hfresh | ⟨a, ha, hid⟩
              · exact absurd hfresh hlt.ne
              · exact ⟨a, ha, hid, trivial⟩⟩
        exact (hkept (hs room hr) b hb).1
  exact hinv.2 room hr a ha

/-- A preorder between two readings of one attempt that every guarded write keeps holds
along every guarded run. -/
theorem run_attempts (hrefl : ∀ a, R a a) (htrans : ∀ a b c, R a b → R b c → R a c)
    (hwrite : ∀ s op room r, G s op → RoomWrite s op room r →
      Kept s.supply P R room.attempt r.attempt)
    {s t : Store} (h : system.Reachable G s) (hrun : system.Run G s t) : AttemptTrace R s t := by
  have hP : ∀ s, system.Reachable G s → ∀ room ∈ s.db.rooms, ∀ a, room.attempt = some a → P a :=
    fun s hs room hr a ha =>
      reachable_attempts (fun s op room r hg hw hx b hb => (hwrite s op room r hg hw hx b hb).1)
        hs hr ha
  refine hrun.relates (R := AttemptTrace R) (fun s => ?_) (fun s t u hst htu => ?_)
    (fun s op t hs hg ht => ?_) h
  · exact ⟨le_rfl, fun room' hr b hb _ => ⟨room', hr, rfl, b, hb, rfl, hrefl b⟩⟩
  · refine ⟨hst.1.trans htu.1, fun room₂ hr₂ c hc hlt => ?_⟩
    obtain ⟨room₁, hr₁, hid₁, b, hb, hbc, hR₁⟩ := htu.2 room₂ hr₂ c hc (hlt.trans_le hst.1)
    obtain ⟨room₀, hr₀, hid₀, a, ha, hab, hR₀⟩ := hst.2 room₁ hr₁ b hb (hbc ▸ hlt)
    exact ⟨room₀, hr₀, hid₀.trans hid₁, a, ha, hab.trans hbc, htrans a b c hR₀ hR₁⟩
  · subst ht
    refine ⟨(Nat.le_add_right _ _).trans (step_supply s op), fun room' hr' b hb hlt => ?_⟩
    rcases step_rooms (reachable_ids hs) hr' with ⟨-, hnone⟩ | ⟨room, hr, hchange⟩
    · simp [hnone] at hb
    · have hkept := hchange.kept hrefl htrans fun room r => hwrite s op room r hg
      exact ⟨room, hr, hchange.roomId.symm, (hkept (hP s hs room hr) b hb).2 hlt⟩

theorem attemptOf_room {s : Store} {roomId : RoomId} {a : Attempt}
    (h : s.attemptOf roomId = some a) :
    ∃ room ∈ s.db.rooms, room.roomId = roomId ∧ room.attempt = some a := by
  obtain ⟨room, hroom, ha⟩ := Option.bind_eq_some_iff.mp h
  obtain ⟨hr, hid⟩ := Database.room?_mem hroom
  exact ⟨room, hr, hid, ha⟩

/-- Two readings of the attempt of one room along a run, by their identifiers. -/
theorem AttemptTrace.read {s t : Store} (h : AttemptTrace R s t) (ids : s.Ids) {roomId : RoomId}
    {a b : Attempt} (ha : s.attemptOf roomId = some a) (hb : t.attemptOf roomId = some b)
    (hid : b.attemptId = a.attemptId) : R a b := by
  obtain ⟨room, hr, hroom, ha⟩ := attemptOf_room ha
  obtain ⟨room', hr', hroom', hb⟩ := attemptOf_room hb
  have hlt : b.attemptId < s.supply := hid ▸ ids.attempts room hr a ha
  obtain ⟨room₀, hr₀, hid₀, a₀, ha₀, -, hR⟩ := h.2 room' hr' b hb hlt
  obtain rfl := ids.unique hr₀ hr (hid₀.trans (hroom'.trans hroom.symm))
  obtain rfl : a₀ = a := Option.some.inj (ha₀.symm.trans ha)
  exact hR

end Rules

/-- Two readings of the attempt of a room, found by evaluation. -/
theorem readings {s t : Store} (roomId : RoomId) {p : Attempt → Attempt → Prop}
    [∀ a b, Decidable (p a b)]
    (h : ((s.attemptOf roomId).any fun a => (t.attemptOf roomId).any fun b => p a b) = true) :
    ∃ a b, s.attemptOf roomId = some a ∧ t.attemptOf roomId = some b ∧ p a b := by
  obtain ⟨a, ha, h⟩ := (Option.any_eq_true _ _).mp h
  obtain ⟨b, hb, h⟩ := (Option.any_eq_true _ _).mp h
  exact ⟨a, b, ha, hb, of_decide_eq_true h⟩

/-! ## A room whose attempt has started

The runs of the examples below and in the modules that follow start with these calls: room
`0` with the members `1` (token `3`) and `6` (token `8`), who are ready for attempt `15`.
`closingCall` is the closing intent of member `1`. -/

def readyCall (bearer : Token) (commandId : CommandId) (role : SwitchRoomRole) : Op :=
  .mutate 0 0 bearer commandId .ready { ready := some true, switchRoomRole := some role } none

def startedCalls : List Op :=
  [.create 0 { name := "room", trainerDisplayName := "a", game := "g", language := "l" } "c" "x"
      ["CODE"],
    .join 0 "CODE" "b" "j" "y", readyCall 3 "r" .creator, readyCall 8 "r" .finder]

def closingCall (outcome : DOutcome) : Op :=
  .beginDClosing 1 0 3 "d" 15
    { contractVersion := "d-closing-intent.v1", attemptId := some 15, activationGeneration := some 1
      outcome := some outcome, primaryFailureCode := .null, lastPassedGate := some "C1" } 4

example : (Store.initial.run startedCalls).attemptOf 0 =
    some
      { attemptId := 15, attemptNumber := 1, activationGeneration := 1
        phase := .connectingSwitches, creatorMemberId := some 1, roleLocked := true
        roleLockVersion := 4, startedAt := 0, updatedAt := 0, retryCount := 0
        recoverableError := none, d := none } := by
  decide

end SwitchTrade.Authority

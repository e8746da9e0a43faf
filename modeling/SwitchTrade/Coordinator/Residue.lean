import SwitchTrade.Coordinator.Edit

/-!
# What a rejected command leaves behind

A handler that raises has mostly only read. The two exceptions write before their last
check: `request_cancel` sets its flag before it looks at the code and the message, and
`bind_authority` of a run whose roles were bound at the start writes the room before it
compares the role. The other uses of `_bind_once` cannot fail half way, because the keys
they bind are bound together or not at all; that is `Shaped`, an invariant of every record.
-/

namespace SwitchTrade.Coordinator

open InPlace

/-- Which keys of the authority are bound together. -/
structure AuthorityShape (b : Key → Option Scalar) : Prop where
  version : (b .roomVersion).isSome = (b .roomId).isSome
  seat : (b .authoritySeat).isSome = (b .roomId).isSome
  role : (b .roomId).isSome → (b .switchRole).isSome
  roles : (b .switchRole = none ∧ b .ldnRole = none) ∨
    ∃ role : SwitchRole, b .switchRole = some (.text (StrEnum.value role)) ∧
      b .ldnRole = some (.text (StrEnum.value role.ldnRole))
  direction : (b .tunnelDirection).isSome → (b .roomId).isSome

/-- The keys of a group are unbound until its flag is set. -/
structure OwnershipShape (b : Key → Option Scalar) (o : Ownership) : Prop where
  wrapper : o.wrapperAcquired = false →
    b .wrapperPid = none ∧ b .processStartTicks = none ∧ b .busId = none
  p0 : o.p0SideReady = false → b .phy = none ∧ b .netdev = none
  endpoint : o.endpointStarted = false → b .endpointPid = none ∧ b .endpointStartTicks = none

/-- Which keys of a record are bound together. -/
structure Record.Shaped (r : Record) : Prop extends
    AuthorityShape r.identity.bound, OwnershipShape r.identity.bound r.ownership where
  attempt : (r.identity.bound .roleLockVersion).isSome = (r.identity.bound .attemptId).isSome

/-! ## `_bind_once` from a given record -/

/-- Updates that agree with the bound keys are all made. -/
theorem bindOnce_fits {updates : List (Key × Scalar)} {r : Record}
    (hn : (updates.map Prod.fst).Nodup)
    (hf : ∀ k v, (k, v) ∈ updates → r.identity.bound k = none ∨ r.identity.bound k = some v) :
    AtomicAt (bindOnce updates) r := by
  intro e t h
  obtain ⟨before, key, value, after, current, he, rfl, hc, hne⟩ := bindOnce_error h
  rw [he, List.map_append, List.map_cons] at hn
  have hkey : key ∉ before.map Prod.fst := by
    intro hm
    exact (List.nodup_append.mp hn).2.2 _ hm _ List.mem_cons_self rfl
  have hlook : before.lookup key = none := by
    rw [List.lookup_eq_none_iff]
    intro p hp
    rw [bne_iff_ne]
    rintro rfl
    exact hkey (List.mem_map_of_mem hp)
  rw [fill_bound, hlook, Option.or_none] at hc
  rcases hf key value (by rw [he]; simp) with hb | hb
  · rw [hb] at hc
    cases hc
  · rw [hb] at hc
    cases hc
    exact absurd rfl hne

/-- A key that is bound, to whatever value, is compared before anything is written. -/
theorem bindOnce_bound {updates : List (Key × Scalar)} {r : Record} {k : Key} {v : Scalar}
    (hb : (r.identity.bound k).isSome) (h : AtomicAt (bindOnce updates) r) :
    AtomicAt (bindOnce ((k, v) :: updates)) r := by
  obtain ⟨w, hw⟩ := Option.isSome_iff_exists.mp hb
  unfold bindOnce
  apply AtomicAt.bind_reads Reads.get
  intro record hr
  obtain ⟨rfl, -⟩ := get_eq_ok.mp hr
  simp only [hw]
  apply AtomicAt.bind_reads (Reads.raiseIf _ _)
  intro _ _
  exact h

theorem bindOnce_single {r : Record} {k : Key} {v : Scalar} : AtomicAt (bindOnce [(k, v)]) r := by
  cases hb : r.identity.bound k with
  | none =>
    apply bindOnce_fits (by simp)
    intro k' v' hm
    cases List.mem_singleton.mp hm
    exact .inl hb
  | some w =>
    apply bindOnce_bound (by rw [hb]; rfl)
    exact (Quiet.pure false).atomicAt r

/-! ## The commands that are always atomic -/

section
variable {r : Record}

theorem cmdTransition_atomic (phase gate : Value) : AtomicAt (cmdTransition phase gate) r := by
  unfold cmdTransition
  apply AtomicAt.bind_reads Reads.get
  intro record _
  apply AtomicAt.bind_reads (Reads.check _)
  intro target _
  apply AtomicAt.bind_reads (Reads.raiseIf _ _)
  intro _ _
  apply AtomicAt.bind_reads (Reads.check _)
  intro nextGate _
  apply AtomicAt.ite
  · intro _
    exact (Quiet.pure _).atomicAt r
  · intro _
    apply AtomicAt.bind_reads (Reads.raiseIf _ _)
    intro _ _
    exact ((Quiet.modify _).bind fun _ => Quiet.pure _).atomicAt r

theorem cmdPassGate_atomic (gate : Value) : AtomicAt (cmdPassGate gate) r := by
  unfold cmdPassGate
  apply AtomicAt.bind_reads Reads.get
  intro record _
  apply AtomicAt.bind_reads (Reads.raiseIf _ _)
  intro _ _
  apply AtomicAt.bind_reads (Reads.check _)
  intro passed _
  apply AtomicAt.ite
  · intro _
    exact (Quiet.pure _).atomicAt r
  · intro _
    exact ((Quiet.modify _).bind fun _ => Quiet.pure _).atomicAt r

/-- The keys are compared where the flag of their group is set, and bound where it is not. -/
theorem assertOrBind_atomic {c : Prop} [Decidable c] {updates : List (Key × Scalar)}
    {f : Record → Record} {event : String} (h : ¬ c → AtomicAt (bindOnce updates) r) :
    AtomicAt (if c then do
        assertBound updates
        pure Finish.copy
      else do
        let _ ← bindOnce updates
        modify f
        pure (Finish.persist event)) r := by
  apply AtomicAt.ite
  · intro _
    apply AtomicAt.bind_reads (reads_assertBound updates)
    intro _ _
    exact (Quiet.pure _).atomicAt r
  · intro hc
    apply (h hc).bind_quiet
    intro _
    exact (Quiet.modify _).bind fun _ => Quiet.pure _

theorem cmdAcquireWrapper_atomic (py : Stdlib)
    (wrapperPid processStartTicks adapterInstanceId usbId busId : Value) (hs : r.Shaped) :
    AtomicAt (cmdAcquireWrapper py wrapperPid processStartTicks adapterInstanceId usbId busId)
      r := by
  unfold cmdAcquireWrapper
  apply AtomicAt.bind_reads reads_requireRunning
  intro _ _
  apply AtomicAt.bind_reads Reads.get
  intro record hrecord
  obtain ⟨rfl, -⟩ := get_eq_ok.mp hrecord
  apply AtomicAt.bind_reads (Reads.raiseIf _ _)
  intro _ _
  apply AtomicAt.bind_reads (Reads.check _)
  intro pid _
  apply AtomicAt.bind_reads (Reads.check _)
  intro ticks _
  apply AtomicAt.bind_reads (Reads.check _)
  intro adapter _
  apply AtomicAt.bind_reads (Reads.check _)
  intro usb _
  apply AtomicAt.bind_reads (Reads.check _)
  intro bus _
  apply AtomicAt.bind_reads (Reads.raiseIf _ _)
  intro _ hsame
  apply assertOrBind_atomic
  intro hn
  obtain ⟨hg, -⟩ := raiseIf_eq_ok.mp hsame
  obtain ⟨hpid, hticks, hbus⟩ := hs.wrapper (eq_false_of_ne_true hn)
  have hadapter : r.identity.bound .adapterInstanceId = some (.text adapter) :=
    by_contra fun hne => hg (.inl hne)
  have husb : r.identity.bound .usbId = some (.text usb) :=
    by_contra fun hne => hg (.inr hne)
  apply bindOnce_fits (by simp [wrapperUpdates])
  intro k v hm
  simp only [wrapperUpdates, List.mem_cons, Prod.mk.injEq, List.not_mem_nil, or_false] at hm
  rcases hm with ⟨rfl, rfl⟩ | ⟨rfl, rfl⟩ | ⟨rfl, rfl⟩ | ⟨rfl, rfl⟩ | ⟨rfl, rfl⟩
  · exact .inl hpid
  · exact .inl hticks
  · exact .inr hadapter
  · exact .inr husb
  · exact .inl hbus

theorem cmdMarkP0Ready_atomic (wrapperPid processStartTicks phy netdev : Value) (hs : r.Shaped) :
    AtomicAt (cmdMarkP0Ready wrapperPid processStartTicks phy netdev) r := by
  unfold cmdMarkP0Ready
  apply AtomicAt.bind_reads reads_requireRunning
  intro _ _
  apply AtomicAt.bind_reads Reads.get
  intro record hrecord
  obtain ⟨rfl, -⟩ := get_eq_ok.mp hrecord
  apply AtomicAt.bind_reads (Reads.raiseIf _ _)
  intro _ _
  apply AtomicAt.bind_reads (Reads.check _)
  intro pid _
  apply AtomicAt.bind_reads (Reads.check _)
  intro ticks _
  apply AtomicAt.bind_reads (reads_assertBound _)
  intro _ _
  apply AtomicAt.bind_reads (Reads.check _)
  intro phy _
  apply AtomicAt.bind_reads (Reads.check _)
  intro netdev _
  apply assertOrBind_atomic
  intro hn
  obtain ⟨hphy, hnetdev⟩ := hs.p0 (eq_false_of_ne_true hn)
  apply bindOnce_fits (by simp)
  intro k v hm
  simp only [List.mem_cons, Prod.mk.injEq, List.not_mem_nil, or_false] at hm
  rcases hm with ⟨rfl, rfl⟩ | ⟨rfl, rfl⟩
  · exact .inl hphy
  · exact .inl hnetdev

theorem cmdLockAttempt_atomic (attemptId roleLockVersion : Value) (hs : r.Shaped) :
    AtomicAt (cmdLockAttempt attemptId roleLockVersion) r := by
  unfold cmdLockAttempt
  apply AtomicAt.bind_reads reads_requireRunning
  intro _ _
  apply AtomicAt.bind_reads Reads.get
  intro record _
  apply AtomicAt.bind_reads (Reads.raiseIf _ _)
  intro _ _
  apply AtomicAt.bind_reads (Reads.check _)
  intro attempt _
  apply AtomicAt.bind_reads (Reads.check _)
  intro version _
  have hbind : AtomicAt
      (bindOnce [(.attemptId, .text attempt), (.roleLockVersion, .int version)]) r := by
    have hversion := hs.attempt
    cases ha : r.identity.bound .attemptId with
    | some a =>
      apply bindOnce_bound (by rw [ha]; rfl)
      exact bindOnce_single
    | none =>
      rw [ha] at hversion
      apply bindOnce_fits (by simp)
      intro k v hm
      simp only [List.mem_cons, Prod.mk.injEq, List.not_mem_nil, or_false] at hm
      rcases hm with ⟨rfl, rfl⟩ | ⟨rfl, rfl⟩
      · exact .inl ha
      · exact .inl (Option.isNone_iff_eq_none.mp (by simpa using hversion))
  apply hbind.bind_quiet
  intro changed
  split
  · exact Quiet.pure _
  · exact Quiet.pure _

theorem cmdReserveEndpointLaunch_atomic (launchNonce : Value) :
    AtomicAt (cmdReserveEndpointLaunch launchNonce) r := by
  unfold cmdReserveEndpointLaunch
  apply AtomicAt.bind_reads reads_requireRunning
  intro _ _
  apply AtomicAt.bind_reads Reads.get
  intro record _
  apply AtomicAt.bind_reads (Reads.raiseIf _ _)
  intro _ _
  apply AtomicAt.bind_reads (Reads.raiseIf _ _)
  intro _ _
  apply AtomicAt.bind_reads (Reads.check _)
  intro nonce _
  apply AtomicAt.bind_reads (Reads.raiseIf _ _)
  intro _ _
  apply assertOrBind_atomic
  intro _
  exact bindOnce_single

theorem cmdAcknowledgeEndpoint_atomic (launchNonce endpointPid processStartTicks : Value)
    (hs : r.Shaped) :
    AtomicAt (cmdAcknowledgeEndpoint launchNonce endpointPid processStartTicks) r := by
  unfold cmdAcknowledgeEndpoint
  apply AtomicAt.bind_reads reads_requireRunning
  intro _ _
  apply AtomicAt.bind_reads Reads.get
  intro record hrecord
  obtain ⟨rfl, -⟩ := get_eq_ok.mp hrecord
  apply AtomicAt.bind_reads (Reads.raiseIf _ _)
  intro _ _
  apply AtomicAt.bind_reads (Reads.check _)
  intro nonce _
  apply AtomicAt.bind_reads (reads_assertBound _)
  intro _ _
  apply AtomicAt.bind_reads (Reads.check _)
  intro pid _
  apply AtomicAt.bind_reads (Reads.check _)
  intro ticks _
  apply assertOrBind_atomic
  intro hn
  obtain ⟨hpid, hticks⟩ := hs.endpoint (eq_false_of_ne_true hn)
  apply bindOnce_fits (by simp)
  intro k v hm
  simp only [List.mem_cons, Prod.mk.injEq, List.not_mem_nil, or_false] at hm
  rcases hm with ⟨rfl, rfl⟩ | ⟨rfl, rfl⟩
  · exact .inl hpid
  · exact .inl hticks

theorem cmdCloseRun_atomic (outcome code message : Value) :
    AtomicAt (cmdCloseRun outcome code message) r := by
  unfold cmdCloseRun
  apply AtomicAt.bind_reads Reads.get
  intro record _
  apply AtomicAt.bind_reads (Reads.check _)
  intro selected _
  apply AtomicAt.bind_reads (Reads.raiseIf _ _)
  intro _ _
  apply AtomicAt.bind_reads (Reads.check _)
  intro code _
  apply AtomicAt.bind_reads (Reads.check _)
  intro message _
  apply AtomicAt.bind_reads (Reads.raiseIf _ _)
  intro _ _
  apply AtomicAt.ite
  · intro _
    exact (Quiet.pure _).atomicAt r
  intro _
  apply AtomicAt.ite
  · intro _
    exact (Quiet.pure _).atomicAt r
  · intro _
    exact ((Quiet.modify _).bind fun _ => Quiet.pure _).atomicAt r

theorem cmdBeginCleanup_atomic : AtomicAt cmdBeginCleanup r := by
  unfold cmdBeginCleanup
  apply AtomicAt.bind_reads Reads.get
  intro record _
  apply AtomicAt.ite
  · intro _
    exact (Quiet.pure _).atomicAt r
  · intro _
    apply AtomicAt.bind_reads (Reads.raiseIf _ _)
    intro _ _
    exact ((Quiet.modify _).bind fun _ => Quiet.pure _).atomicAt r

theorem cmdRetryCleanup_atomic : AtomicAt cmdRetryCleanup r := by
  unfold cmdRetryCleanup
  apply AtomicAt.bind_reads Reads.get
  intro record _
  apply AtomicAt.ite
  · intro _
    exact (Quiet.pure _).atomicAt r
  · intro _
    apply AtomicAt.bind_reads (Reads.raiseIf _ _)
    intro _ _
    exact ((Quiet.modify _).bind fun _ => Quiet.pure _).atomicAt r

theorem cmdCompleteCleanup_atomic (verified : Value) (evidence : EvidenceArgument)
    (code message : Value) (now : String) :
    AtomicAt (cmdCompleteCleanup verified evidence code message now) r := by
  unfold cmdCompleteCleanup
  apply AtomicAt.bind_reads Reads.get
  intro record _
  apply AtomicAt.bind_reads (Reads.check _)
  intro verified _
  apply AtomicAt.bind_reads (Reads.check _)
  intro evidence _
  apply AtomicAt.bind_reads (Reads.check _)
  intro code _
  apply AtomicAt.bind_reads (Reads.check _)
  intro message _
  apply AtomicAt.ite
  · intro _
    apply AtomicAt.bind_reads (Reads.raiseIf _ _)
    intro _ _
    exact (Quiet.pure _).atomicAt r
  · intro _
    apply AtomicAt.bind_reads (Reads.raiseIf _ _)
    intro _ _
    apply AtomicAt.bind_reads (Reads.raiseIf _ _)
    intro _ _
    apply AtomicAt.bind_reads (Reads.raiseIf _ _)
    intro _ _
    exact ((Quiet.modify _).bind fun _ => Quiet.pure _).atomicAt r

end

/-! ## The two commands that are not -/

/-- The keys `bind_authority` writes before it compares the role. -/
def roomUpdates (roomId : String) (roomVersion : Int) (seat : AuthoritySeat) :
    List (Key × Scalar) :=
  [(.roomId, .text roomId), (.roomVersion, .int roomVersion),
    (.authoritySeat, .text (StrEnum.value seat))]

/-- The order is a `bind_authority` with valid arguments that comes before the room of the
run is bound and names another role than the one the run was started with. -/
def Order.TearsRoom (o : Order) (r : Record) : Prop :=
  match o with
  | .bindAuthority roomId roomVersion seat switchRole =>
    r.phase = .running ∧ r.identity.bound .roomId = none ∧
      ∃ seat' role room version current, enumOf AuthoritySeat seat "authority seat" = .ok seat' ∧
        enumOf SwitchRole switchRole "Switch role" = .ok role ∧
        bounded roomId "room_id" 128 = .ok room ∧
        positiveInt roomVersion "room_version" = .ok version ∧
        r.identity.bound .switchRole = some current ∧ current ≠ .text (StrEnum.value role)
  | _ => False

/-- The order is a `request_cancel` with an invalid code or message, of a run that is not
terminal and has no cancel requested. -/
def Order.TearsCancel (o : Order) (r : Record) : Prop :=
  match o with
  | .requestCancel code message =>
    r.phase ≠ .terminal ∧ r.cancelRequested = false ∧
      ∀ c m, codeOf code "code" = .ok c → bounded message "message" 500 ≠ .ok m
  | _ => False

/-- What the two leave in the record. -/
inductive Residue (o : Order) (r : Record) : Record → Prop where
  | room (room : String) (version : Int) (seat : AuthoritySeat) (hr : room ≠ "")
      (ht : o.TearsRoom r) : Residue o r (r.fill (roomUpdates room version seat))
  | cancel (ht : o.TearsCancel r) : Residue o r { r with cancelRequested := true }

section
variable {r r' : Record} {e : ConnectionCoordinatorError}

theorem cmdRequestCancel_error {code message : Value}
    (h : (cmdRequestCancel code message).run r = .error e r') :
    Residue (.requestCancel code message) r r' := by
  unfold cmdRequestCancel at h
  simp only [bind_eq_error, get_eq_ok] at h
  rcases h with h | ⟨record, t, ⟨rfl, rfl⟩, h⟩
  · cases h
  split at h
  · exact (pure_eq_error.mp h).elim
  rename_i hp
  split at h
  · exact (pure_eq_error.mp h).elim
  rename_i hc
  simp only [bind_eq_error, check_eq_ok, check_eq_error, modify_eq_ok, pure_eq_error] at h
  rcases h with h | ⟨-, t, rfl, ⟨hcode, rfl⟩ | ⟨c, t, ⟨hcode, rfl⟩, h⟩⟩
  · cases h
  · refine .cancel ⟨hp, eq_false_of_ne_true hc, ?_⟩
    intro c m hok
    rw [hcode] at hok
    cases hok
  · rcases h with ⟨hmessage, rfl⟩ | ⟨m, t, -, h | ⟨-, t, -, h⟩⟩
    · refine .cancel ⟨hp, eq_false_of_ne_true hc, ?_⟩
      intro c m _ hok
      rw [hmessage] at hok
      cases hok
    · cases h
    · exact h.elim

/-- Once the room is bound, or the role agrees, nothing is written before the last
comparison. -/
theorem bindOnce_authority_atomic {room : String} {version : Int} {seat : AuthoritySeat}
    {role : SwitchRole} (hs : r.Shaped)
    (hrole : r.identity.bound .roomId = none →
      ∀ current, r.identity.bound .switchRole = some current →
        current = .text (StrEnum.value role)) :
    AtomicAt (bindOnce (authorityUpdates room version seat role)) r := by
  have hversion := hs.version
  have hseat := hs.seat
  cases hroom : r.identity.bound .roomId with
  | some v =>
    rw [hroom] at hversion hseat
    have hswitch : (r.identity.bound .switchRole).isSome := hs.role (by rw [hroom]; rfl)
    have hldn : (r.identity.bound .ldnRole).isSome := by
      rcases hs.roles with ⟨hn, -⟩ | ⟨role', -, hl⟩
      · rw [hn] at hswitch
        cases hswitch
      · rw [hl]
        rfl
    apply bindOnce_bound (by rw [hroom]; rfl)
    apply bindOnce_bound (by rw [hversion]; rfl)
    apply bindOnce_bound (by rw [hseat]; rfl)
    apply bindOnce_bound hswitch
    apply bindOnce_bound hldn
    exact bindOnce_single
  | none =>
    have hdirection : r.identity.bound .tunnelDirection = none := by
      cases hd : r.identity.bound .tunnelDirection with
      | none => rfl
      | some w =>
        have hn := hs.direction (by rw [hd]; rfl)
        rw [hroom] at hn
        cases hn
    rw [hroom] at hversion hseat
    apply bindOnce_fits (by simp [authorityUpdates])
    intro k v hm
    simp only [authorityUpdates, List.mem_cons, Prod.mk.injEq, List.not_mem_nil, or_false] at hm
    rcases hm with ⟨rfl, rfl⟩ | ⟨rfl, rfl⟩ | ⟨rfl, rfl⟩ | ⟨rfl, rfl⟩ | ⟨rfl, rfl⟩ | ⟨rfl, rfl⟩
    · exact .inl hroom
    · exact .inl (by simpa using hversion)
    · exact .inl (by simpa using hseat)
    · rcases hs.roles with ⟨hn, -⟩ | ⟨role', hr, -⟩
      · exact .inl hn
      · exact .inr (by rw [hr, hrole hroom _ hr])
    · rcases hs.roles with ⟨-, hn⟩ | ⟨role', hr, hl⟩
      · exact .inl hn
      · have he := hrole hroom _ hr
        have heq : role' = role := by
          cases role' <;> cases role <;> first | rfl | (revert he; decide)
        exact .inr (by rw [hl, heq])
    · exact .inl hdirection

/-- Where the role of an unbound run is another one, the room is written and the role
comparison raises. -/
theorem bindOnce_authority_error {room : String} {version : Int} {seat : AuthoritySeat}
    {role : SwitchRole} {current : Scalar} (hs : r.Shaped)
    (hroom : r.identity.bound .roomId = none)
    (hswitch : r.identity.bound .switchRole = some current)
    (hne : current ≠ .text (StrEnum.value role)) :
    (bindOnce (authorityUpdates room version seat role)).run r =
      .error (identityMismatch .switchRole) (r.fill (roomUpdates room version seat)) := by
  have hversion := hs.version
  have hseat := hs.seat
  rw [hroom] at hversion hseat
  have hv : r.identity.bound .roomVersion = none := by simpa using hversion
  have hs : r.identity.bound .authoritySeat = none := by simpa using hseat
  have hfill : r.fill (roomUpdates room version seat) =
      ((r.bind .roomId (.text room)).bind .roomVersion (.int version)).bind .authoritySeat
        (.text (StrEnum.value seat)) := by
    unfold roomUpdates
    rw [fill_cons_unbound hroom, fill_cons_unbound (by simpa [Record.bind] using hv),
      fill_cons_unbound (by simpa [Record.bind] using hs), fill_nil]
  rw [hfill]
  simp [bindOnce, authorityUpdates, Record.bind, hroom, hv, hs, hswitch, raiseIf, hne]

theorem cmdBindAuthority_error {roomId roomVersion seat switchRole : Value} (hs : r.Shaped)
    (h : (cmdBindAuthority roomId roomVersion seat switchRole).run r = .error e r') :
    r' = r ∨ Residue (.bindAuthority roomId roomVersion seat switchRole) r r' := by
  unfold cmdBindAuthority at h
  simp only [bind_eq_error, check_eq_ok, check_eq_error, requireRunning_eq_ok] at h
  rcases h with h | ⟨-, t, ⟨hp, rfl⟩, h⟩
  · exact .inl (reads_requireRunning.error h)
  rcases h with ⟨-, rfl⟩ | ⟨seat', t, ⟨hseat, rfl⟩, h⟩
  · exact .inl rfl
  rcases h with ⟨-, rfl⟩ | ⟨role, t, ⟨hrole, rfl⟩, h⟩
  · exact .inl rfl
  rcases h with ⟨-, rfl⟩ | ⟨room, t, ⟨hroom, rfl⟩, h⟩
  · exact .inl rfl
  rcases h with ⟨-, rfl⟩ | ⟨version, t, ⟨hversion, rfl⟩, h⟩
  · exact .inl rfl
  rcases h with h | ⟨changed, t, -, h⟩
  · by_cases hagree : r.identity.bound .roomId = none →
        ∀ current, r.identity.bound .switchRole = some current →
          current = .text (StrEnum.value role)
    · exact .inl (bindOnce_authority_atomic hs hagree e r' h)
    · push Not at hagree
      obtain ⟨hn, current, hc, hne⟩ := hagree
      rw [bindOnce_authority_error hs hn hc hne] at h
      cases h
      exact .inr (.room room version seat' (bounded_ok hroom)
        ⟨hp, hn, seat', role, room, version, current, hseat, hrole, hroom, hversion, hc, hne⟩)
  · split at h
    · exact (pure_eq_error.mp h).elim
    · exact (pure_eq_error.mp h).elim

end

/-- The residue lemma: every handler that raises. -/
theorem handler_error {py : Stdlib} {now : String} {o : Order} {r r' : Record}
    {e : ConnectionCoordinatorError} (hs : r.Shaped)
    (h : (o.handler py now).run r = .error e r') : r' = r ∨ Residue o r r' := by
  cases o with
  | transition phase gate => exact .inl (cmdTransition_atomic phase gate e r' h)
  | passGate gate => exact .inl (cmdPassGate_atomic gate e r' h)
  | bindAuthority roomId roomVersion seat switchRole => exact cmdBindAuthority_error hs h
  | acquireWrapper pid ticks adapter usb bus =>
    exact .inl (cmdAcquireWrapper_atomic py pid ticks adapter usb bus hs e r' h)
  | markP0Ready pid ticks phy netdev =>
    exact .inl (cmdMarkP0Ready_atomic pid ticks phy netdev hs e r' h)
  | lockAttempt attemptId roleLockVersion =>
    exact .inl (cmdLockAttempt_atomic attemptId roleLockVersion hs e r' h)
  | reserveEndpointLaunch nonce => exact .inl (cmdReserveEndpointLaunch_atomic nonce e r' h)
  | acknowledgeEndpoint nonce pid ticks =>
    exact .inl (cmdAcknowledgeEndpoint_atomic nonce pid ticks hs e r' h)
  | requestCancel code message => exact .inr (cmdRequestCancel_error h)
  | closeRun outcome code message => exact .inl (cmdCloseRun_atomic outcome code message e r' h)
  | beginCleanup => exact .inl (cmdBeginCleanup_atomic e r' h)
  | retryCleanup => exact .inl (cmdRetryCleanup_atomic e r' h)
  | completeCleanup verified evidence code message =>
    exact .inl (cmdCompleteCleanup_atomic verified evidence code message now e r' h)

/-- A residue is never the record as it was. -/
theorem Residue.ne {o : Order} {r r' : Record} (h : Residue o r r') : r' ≠ r := by
  intro he
  cases h with
  | room room version seat hr ht =>
    have hn : r.identity.bound .roomId = none := by
      cases o <;> first | exact ht.2.1 | exact ht.elim
    have hb : (r.fill (roomUpdates room version seat)).identity.bound .roomId =
        some (.text room) := by
      simp [fill_bound, hn, roomUpdates]
    rw [he, hn] at hb
    cases hb
  | cancel ht =>
    have hn : r.cancelRequested = false := by
      cases o <;> first | exact ht.2.1 | exact ht.elim
    have hc : r.cancelRequested = true := by
      rw [← he]
    rw [hn] at hc
    cases hc

theorem requireRunning_running {r : Record} (hp : r.phase = .running) :
    requireRunning.run r = .ok ⟨⟩ r := requireRunning_eq_ok.mpr ⟨hp, rfl⟩

theorem cmdBindAuthority_tears {r : Record} {roomId roomVersion seat switchRole : Value}
    (hs : r.Shaped) (ht : (Order.bindAuthority roomId roomVersion seat switchRole).TearsRoom r) :
    ∃ e r', (cmdBindAuthority roomId roomVersion seat switchRole).run r = .error e r' ∧
      Residue (.bindAuthority roomId roomVersion seat switchRole) r r' := by
  obtain ⟨hp, hn, seat', role, room, version, current, hseat, hrole, hroom, hversion, hc, hne⟩ := ht
  refine ⟨identityMismatch .switchRole, r.fill (roomUpdates room version seat'), ?_,
    .room room version seat' (bounded_ok hroom)
      ⟨hp, hn, seat', role, room, version, current, hseat, hrole, hroom, hversion, hc, hne⟩⟩
  unfold cmdBindAuthority
  rw [EStateM.run_bind, requireRunning_running hp]
  simp only [hseat, hrole, hroom, hversion, check, pure_bind]
  rw [EStateM.run_bind, bindOnce_authority_error hs hn hc hne]

theorem cmdRequestCancel_tears {r : Record} {code message : Value}
    (ht : (Order.requestCancel code message).TearsCancel r) :
    ∃ e r', (cmdRequestCancel code message).run r = .error e r' ∧
      Residue (.requestCancel code message) r r' := by
  obtain ⟨hp, hc, hinvalid⟩ := ht
  have hrun : ∃ e, (cmdRequestCancel code message).run r =
      .error e { r with cancelRequested := true } := by
    unfold cmdRequestCancel
    rw [EStateM.run_bind, EStateM.run_get]
    simp only [hp, hc, if_false, Bool.false_eq_true, EStateM.run_bind, EStateM.run_modify]
    cases hcode : codeOf code "code" with
    | error e => exact ⟨e, rfl⟩
    | ok c =>
      cases hmessage : bounded message "message" 500 with
      | error e => exact ⟨e, rfl⟩
      | ok m => exact absurd hmessage (hinvalid c m hcode)
  obtain ⟨e, he⟩ := hrun
  exact ⟨e, _, he, .cancel ⟨hp, hc, hinvalid⟩⟩

/-- Where the two commands tear, they raise and leave their residue. -/
theorem handler_tears {py : Stdlib} {now : String} {o : Order} {r : Record} (hs : r.Shaped)
    (ht : o.TearsRoom r ∨ o.TearsCancel r) :
    ∃ e r', (o.handler py now).run r = .error e r' ∧ Residue o r r' := by
  rcases ht with ht | ht
  · cases o with
    | bindAuthority roomId roomVersion seat switchRole => exact cmdBindAuthority_tears hs ht
    | _ => exact ht.elim
  · cases o with
    | requestCancel code message => exact cmdRequestCancel_tears ht
    | _ => exact ht.elim

end SwitchTrade.Coordinator

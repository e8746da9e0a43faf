import SwitchTrade.Coordinator.Change

/-!
# Rejected commands

From a reachable state a command that raises has changed nothing, exactly unless it is a
`bind_authority` that comes too late for its role or a `request_cancel` with an invalid
code or message.
-/

namespace SwitchTrade.Coordinator

open InPlace Transition

variable {py : Stdlib}

/-! ## The shape of every record -/

@[simp] theorem closingIntent_identity (r : Record) : r.closingIntent.identity = r.identity := by
  unfold Record.closingIntent
  split <;> rfl

@[simp] theorem closingIntent_ownership (r : Record) : r.closingIntent.ownership = r.ownership := by
  unfold Record.closingIntent
  split <;> rfl

@[simp] theorem setFunctional_identity (r : Record) (outcome : FunctionalOutcome)
    (code message : Option String) :
    (r.setFunctional outcome code message).identity = r.identity := by
  unfold Record.setFunctional
  split <;> rfl

@[simp] theorem setFunctional_ownership (r : Record) (outcome : FunctionalOutcome)
    (code message : Option String) :
    (r.setFunctional outcome code message).ownership = r.ownership := by
  unfold Record.setFunctional
  split <;> rfl

/-- A key no update names keeps what it was. -/
theorem fill_other {r : Record} {updates : List (Key × Scalar)} {k : Key}
    (h : updates.lookup k = none) : (r.fill updates).identity.bound k = r.identity.bound k := by
  rw [fill_bound, h, Option.or_none]

def authorityKeys : List Key :=
  [.roomId, .roomVersion, .authoritySeat, .switchRole, .ldnRole, .tunnelDirection]

theorem AuthorityShape.congr {b b' : Key → Option Scalar} (h : AuthorityShape b)
    (hk : ∀ k ∈ authorityKeys, b' k = b k) : AuthorityShape b' := by
  have h₁ := hk .roomId (by decide)
  have h₂ := hk .roomVersion (by decide)
  have h₃ := hk .authoritySeat (by decide)
  have h₄ := hk .switchRole (by decide)
  have h₅ := hk .ldnRole (by decide)
  have h₆ := hk .tunnelDirection (by decide)
  constructor
  · rw [h₁, h₂]
    exact h.version
  · rw [h₁, h₃]
    exact h.seat
  · rw [h₁, h₄]
    exact h.role
  · rw [h₄, h₅]
    exact h.roles
  · rw [h₁, h₆]
    exact h.direction

/-- A group whose flag is still unset has to keep its keys. -/
theorem OwnershipShape.congr {b b' : Key → Option Scalar} {o o' : Ownership}
    (h : OwnershipShape b o)
    (hw : o'.wrapperAcquired = false → o.wrapperAcquired = false ∧
      ∀ k ∈ [Key.wrapperPid, .processStartTicks, .busId], b' k = b k)
    (h0 : o'.p0SideReady = false → o.p0SideReady = false ∧
      ∀ k ∈ [Key.phy, .netdev], b' k = b k)
    (he : o'.endpointStarted = false → o.endpointStarted = false ∧
      ∀ k ∈ [Key.endpointPid, .endpointStartTicks], b' k = b k) :
    OwnershipShape b' o' := by
  constructor
  · intro hn
    obtain ⟨ho, hk⟩ := hw hn
    rw [hk _ (by decide), hk _ (by decide), hk _ (by decide)]
    exact h.wrapper ho
  · intro hn
    obtain ⟨ho, hk⟩ := h0 hn
    rw [hk _ (by decide), hk _ (by decide)]
    exact h.p0 ho
  · intro hn
    obtain ⟨ho, hk⟩ := he hn
    rw [hk _ (by decide), hk _ (by decide)]
    exact h.endpoint ho

/-- The keys of a list that no update names. -/
theorem fill_others {r : Record} {updates : List (Key × Scalar)} {keys : List Key}
    (h : ∀ k ∈ keys, k ∉ updates.map Prod.fst) :
    ∀ k ∈ keys, (r.fill updates).identity.bound k = r.identity.bound k := by
  intro k hk
  apply fill_other
  rw [List.lookup_eq_none_iff]
  intro p hp
  rw [bne_iff_ne]
  rintro rfl
  exact h _ hk (List.mem_map_of_mem hp)

theorem shaped_fill_authority {r : Record} {room : String} {version : Int} {seat : AuthoritySeat}
    {role : SwitchRole} (hs : r.Shaped)
    (hb : Bound (r.fill (authorityUpdates room version seat role))
      (authorityUpdates room version seat role)) :
    (r.fill (authorityUpdates room version seat role)).Shaped := by
  have hroom := hb .roomId (.text room) (by simp [authorityUpdates])
  have hversion := hb .roomVersion (.int version) (by simp [authorityUpdates])
  have hseat := hb .authoritySeat (.text (StrEnum.value seat)) (by simp [authorityUpdates])
  have hrole := hb .switchRole (.text (StrEnum.value role)) (by simp [authorityUpdates])
  have hldn := hb .ldnRole (.text (StrEnum.value role.ldnRole)) (by simp [authorityUpdates])
  have hauthority : AuthorityShape
      (r.fill (authorityUpdates room version seat role)).identity.bound := by
    constructor
    · rw [hroom, hversion]
      rfl
    · rw [hroom, hseat]
      rfl
    · intro _
      rw [hrole]
      rfl
    · exact .inr ⟨role, hrole, hldn⟩
    · intro _
      rw [hroom]
      rfl
  refine ⟨hauthority, hs.toOwnershipShape.congr ?_ ?_ ?_, ?_⟩
  · exact fun hn => ⟨hn, fill_others (by simp [authorityUpdates])⟩
  · exact fun hn => ⟨hn, fill_others (by simp [authorityUpdates])⟩
  · exact fun hn => ⟨hn, fill_others (by simp [authorityUpdates])⟩
  · rw [fill_other (by rfl), fill_other (by rfl)]
    exact hs.attempt

/-- A residue of `bind_authority` keeps the shape: the roles were bound at the start. -/
theorem shaped_fill_room {r : Record} {room : String} {version : Int} {seat : AuthoritySeat}
    (hs : r.Shaped) (hn : r.identity.bound .roomId = none)
    (hrole : (r.identity.bound .switchRole).isSome) :
    (r.fill (roomUpdates room version seat)).Shaped := by
  have hversion : r.identity.bound .roomVersion = none := by simpa [hn] using hs.version
  have hseat : r.identity.bound .authoritySeat = none := by simpa [hn] using hs.seat
  have hroom : (r.fill (roomUpdates room version seat)).identity.bound .roomId =
      some (.text room) := by
    rw [fill_bound, hn]
    rfl
  have hauthority : AuthorityShape (r.fill (roomUpdates room version seat)).identity.bound := by
    constructor
    · rw [hroom, fill_bound, hversion]
      rfl
    · rw [hroom, fill_bound, hseat]
      rfl
    · intro _
      rw [fill_other (by rfl)]
      exact hrole
    · rw [fill_other (by rfl), fill_other (by rfl)]
      exact hs.roles
    · intro _
      rw [hroom]
      rfl
  refine ⟨hauthority, hs.toOwnershipShape.congr ?_ ?_ ?_, ?_⟩
  · exact fun hn => ⟨hn, fill_others (by simp [roomUpdates])⟩
  · exact fun hn => ⟨hn, fill_others (by simp [roomUpdates])⟩
  · exact fun hn => ⟨hn, fill_others (by simp [roomUpdates])⟩
  · rw [fill_other (by rfl), fill_other (by rfl)]
    exact hs.attempt

theorem Record.Shaped.stamp {r : Record} {event utc : String} (h : r.Shaped) :
    (r.stamp event utc).Shaped := ⟨h.toAuthorityShape, h.toOwnershipShape, h.attempt⟩

theorem edit_shaped {r r' : Record} (hs : r.Shaped) (he : Edit r r') : r'.Shaped := by
  have same : ∀ {r₁ : Record}, r₁.identity = r.identity → r₁.ownership = r.ownership →
      r₁.Shaped := by
    intro r₁ hi ho
    exact ⟨by rw [hi]; exact hs.toAuthorityShape, by rw [hi, ho]; exact hs.toOwnershipShape,
      by rw [hi]; exact hs.attempt⟩
  cases he with
  | phase target gate ht ha => exact same rfl rfl
  | gate passed hp => exact same rfl rfl
  | authority room version seat role hr hp hb => exact shaped_fill_authority hs hb
  | wrapper pid ticks adapter usb bus hp hroom hn hb =>
    refine ⟨hs.toAuthorityShape.congr (fill_others (by simp [authorityKeys, wrapperUpdates])),
      hs.toOwnershipShape.congr (fun hf => by cases hf) ?_ ?_, ?_⟩
    · exact fun hn => ⟨hn, fill_others (by simp [wrapperUpdates])⟩
    · exact fun hn => ⟨hn, fill_others (by simp [wrapperUpdates])⟩
    · show ((r.fill _).identity.bound _).isSome = ((r.fill _).identity.bound _).isSome
      rw [fill_other (by rfl), fill_other (by rfl)]
      exact hs.attempt
  | p0 updates phy netdev heq hp hw hn hb =>
    subst heq
    refine ⟨hs.toAuthorityShape.congr (fill_others (by simp [authorityKeys])),
      hs.toOwnershipShape.congr ?_ (fun hf => by cases hf) ?_, ?_⟩
    · exact fun hn => ⟨hn, fill_others (by simp)⟩
    · exact fun hn => ⟨hn, fill_others (by simp)⟩
    · show ((r.fill _).identity.bound _).isSome = ((r.fill _).identity.bound _).isSome
      rw [fill_other (by rfl), fill_other (by rfl)]
      exact hs.attempt
  | attempt updates attempt version heq hp hroom h0 hb =>
    subst heq
    refine ⟨hs.toAuthorityShape.congr (fill_others (by simp [authorityKeys])),
      hs.toOwnershipShape.congr ?_ ?_ ?_, ?_⟩
    · exact fun hn => ⟨hn, fill_others (by simp)⟩
    · exact fun hn => ⟨hn, fill_others (by simp)⟩
    · exact fun hn => ⟨hn, fill_others (by simp)⟩
    · rw [hb .attemptId (.text attempt) (by simp), hb .roleLockVersion (.int version) (by simp)]
      rfl
  | launch nonce hp h0 ha hn hb =>
    refine ⟨hs.toAuthorityShape.congr (fill_others (by simp [authorityKeys])),
      hs.toOwnershipShape.congr ?_ ?_ ?_, ?_⟩
    · exact fun hn => ⟨hn, fill_others (by simp)⟩
    · exact fun hn => ⟨hn, fill_others (by simp)⟩
    · exact fun hn => ⟨hn, fill_others (by simp)⟩
    · show ((r.fill _).identity.bound _).isSome = ((r.fill _).identity.bound _).isSome
      rw [fill_other (by rfl), fill_other (by rfl)]
      exact hs.attempt
  | endpoint updates pid ticks heq hp hl hn hb =>
    subst heq
    refine ⟨hs.toAuthorityShape.congr (fill_others (by simp [authorityKeys])),
      hs.toOwnershipShape.congr ?_ ?_ (fun hf => by cases hf), ?_⟩
    · exact fun hn => ⟨hn, fill_others (by simp)⟩
    · exact fun hn => ⟨hn, fill_others (by simp)⟩
    · show ((r.fill _).identity.bound _).isSome = ((r.fill _).identity.bound _).isSome
      rw [fill_other (by rfl), fill_other (by rfl)]
      exact hs.attempt
  | cancel code message hp => exact same (by simp) (by simp)
  | close outcome code message ho hp => exact same (by simp) (by simp)
  | cleanup hp => exact same rfl rfl
  | retry hp hv => exact same rfl rfl
  | complete verified evidence code message utc hp hf => exact same rfl rfl

theorem residue_shaped {o : Order} {r r' : Record} (hs : r.Shaped) (hr : Residue o r r') :
    r'.Shaped := by
  cases hr with
  | room room version seat hne ht =>
    have hn : r.identity.bound .roomId = none ∧ (r.identity.bound .switchRole).isSome := by
      cases o with
      | bindAuthority roomId roomVersion seat switchRole =>
        obtain ⟨-, hn, -, -, -, -, current, -, -, -, -, hc, -⟩ := ht
        exact ⟨hn, by rw [hc]; rfl⟩
      | _ => exact ht.elim
    exact shaped_fill_room hs hn.1 hn.2
  | cancel ht => exact ⟨hs.toAuthorityShape, hs.toOwnershipShape, hs.attempt⟩

/-- Every record of a reachable host is shaped. -/
theorem reachable_shaped {G : Host → Label → Prop} {h : Host} (hr : (system py).Reachable G h) :
    ∀ r, h.Holds r → r.Shaped := by
  apply hr.invariant (P := fun h => ∀ r, h.Holds r → r.Shaped)
  · rintro s rfl r (⟨p, hp, -⟩ | ⟨runId, hd⟩)
    · cases hp
    · cases hd
  · intro s i t hs _ hn
    apply (step_change hs hn).holds (P := Record.Shaped)
    · intro release mode adapter usb runId now event utc
      exact (shaped_start release mode adapter usb runId now).stamp
    · exact fun r r' event utc h he => (edit_shaped h he).stamp
    · exact fun o r r' => residue_shaped
    · exact fun r event utc h => ⟨h.toAuthorityShape, h.toOwnershipShape, h.attempt⟩
    · exact hs

/-! ## Rejected commands -/

/-- The command reaches one of the two handlers that write before their last check, at a
record and with arguments where that check fails. -/
def Command.Tears (py : Stdlib) (c : Command) (current : Option Record) : Prop :=
  match c with
  | .start .. => False
  | .onRun runId o =>
    ∃ r, current = some r ∧ py.uuid runId.str = some r.runId ∧ (o.TearsRoom r ∨ o.TearsCancel r)

/-- If the command raises, the record in memory and the files are what they were, and so
is what every later command does. -/
def Atomic (py : Stdlib) (h : Host) (p : Process) (c : Command) (clock : Clock) : Prop :=
  ∀ e t, h.call py p c clock = (.error e, t) →
    t = h ∧ ∀ q c' clock', t.process = some q → t.call py q c' clock' = h.call py q c' clock'

theorem call_atomic {d : Disk} {p : Process} {c : Command} {clock : Clock}
    (hs : ∀ r, p.current = some r → r.Shaped) (ht : ¬ c.Tears py p.current)
    {e : ConnectionCoordinatorError} {t : Host}
    (hc : Host.call py ⟨d, some p⟩ p c clock = (.error e, t)) : t = ⟨d, some p⟩ := by
  unfold Host.call at hc
  cases hh : handle py p.release d p.current c clock with
  | copied current =>
    simp only [hh] at hc
    cases hc
  | persists r =>
    simp only [hh] at hc
    cases hc
  | raised e' current =>
    simp only [hh] at hc
    cases hc
    have hcur : current = p.current := by
      cases c with
      | start mode adapter usb runId fresh =>
        simp only [handle] at hh
        split at hh
        · cases hh
          rfl
        · cases hh
      | onRun runId o =>
        simp only [handle] at hh
        split at hh
        · cases hh
          rfl
        rename_i r hr
        obtain ⟨hcurrent, hid⟩ := requireRun_ok hr
        split at hh
        · rename_i e'' r' hrun
          cases hh
          rcases handler_error (hs r hcurrent) hrun with rfl | hres
          · exact hcurrent.symm
          · exfalso
            apply ht
            refine ⟨r, hcurrent, hid, ?_⟩
            cases hres with
            | room room version seat hne htear => exact .inl htear
            | cancel htear => exact .inr htear
        · cases hh
        · cases hh
    rw [hcur]

theorem tears_not_atomic {h : Host} {p : Process} {c : Command} {clock : Clock}
    (hs : ∀ r, p.current = some r → r.Shaped) (hp : h.process = some p)
    (ht : c.Tears py p.current) : ¬ Atomic py h p c clock := by
  intro hatomic
  obtain ⟨d, process⟩ := h
  subst hp
  cases c with
  | start mode adapter usb runId fresh => exact ht
  | onRun runId o =>
    obtain ⟨r, hcur, hid, htear⟩ := ht
    obtain ⟨e, r', hrun, hres⟩ : ∃ e r', (o.handler py clock.now).run r = .error e r' ∧
        Residue o r r' := handler_tears (hs r hcur) htear
    have hcall : Host.call py ⟨d, some p⟩ p (.onRun runId o) clock =
        (.error e, ⟨d, some { p with current := some r' }⟩) := by
      simp [Host.call, handle, hcur, requireRun_some hid, hrun]
    obtain ⟨heq, -⟩ := hatomic e _ hcall
    have hcurrent : some r' = p.current := by
      injection heq with _ heq
      injection heq with heq
      rw [← heq]
    rw [hcur] at hcurrent
    injection hcurrent with hcurrent
    exact hres.ne hcurrent

theorem reachable_current {G : Host → Label → Prop} {h : Host} {p : Process}
    (hr : (system py).Reachable G h) (hp : h.process = some p) :
    ∀ r, p.current = some r → r.Shaped := by
  intro r hcur
  exact reachable_shaped hr r (.inl ⟨p, hp, hcur⟩)

/-- A rejected command has changed nothing, exactly where it does not tear. -/
theorem rejected_command_atomic (py : Stdlib) {h : Host} {p : Process}
    (hr : (system py).Reachable System.Free h) (hp : h.process = some p) (c : Command)
    (clock : Clock) : Atomic py h p c clock ↔ ¬ c.Tears py p.current := by
  constructor
  · intro hatomic ht
    exact tears_not_atomic (reachable_current hr hp) hp ht hatomic
  · intro ht e t hc
    obtain ⟨d, process⟩ := h
    subst hp
    have hsame := call_atomic (reachable_current hr rfl) ht hc
    refine ⟨hsame, ?_⟩
    rw [hsame]
    exact fun q c' clock' _ => rfl

/-! ## A direct run -/

def sampleId : RunId := "6f1c1c3e-6a5b-4c55-9a3e-1d2f3a4b5c6d"

def nextId : RunId := "0d9f7f5a-8f0e-4b57-8a44-5b1c2d3e4f60"

/-- The standard library on the texts of the runs below. -/
def sampleStdlib : Stdlib where
  uuid t := if t = sampleId ∨ t = nextId then some t else none
  lower t := t

def sampleClock : Clock := ⟨"2026-01-01T00:00:00Z", "2026-01-01T00:00:01Z"⟩

/-- The steps of a command that persists. -/
def persisted (c : Command) : List Label :=
  [.command c sampleClock, .writeRecord, .writePointer]

def sampleOrder (o : Order) : Command := .onRun (.text sampleId) o

/-- A `direct_a` run up to its running phase. -/
def directRun : List Label :=
  .boot (.text "1.0") "2026-01-01T00:00:00Z" ::
    persisted (.start (.text "direct_a") (.text "adapter") (.text "057e:2017")
      (.text sampleId) sampleId) ++
    persisted (sampleOrder (.transition (.text "preflight") .none)) ++
    persisted (sampleOrder (.transition (.text "running") .none))

/-- `bind_authority` of the other role. -/
def otherRole : Command :=
  sampleOrder (.bindAuthority (.text "room") (.int 1) (.text "member_a") (.text "b_ap_host"))

/-- The record the direct run holds: running, in its own role, with no room. -/
theorem directRun_plays : ∃ h p r, System.play (Host.step sampleStdlib) System.Free Host.empty
    directRun = some h ∧ h.process = some p ∧ p.current = some r ∧ r.runId = sampleId ∧
    r.phase = .running ∧ r.identity.bound .roomId = none ∧
    r.identity.bound .switchRole = some (.text "a_room_joiner") := by
  exact ⟨_, _, _, rfl, rfl, rfl, rfl, rfl, rfl, rfl⟩

theorem directRun_reachable : ∃ h p r, (system sampleStdlib).Reachable System.Free h ∧
    h.process = some p ∧ p.current = some r ∧ r.runId = sampleId ∧ r.phase = .running ∧
    r.identity.bound .roomId = none ∧
    r.identity.bound .switchRole = some (.text "a_room_joiner") := by
  obtain ⟨h, p, r, hplay, hrest⟩ := directRun_plays
  exact ⟨h, p, r, (System.Reachable.init rfl).run (System.run_of_play hplay), hrest⟩

/-- A `bind_authority` of the other role is rejected and has bound the room. -/
theorem rejected_command_binds_room : ¬ ∀ (py : Stdlib) (h : Host) (p : Process),
    (system py).Reachable System.Free h → h.process = some p →
      ∀ c clock, Atomic py h p c clock := by
  intro hall
  obtain ⟨h, p, r, hr, hp, hcur, hid, hphase, hroom, hrole⟩ := directRun_reachable
  have htears : otherRole.Tears sampleStdlib p.current := by
    refine ⟨r, hcur, by rw [hid]; rfl, .inl ⟨hphase, hroom, .memberA, .bApHost, "room", 1,
      .text "a_room_joiner", rfl, rfl, rfl, rfl, hrole, by decide⟩⟩
  exact tears_not_atomic (reachable_current hr hp) hp htears
    (hall sampleStdlib h p hr hp otherRole sampleClock)

theorem rejected_command_atomic_direct : ∃ h p r, h.process = some p ∧ p.current = some r ∧
    r.phase = .running ∧ ∀ c, Atomic sampleStdlib h p c sampleClock ↔
      ¬ c.Tears sampleStdlib p.current := by
  obtain ⟨h, p, r, hr, hp, hcur, -, hphase, -, -⟩ := directRun_reachable
  exact ⟨h, p, r, hp, hcur, hphase, fun c =>
    rejected_command_atomic sampleStdlib hr hp c sampleClock⟩

end SwitchTrade.Coordinator

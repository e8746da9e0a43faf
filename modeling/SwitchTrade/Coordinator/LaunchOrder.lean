import SwitchTrade.Coordinator.Lineage

/-!
# Launch order and write-once identity

Over every sequence of commands, stops and starts, the ownership flags of a record are set
in order and a launch is reserved only by a running run with a ready P0 side. At most one
launch is reserved for a run, and what a run has bound, its outcome and its settled record
never change, in every run that leaves nothing of it in memory alone, where a restart loses
it: no `bind_authority` tears, and no write of a record raises that its file needs.
-/

namespace SwitchTrade.Coordinator

open Transition

variable {py : Stdlib}

/-! ## The order of the ownership flags -/

/-- A flag is set only after the ones before it, and in the distributed modes a launch is
reserved only with a locked attempt. -/
structure Record.Ordered (r : Record) : Prop where
  endpoint : r.ownership.endpointStarted = true → r.ownership.launchReserved = true
  launch : r.ownership.launchReserved = true → r.ownership.p0SideReady = true
  p0 : r.ownership.p0SideReady = true → r.ownership.wrapperAcquired = true
  attempt : r.ownership.launchReserved = true →
    r.identity.mode.direct = true ∨ r.has .attemptId = true

theorem has_fill {r : Record} {updates : List (Key × Scalar)} {k : Key} (h : r.has k = true) :
    (r.fill updates).has k = true := by
  unfold Record.has at h ⊢
  cases hb : r.identity.bound k with
  | none =>
    rw [hb] at h
    cases h
  | some v =>
    rw [hb] at h
    rw [fill_keeps hb]
    exact h

theorem Record.Ordered.fill {r : Record} {updates : List (Key × Scalar)} (h : r.Ordered) :
    (r.fill updates).Ordered := by
  refine ⟨h.endpoint, h.launch, h.p0, ?_⟩
  intro hl
  rcases h.attempt hl with hd | ha
  · exact .inl hd
  · exact .inr (has_fill ha)

theorem Record.Ordered.same {r r' : Record} (h : r.Ordered) (hi : r'.identity = r.identity)
    (ho : r'.ownership = r.ownership) : r'.Ordered := by
  obtain ⟨h₁, h₂, h₃, h₄⟩ := h
  unfold Record.has at h₄
  refine ⟨?_, ?_, ?_, ?_⟩
  · rw [ho]
    exact h₁
  · rw [ho]
    exact h₂
  · rw [ho]
    exact h₃
  · unfold Record.has
    rw [ho, hi]
    exact h₄

theorem edit_ordered {r r' : Record} (h : r.Ordered) (he : Edit r r') : r'.Ordered := by
  have hf : ∀ updates, (r.fill updates).Ordered := fun _ => h.fill
  cases he with
  | phase target gate ht ha => exact h.same rfl rfl
  | gate passed hp => exact h.same rfl rfl
  | authority room version seat role hr hp hb => exact h.fill
  | wrapper pid ticks adapter usb bus hp hroom hn hb =>
    exact ⟨h.endpoint, h.launch, fun _ => rfl, (hf _).attempt⟩
  | p0 updates phy netdev heq hp hw hn hb =>
    exact ⟨h.endpoint, fun _ => rfl, fun _ => hw, (hf updates).attempt⟩
  | attempt updates attempt version heq hp hroom h0 hb => exact h.fill
  | launch nonce hp h0 ha hn hb =>
    refine ⟨fun _ => rfl, fun _ => h0, h.p0, fun _ => ?_⟩
    rcases ha with hd | ha
    · exact .inl hd
    · exact .inr (has_fill ha)
  | endpoint updates pid ticks heq hp hl hn hb =>
    exact ⟨fun _ => hl, h.launch, h.p0, (hf updates).attempt⟩
  | cancel code message hp => exact h.same (by simp) (by simp)
  | close outcome code message ho hp => exact h.same (by simp) (by simp)
  | cleanup hp => exact h.same rfl rfl
  | retry hp hv => exact h.same rfl rfl
  | complete verified evidence code message utc hp hf => exact h.same rfl rfl

theorem start_ordered (release : String) (mode : RunMode) (adapter usb : Option String)
    (runId : RunId) (now : String) :
    (startRecord release mode adapter usb runId now).Ordered :=
  ⟨fun h => (by cases h), fun h => (by cases h), fun h => (by cases h), fun h => (by cases h)⟩

theorem reachable_ordered {G : Host → Label → Prop} {h : Host}
    (hr : (system py).Reachable G h) : ∀ r, h.Holds r → r.Ordered := by
  apply reachable_of_change (P := fun h => ∀ r, h.Holds r → r.Ordered) ?_ ?_ hr
  · rintro r (⟨p, hp, -⟩ | ⟨runId, hd⟩)
    · cases hp
    · cases hd
  · intro s i t _ hs _ hc
    apply hc.holds (P := Record.Ordered)
    · intro release mode adapter usb runId now event utc
      exact (start_ordered release mode adapter usb runId now).same rfl rfl
    · exact fun r r' event utc h he => (edit_ordered h he).same rfl rfl
    · intro o r r' h hres
      cases hres with
      | room room version seat hne ht => exact h.fill
      | cancel ht => exact h.same rfl rfl
    · exact fun r event utc h => h.same rfl rfl
    · exact hs

/-! ## One launch for a run -/

/-- The record in memory. -/
def Host.current (h : Host) : Option Record := h.process.bind Process.current

/-- The step reserves a launch for the run in memory. -/
def Reserves (h t : Host) (runId : RunId) : Prop :=
  ∃ r r', h.current = some r ∧ t.current = some r' ∧ r.runId = runId ∧ r'.runId = runId ∧
    r.ownership.launchReserved = false ∧ r'.ownership.launchReserved = true

/-- Only an edit reserves a launch, of a running run with its P0 side ready. -/
theorem Edit.reserves {r r' : Record} (he : Edit r r') (hn : r.ownership.launchReserved = false)
    (hl : r'.ownership.launchReserved = true) :
    r.phase = .running ∧ r.ownership.p0SideReady = true ∧
      (r.identity.mode.direct = true ∨ r.has .attemptId = true) := by
  have same : r'.ownership = r.ownership → False := by
    intro ho
    rw [ho, hn] at hl
    cases hl
  cases he with
  | launch nonce hp h0 ha _ hb => exact ⟨hp, h0, ha⟩
  | cancel code message hp => exact (same (by simp)).elim
  | close outcome code message ho hp => exact (same (by simp)).elim
  | wrapper pid ticks adapter usb bus hp hroom _ hb =>
    rw [show r.ownership.launchReserved = true from hl] at hn
    cases hn
  | p0 updates phy netdev heq hp hw _ hb =>
    rw [show r.ownership.launchReserved = true from hl] at hn
    cases hn
  | endpoint updates pid ticks heq hp hlr _ hb =>
    rw [show r.ownership.launchReserved = true from hl] at hn
    cases hn
  | _ => exact (same rfl).elim

theorem Change.reserves {h t : Host} {i : Label} {runId : RunId} (hc : Change py h i t)
    (hres : Reserves h t runId) :
    ∃ release r, h.process = some ⟨release, some r, .idle⟩ ∧ r.runId = runId ∧
      r.phase = .running ∧ r.ownership.p0SideReady = true ∧
      (r.identity.mode.direct = true ∨ r.has .attemptId = true) := by
  obtain ⟨r, r', hr, hr', hid, hid', hn, hl⟩ := hres
  cases hc with
  | edit d release r₁ r₂ c clock event he =>
    cases hr
    cases hr'
    exact ⟨release, r, rfl, hid, he.reserves hn hl⟩
  | quiet d release current c clock =>
    rw [hr] at hr'
    cases hr'
    rw [hn] at hl
    cases hl
  | residue d release r₁ r₂ runId' o clock hid' hres =>
    cases hr
    cases hr'
    cases hres with
    | room room version seat hne ht =>
      rw [show r.ownership.launchReserved = true from hl] at hn
      cases hn
    | cancel ht =>
      rw [show r.ownership.launchReserved = true from hl] at hn
      cases hn
  | start d release current c clock mode adapter usb runId' hg hnone =>
    cases hr'
    cases hl
  | record d release r₁ recovering =>
    cases hr
    cases hr'
    rw [hn] at hl
    cases hl
  | pointer d release r₁ recovering =>
    cases hr
    cases hr'
    rw [hn] at hl
    cases hl
  | recordRaises d release current =>
    rw [show current = some r from hr] at hr'
    cases hr'
    rw [hn] at hl
    cases hl
  | pointerRaises d release current =>
    rw [show current = some r from hr] at hr'
    cases hr'
    rw [hn] at hl
    cases hl
  | ends d process i hi => cases hr'
  | bootIdle d release release' utc hnone => cases hr
  | bootSettled d release release' utc runId' r₁ ha hrec hid'' hs => cases hr
  | bootRecover d release release' utc runId' r₁ ha hrec hid'' hs => cases hr

/-- A run whose launch was reserved: its identifier is taken, and in memory it either has
the launch or has closed. -/
structure Spent (runId : RunId) (h : Host) : Prop where
  recorded : ∃ d, h.disk.records runId = some d
  memory : ∀ r, h.current = some r → r.runId = runId →
    r.ownership.launchReserved = true ∨ r.phase = .cleaning ∨ r.phase = .terminal

@[simp] theorem setFunctional_phase (r : Record) (outcome : FunctionalOutcome)
    (code message : Option String) : (r.setFunctional outcome code message).phase = r.phase := by
  unfold Record.setFunctional
  split <;> rfl

theorem closingIntent_cleaning {r : Record} (hp : r.phase = .cleaning) :
    r.closingIntent.phase = .cleaning := by
  unfold Record.closingIntent
  rw [if_pos (.inr hp)]
  exact hp

/-- A run that has closed stays closed. -/
theorem edit_closed {r r' : Record} (he : Edit r r')
    (hp : r.phase = .cleaning ∨ r.phase = .terminal) :
    r'.phase = .cleaning ∨ r'.phase = .terminal := by
  cases he with
  | phase target gate ht ha =>
    rcases ha with rfl | ha
    · exact hp
    · rcases hp with hp | hp
      · rw [hp] at ha
        cases ha
      · rw [hp] at ha
        cases ha
  | gate passed hg =>
    rcases hp with hp | hp
    · rw [hp] at hg
      exact absurd hg (by decide)
    · rw [hp] at hg
      exact absurd hg (by decide)
  | authority room version seat role hr hrun hb => exact hp
  | wrapper pid ticks adapter usb bus hrun hroom hn hb => exact hp
  | p0 updates phy netdev heq hrun hw hn hb => exact hp
  | attempt updates attempt version heq hrun hroom h0 hb => exact hp
  | launch nonce hrun h0 ha hn hb => exact hp
  | endpoint updates pid ticks heq hrun hl hn hb => exact hp
  | cancel code message hn =>
    left
    apply closingIntent_cleaning
    rw [setFunctional_phase]
    exact hp.resolve_right hn
  | close outcome code message ho hn =>
    left
    apply closingIntent_cleaning
    rw [setFunctional_phase]
    exact hp.resolve_right hn
  | cleanup hc => exact .inl rfl
  | retry ht hn => exact .inl rfl
  | complete verified evidence code message utc hc hf => exact .inr rfl

theorem Change.spent {h t : Host} {i : Label} {runId : RunId} (hc : Change py h i t)
    (hs : Spent runId h) : Spent runId t := by
  obtain ⟨⟨e, he⟩, hmem⟩ := hs
  cases hc with
  | quiet d release current c clock => exact ⟨⟨e, he⟩, hmem⟩
  | residue d release r r' runId' o clock hid hr =>
    refine ⟨⟨e, he⟩, ?_⟩
    intro r₁ hcur hid'
    cases hcur
    have hold := hmem r rfl (by rw [← hr.runId]; exact hid')
    cases hr with
    | room room version seat hne ht => exact hold
    | cancel ht => exact hold
  | start d release current c clock mode adapter usb runId' hg hn =>
    refine ⟨⟨e, he⟩, ?_⟩
    intro r₁ hcur hid'
    cases hcur
    rw [show runId' = runId from hid'] at hn
    rw [hn] at he
    cases he
  | edit d release r r' c clock event hedit =>
    refine ⟨⟨e, he⟩, ?_⟩
    intro r₁ hcur hid'
    cases hcur
    have hsame : r.runId = runId := by
      rw [← hedit.runId]
      exact hid'
    rcases hmem r rfl hsame with hl | hp
    · exact .inl ((@edit_later _ _ event clock.persisted hedit).launch hl)
    · have hclosed := edit_closed hedit hp
      exact .inr hclosed
  | record d release r recovering => exact ⟨records_writeRecord he, hmem⟩
  | pointer d release r recovering => exact ⟨⟨e, he⟩, hmem⟩
  | recordRaises d release current => exact ⟨⟨e, he⟩, hmem⟩
  | pointerRaises d release current => exact ⟨⟨e, he⟩, hmem⟩
  | ends d process i hi => exact ⟨⟨e, he⟩, fun _ hcur => (by cases hcur)⟩
  | bootIdle d release release' utc hn => exact ⟨⟨e, he⟩, fun _ hcur => (by cases hcur)⟩
  | bootSettled d release release' utc runId' r ha hr hid hset =>
    refine ⟨⟨e, he⟩, ?_⟩
    intro r₁ hcur _
    cases hcur
    exact .inr (.inr (settled_iff.mp hset).1)
  | bootRecover d release release' utc runId' r ha hr hid hset =>
    refine ⟨⟨e, he⟩, ?_⟩
    intro r₁ hcur _
    cases hcur
    exact .inr (.inl rfl)

/-- A run whose launch was reserved reserves no other. -/
theorem Spent.no_second {h t : Host} {i : Label} {runId : RunId} (hs : Spent runId h)
    (hc : Change py h i t) : ¬ Reserves h t runId := by
  intro hres
  obtain ⟨release, r, hp, hid, hrun, -, -⟩ := hc.reserves hres
  obtain ⟨r₁, r', hr₁, hr', -, -, hn, -⟩ := hres
  have hcur : h.current = some r := by
    rw [Host.current, hp]
    rfl
  rw [hcur] at hr₁
  cases hr₁
  rcases hs.memory r hcur hid with hl | hc | hc
  · rw [hn] at hl
    cases hl
  · rw [hrun] at hc
    cases hc
  · rw [hrun] at hc
    cases hc

/-! ## What a run has bound -/

/-- The step leaves nothing in memory alone that a run has to keep: it is no `bind_authority`
that tears, and where it is a write of the record that raises in a command, the run has a file
that keeps everything of the record in memory. -/
def Backed (py : Stdlib) (h : Host) : Label → Prop
  | .command (.onRun runId o) _ =>
    ∀ r, h.current = some r → py.uuid runId.str = some r.runId → ¬ o.TearsRoom r
  | .writeRaises =>
    ∀ release r, h.process = some ⟨release, some r, .record false⟩ →
      ∃ d, h.disk.records r.runId = some d ∧ Later r d
  | _ => True

/-- Between commands the file of the run in memory keeps everything the record there has. -/
def Host.Synced (h : Host) : Prop :=
  ∀ release r, h.process = some ⟨release, some r, .idle⟩ →
    ∃ d, h.disk.records r.runId = some d ∧ Later r d

/-- The flag of a rejected `request_cancel` takes nothing from the record on disk. -/
theorem residue_cancel_later {o : Order} {r r' d : Record} (hr : Residue o r r')
    (ht : ¬ o.TearsRoom r) (h : Later r d) : Later r' d := by
  have hs : r'.settled = false := by
    cases hr with
    | room room version seat hne ht' => exact absurd ht' ht
    | cancel hc =>
      have hset := residue_unsettled (Residue.cancel hc)
      exact hset
  cases hr with
  | room room version seat hne ht' => exact absurd ht' ht
  | cancel hc =>
    refine ⟨h.fixed, h.bound, h.functional, h.wrapper, h.p0, h.launch, h.endpoint, ?_⟩
    intro hset
    rw [hs] at hset
    cases hset

theorem later_residue_cancel {o : Order} {r r' : Record} (hr : Residue o r r')
    (ht : ¬ o.TearsRoom r) : Later r r' := by
  have hs := residue_unsettled hr
  cases hr with
  | room room version seat hne ht' => exact absurd ht' ht
  | cancel hc =>
    refine ⟨⟨rfl, rfl, rfl, rfl⟩, fun _ _ h => h, fun _ => rfl, id, id, id, id, ?_⟩
    intro hset
    rw [hs] at hset
    cases hset

theorem Change.synced {h t : Host} {i : Label} (hf : h.Filed) (hg : Backed py h i)
    (hc : Change py h i t) (hs : h.Synced) : t.Synced := by
  cases hc with
  | quiet d release current c clock => exact hs
  | residue d release r r' runId o clock hid hr =>
    intro release' r₁ hp
    cases hp
    obtain ⟨f, hfile, hlater⟩ := hs release r rfl
    exact ⟨f, by rw [hr.runId]; exact hfile, residue_cancel_later hr (hg r rfl hid) hlater⟩
  | start d release current c clock mode adapter usb runId hguard hn =>
    intro _ _ hp
    cases hp
  | edit d release r r' c clock event he =>
    intro _ _ hp
    cases hp
  | record d release r recovering =>
    intro _ _ hp
    cases hp
  | pointer d release r recovering =>
    intro release' r₁ hp
    cases hp
    exact ⟨r, hf.written release r recovering rfl, .refl r⟩
  | recordRaises d release current =>
    intro release' r hp
    cases hp
    exact hg release r rfl
  | pointerRaises d release current =>
    intro release' r hp
    cases hp
    exact ⟨r, hf.written release r false rfl, .refl r⟩
  | ends d process i hi =>
    intro _ _ hp
    cases hp
  | bootIdle d release release' utc hn =>
    intro _ _ hp
    cases hp
  | bootSettled d release release' utc runId r ha hr hid hset =>
    intro release'' r₁ hp
    cases hp
    exact ⟨r, by rw [hid]; exact hr, .refl r⟩
  | bootRecover d release release' utc runId r ha hr hid hset =>
    intro _ _ hp
    cases hp

theorem reachable_synced {h : Host} (hr : (system py).Reachable (Backed py) h) : h.Synced :=
  reachable_of_change (P := Host.Synced) (fun _ _ hp => by cases hp)
    (fun _ _ _ hreach hs hg hc => hc.synced (reachable_filed hreach) hg hs) hr

/-- A run that reserves its launch has its record on disk. -/
theorem reserves_spent {h t : Host} {i : Label} {runId : RunId}
    (hr : (system py).Reachable (Backed py) h) (hc : Change py h i t)
    (hres : Reserves h t runId) : Spent runId t := by
  obtain ⟨release, r, hp, hid, -, -, -⟩ := hc.reserves hres
  obtain ⟨e, he, -⟩ := reachable_synced hr release r hp
  obtain ⟨-, r', -, hr', -, -, -, hl⟩ := hres
  have hdisk : ∃ e', t.disk.records runId = some e' := by
    rw [hid] at he
    cases hc with
    | record d release r recovering => exact records_writeRecord he
    | _ => exact ⟨e, he⟩
  refine ⟨hdisk, ?_⟩
  intro r₁ hcur _
  rw [hr'] at hcur
  cases hcur
  exact .inl hl

/-- Every record the host holds of the run of `a` is a later one. -/
structure Since (a : Record) (h : Host) : Prop where
  recorded : ∃ d, h.disk.records a.runId = some d
  later : ∀ r, h.Holds r → r.runId = a.runId → Later a r

theorem Change.since {a : Record} {h t : Host} {i : Label} (hg : Backed py h i)
    (hc : Change py h i t) (hs : Since a h) : Since a t := by
  obtain ⟨⟨e, he⟩, hlater⟩ := hs
  have memory : ∀ d release (current : Option Record) stage, h.disk.records = d.records →
      (∀ r, current = some r → r.runId = a.runId → Later a r) →
      Since a ⟨d, some ⟨release, current, stage⟩⟩ := by
    intro d release current stage hd hcur
    refine ⟨⟨e, by rw [← hd]; exact he⟩, ?_⟩
    rintro r (⟨p, hp, hr⟩ | ⟨runId, hr⟩)
    · cases hp
      exact hcur r hr
    · exact hlater r (.inr ⟨runId, by rw [hd]; exact hr⟩)
  cases hc with
  | quiet d release current c clock => exact ⟨⟨e, he⟩, hlater⟩
  | residue d release r r' runId o clock hid hr =>
    apply memory d release _ _ rfl
    intro r₁ hcur hid'
    cases hcur
    have ht : ¬ o.TearsRoom r := hg r rfl hid
    have hold := hlater r (.inl ⟨_, rfl, rfl⟩) (by rw [← hr.runId]; exact hid')
    exact hold.trans (later_residue_cancel hr ht)
  | start d release current c clock mode adapter usb runId hguard hn =>
    apply memory d release _ _ rfl
    intro r₁ hcur hid'
    cases hcur
    rw [show runId = a.runId from hid'] at hn
    rw [hn] at he
    cases he
  | edit d release r r' c clock event hedit =>
    apply memory d release _ _ rfl
    intro r₁ hcur hid'
    cases hcur
    have hold := hlater r (.inl ⟨_, rfl, rfl⟩) (by rw [← hedit.runId]; exact hid')
    exact hold.trans (edit_later hedit)
  | record d release r recovering =>
    have hr := hlater r (.inl ⟨_, rfl, rfl⟩)
    refine ⟨records_writeRecord he, ?_⟩
    rintro r₁ (⟨p, hp, hcur⟩ | ⟨runId, hrec⟩) hid'
    · cases hp
      cases hcur
      exact hr hid'
    · by_cases hk : runId = r.runId
      · subst hk
        simp only [Disk.writeRecord, Function.update_self] at hrec
        cases hrec
        exact hr hid'
      · simp only [Disk.writeRecord, Function.update_of_ne hk] at hrec
        exact hlater r₁ (.inr ⟨runId, hrec⟩) hid'
  | pointer d release r recovering =>
    apply memory (d.writePointer r) release _ _ rfl
    intro r₁ hcur hid'
    cases hcur
    exact hlater r (.inl ⟨_, rfl, rfl⟩) hid'
  | recordRaises d release current =>
    exact memory d release _ _ rfl fun r hcur => hlater r (.inl ⟨_, rfl, hcur⟩)
  | pointerRaises d release current =>
    exact memory d release _ _ rfl fun r hcur => hlater r (.inl ⟨_, rfl, hcur⟩)
  | ends d process i hi =>
    refine ⟨⟨e, he⟩, ?_⟩
    rintro r₁ (⟨p, hp, -⟩ | hdisk) hid'
    · cases hp
    · exact hlater r₁ (.inr hdisk) hid'
  | bootIdle d release release' utc hn =>
    apply memory d release' _ _ rfl
    intro r₁ hcur
    cases hcur
  | bootSettled d release release' utc runId r ha hr hid hset =>
    apply memory { d with active := none } release' _ _ rfl
    intro r₁ hcur hid'
    cases hcur
    exact hlater r (.inr ⟨runId, hr⟩) hid'
  | bootRecover d release release' utc runId r ha hr hid hset =>
    apply memory d release' _ _ rfl
    intro r₁ hcur hid'
    cases hcur
    exact (hlater r (.inr ⟨runId, hr⟩) hid').trans (recover_later hset)

/-- What the process shows between two commands is known to the disk. -/
theorem shows_since {h : Host} {a : Record} (hr : (system py).Reachable (Backed py) h)
    (ha : h.shows a) : Since a h := by
  obtain ⟨release, hp⟩ := ha
  have hkeyed := (reachable_filed hr).keyed
  obtain ⟨d, hd, hlater⟩ := reachable_synced hr release a hp
  refine ⟨⟨d, hd⟩, ?_⟩
  rintro r (⟨p, hp', hcur⟩ | ⟨runId, hrec⟩) hid
  · rw [hp] at hp'
    cases hp'
    cases hcur
    exact .refl a
  · have hk := hkeyed runId r hrec
    rw [hid] at hk
    rw [← hk, hd] at hrec
    cases hrec
    exact hlater

/-- In every run that is backed by its files: the flags are in order; a launch is reserved by
a running run with a ready P0 side and, in the distributed modes, a locked attempt, and never
twice for one run; and what a run shows it keeps, its bound keys, its outcome and, once
settled, all of it. -/
theorem launch_order_and_identity (py : Stdlib) {h : Host}
    (hr : (system py).Reachable (Backed py) h) :
    (∀ r, h.Holds r → r.Ordered) ∧
    (∀ i t runId, (system py).next h i t → Reserves h t runId →
      (∃ r, h.current = some r ∧ r.runId = runId ∧ r.ownership.p0SideReady = true ∧
        (r.identity.mode.direct = true ∨ r.has .attemptId = true)) ∧
      ∀ u j v, Backed py h i → (system py).Run (Backed py) t u →
        (system py).next u j v → ¬ Reserves u v runId) ∧
    ∀ a, h.shows a → ∀ t b, (system py).Run (Backed py) h t → t.shows b →
      b.runId = a.runId → Later a b := by
  refine ⟨reachable_ordered hr, ?_, ?_⟩
  · intro i t runId hn hres
    have hc := reachable_change hr hn
    constructor
    · obtain ⟨release, r, hp, hid, -, h0, ha⟩ := hc.reserves hres
      exact ⟨r, by rw [Host.current, hp]; rfl, hid, h0, ha⟩
    · intro u j v hg hrun hn'
      have ht : (system py).Reachable (Backed py) t := hr.step hg hn
      have hspent : Spent runId u :=
        run_of_change (fun _ _ _ _ hP _ hc => hc.spent hP) ht hrun (reserves_spent hr hc hres)
      exact hspent.no_second (reachable_change (ht.run hrun) hn')
  · intro a ha t b hrun hb hid
    have hsince : Since a t :=
      run_of_change (fun _ _ _ _ hP hg hc => hc.since hg hP) hr hrun (shows_since hr ha)
    obtain ⟨release, hp⟩ := hb
    exact hsince.later b (.inl ⟨_, hp, rfl⟩) hid

/-! ## A direct run that loses its room, and one that launches -/

def restarted : List Label :=
  [.crash, .boot (.text "1.0") "2026-01-01T00:01:00Z", .writeRecord, .writePointer]

theorem torn_plays : ∃ h a t b,
    System.play (Host.step sampleStdlib) System.Free Host.empty
      (directRun ++ [.command otherRole sampleClock]) = some h ∧ h.shows a ∧
    System.play (Host.step sampleStdlib) System.Free h restarted = some t ∧ t.shows b ∧
    b.runId = a.runId ∧ a.identity.bound .roomId = some (.text "room") ∧
    b.identity.bound .roomId = none := by
  exact ⟨_, _, _, _, rfl, ⟨_, rfl⟩, rfl, ⟨_, rfl⟩, rfl, rfl, rfl⟩

/-- The room a rejected `bind_authority` has bound is gone after a restart. -/
theorem rejected_room_lost : ¬ ∀ (py : Stdlib) (h : Host),
    (system py).Reachable System.Free h → ∀ a, h.shows a → ∀ t b,
      (system py).Run System.Free h t → t.shows b → b.runId = a.runId → Later a b := by
  intro hall
  obtain ⟨h, a, t, b, hplay, ha, hplay', hb, hid, hroom, hlost⟩ := torn_plays
  have hr : (system sampleStdlib).Reachable System.Free h :=
    (System.Reachable.init rfl).run (System.run_of_play hplay)
  have hlater := hall sampleStdlib h hr a ha t b (System.run_of_play hplay') hb hid
  rw [hlater.bound .roomId _ hroom] at hlost
  cases hlost

/-- The label is no `bind_authority`, and no write that raises. -/
def Label.bindsNoAuthority : Label → Bool
  | .command (.onRun _ (.bindAuthority ..)) _ | .writeRaises => false
  | _ => true

theorem backed_of_bindsNoAuthority {h : Host} {i : Label}
    (hi : i.bindsNoAuthority = true) : Backed py h i := by
  cases i with
  | command c clock =>
    cases c with
    | start mode adapter usb runId fresh => trivial
    | onRun runId o =>
      intro r _ _ ht
      cases o with
      | bindAuthority roomId roomVersion seat switchRole => cases hi
      | _ => exact ht.elim
  | writeRaises => cases hi
  | _ => trivial

/-- The direct run goes on to reserve its launch. -/
def launchRun : List Label :=
  directRun ++
    persisted (sampleOrder (.acquireWrapper (.int 7) (.int 9) (.text "adapter")
      (.text "057e:2017") (.text "1-1"))) ++
    persisted (sampleOrder (.markP0Ready (.int 7) (.int 9) (.text "phy0") (.text "wlan0"))) ++
    persisted (sampleOrder
      (.reserveEndpointLaunch (.text "0123456789abcdef0123456789abcdef")))

theorem launchRun_plays : ∃ h a,
    System.play (Host.step sampleStdlib) (fun _ i => i.bindsNoAuthority = true) Host.empty
      launchRun = some h ∧ h.shows a ∧ a.ownership.launchReserved = true := by
  exact ⟨_, _, rfl, ⟨_, rfl⟩, rfl⟩

theorem launch_order_and_identity_direct : ∃ h a, h.shows a ∧
    a.ownership.launchReserved = true ∧ a.Ordered ∧ ∀ t b,
      (system sampleStdlib).Run (Backed sampleStdlib) h t → t.shows b →
        b.runId = a.runId → Later a b := by
  obtain ⟨h, a, hplay, ha, hl⟩ := launchRun_plays
  have hrun : (system sampleStdlib).Run (Backed sampleStdlib) Host.empty h :=
    (System.run_of_play hplay).mono fun _ _ => backed_of_bindsNoAuthority
  have hr : (system sampleStdlib).Reachable (Backed sampleStdlib) h :=
    (System.Reachable.init rfl).run hrun
  obtain ⟨hordered, -, hkeeps⟩ := launch_order_and_identity sampleStdlib hr
  obtain ⟨release, hp⟩ := ha
  refine ⟨h, a, ⟨release, hp⟩, hl, ?_, hkeeps a ⟨release, hp⟩⟩
  exact hordered a (.inl ⟨_, hp, rfl⟩)

end SwitchTrade.Coordinator

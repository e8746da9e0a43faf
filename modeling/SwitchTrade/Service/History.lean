import SwitchTrade.Service.Step

/-!
# Revisions and the history of commands

What a reader is given of the service is the snapshot, or the result the history has of a
command. A projection stands for its revision for ever: every later record has a greater
revision or the same projection, and so has every result that is kept. An entry of the
history is the same as long as it is kept, so a command that is executed again while its
entry is there finds the result it gave.
-/

namespace SwitchTrade.Service

open InPlace Transition

variable {py : Stdlib}

/-- What the host may give a reader: the projection of its record, or a result its history
keeps. -/
def Host.Shows (h : Host) (p : Projection) : Prop :=
  (∃ r, h.current = some r ∧ project r = p) ∨ Kept h.current p

theorem snapshot_shows {h : Host} {runId : Option String} {p : Projection}
    (hp : h.snapshot runId = some p) : ∃ r, h.current = some r ∧ project r = p := by
  unfold Host.snapshot at hp
  cases hup : h.service with
  | none =>
    rw [hup] at hp
    cases hp
  | some s =>
    rw [hup] at hp
    obtain ⟨r, hr, hrp⟩ := Option.map_eq_some_iff.mp hp
    rw [current_up hup]
    exact ⟨r, (Option.filter_eq_some_iff.mp hr).1, hrp⟩

/-! ## A projection stands for its revision -/

/-- The projection agrees with whatever the host shows, and its revision is not ahead. -/
structure Filed (p : Projection) (h : Host) : Prop where
  present : ∃ r, h.current = some r
  current : ∀ r, h.current = some r → p.revision < r.revision ∨ p = project r
  history : ∀ q, Kept h.current q → q.revision = p.revision → q = p

/-- A result the history keeps was kept before, or it is the projection of the record. -/
theorem Moves.kept {h t : Host} {i : Label} (hm : Moves h i t) {q : Projection}
    (hq : Kept t.current q) :
    Kept h.current q ∨ ∃ r, t.current = some r ∧ q = project r := by
  obtain ⟨id, e, he, rfl⟩ := hq
  cases hcur : t.current with
  | none =>
    rw [hcur] at he
    cases he
  | some r =>
    rw [hcur] at he
    rcases (hm.advance r hcur).history id e he with hold | ⟨-, hproj | hkept⟩
    · exact .inl ⟨id, e, hold, rfl⟩
    · exact .inr ⟨r, rfl, hproj⟩
    · exact .inl hkept

theorem Filed.moves {p : Projection} {h t : Host} {i : Label} (hp : Filed p h)
    (hm : Moves h i t) : Filed p t := by
  obtain ⟨r, hr⟩ := hp.present
  have hcurrent : ∀ r', t.current = some r' → p.revision < r'.revision ∨ p = project r' := by
    intro r' hr'
    have hle : p.revision ≤ r.revision := by
      rcases hp.current r hr with hlt | rfl
      · exact Int.le_of_lt hlt
      · exact Int.le_refl _
    have hon := (hm.advance r' hr').onward
    rw [hr] at hon
    cases hon with
    | same hsame =>
      rcases hp.current r hr with hlt | rfl
      · left
        rw [project_revision hsame]
        exact hlt
      · exact .inr hsame.symm
    | run hrev _ _ => exact .inl (Int.lt_of_le_of_lt hle hrev)
    | start hrev _ => exact .inl (Int.lt_of_le_of_lt hle (hrev r rfl))
  refine ⟨?_, hcurrent, ?_⟩
  · cases ht : t.current with
    | none =>
      rw [hm.stays ht] at hr
      cases hr
    | some r' => exact ⟨r', rfl⟩
  · intro q hq heq
    rcases hm.kept hq with hq | ⟨r', hr', rfl⟩
    · exact hp.history q hq heq
    · rcases hcurrent r' hr' with hlt | hsame
      · exact absurd heq (Int.ne_of_gt hlt)
      · exact hsame.symm

/-- Everything the host shows is filed. -/
def Coherent (h : Host) : Prop := ∀ p, h.Shows p → Filed p h

theorem coherent_empty : Coherent Host.empty := by
  rintro p (⟨r, hr, -⟩ | ⟨id, e, he, -⟩)
  · cases hr
  · cases he

theorem Coherent.moves {h t : Host} {i : Label} (hc : Coherent h) (hm : Moves h i t) :
    Coherent t := by
  have hkept : ∀ q, Kept h.current q → Filed q t :=
    fun q hq => (hc q (.inr hq)).moves hm
  have hproj : ∀ r', t.current = some r' → Filed (project r') t := by
    intro r' hr'
    refine ⟨⟨r', hr'⟩, ?_, ?_⟩
    · intro r hr
      rw [hr'] at hr
      cases hr
      exact .inr rfl
    · intro q hq heq
      rcases hm.kept hq with hq | ⟨r, hr, rfl⟩
      · rcases (hkept q hq).current r' hr' with hlt | hsame
        · exact absurd heq (Int.ne_of_lt hlt)
        · exact hsame
      · rw [hr'] at hr
        cases hr
        rfl
  rintro p (⟨r', hr', rfl⟩ | hp)
  · exact hproj r' hr'
  · rcases hm.kept hp with hp | ⟨r', hr', rfl⟩
    · exact hkept p hp
    · exact hproj r' hr'

/-- What every reachable host is. -/
structure Regular (h : Host) : Prop where
  sound : Sound h
  coherent : Coherent h

theorem reachable_regular {G : Host → Label → Prop} {h : Host}
    (hr : (system py).Reachable G h) : Regular h := by
  apply System.Reachable.invariant (P := Regular) _ _ hr
  · rintro s rfl
    exact ⟨sound_empty, coherent_empty⟩
  · intro s i t hs _ hn
    obtain ⟨hm, ht⟩ := step_moves hs.sound hn
    exact ⟨ht, hs.coherent.moves hm⟩

/-- A property every move keeps holds at the end of every run from a reachable state. -/
theorem run_of_moves {G : Host → Label → Prop} {P : Host → Prop} {h t : Host}
    (hstep : ∀ u i v, Sound u → P u → G u i → Moves u i v → P v)
    (hr : (system py).Reachable G h) (hrun : (system py).Run G h t) (hP : P h) : P t := by
  have hboth : Sound t ∧ P t := by
    apply hrun.keeps (P := fun u => Sound u ∧ P u)
    · rintro u i v ⟨hs, hu⟩ hg hn
      obtain ⟨hm, hv⟩ := step_moves hs hn
      exact ⟨hv, hstep u i v hs hu hg hm⟩
    · exact ⟨(reachable_regular hr).sound, hP⟩
  exact hboth.2

theorem run_filed {G : Host → Label → Prop} {h t : Host} {p : Projection}
    (hr : (system py).Reachable G h) (hrun : (system py).Run G h t) (hp : h.Shows p) :
    Filed p t :=
  run_of_moves (fun _ _ _ _ hu _ hm => hu.moves hm) hr hrun ((reachable_regular hr).coherent p hp)

/-- Two projections with the same revision are equal, whenever they are shown. -/
theorem shows_same_revision {G : Host → Label → Prop} {h t : Host} {p q : Projection}
    (hr : (system py).Reachable G h) (hrun : (system py).Run G h t) (hp : h.Shows p)
    (hq : t.Shows q) (heq : p.revision = q.revision) : p = q := by
  have hfiled := run_filed hr hrun hp
  rcases hq with ⟨r, hr', rfl⟩ | hq
  · rcases hfiled.current r hr' with hlt | hsame
    · exact absurd heq (Int.ne_of_lt hlt)
    · exact hsame
  · exact (hfiled.history q hq heq.symm).symm

theorem snapshot_revision_le {G : Host → Label → Prop} {h t : Host} {p q : Projection}
    {a b : Option String} (hr : (system py).Reachable G h) (hrun : (system py).Run G h t)
    (hp : h.snapshot a = some p) (hq : t.snapshot b = some q) : p.revision ≤ q.revision := by
  have hfiled := run_filed hr hrun (.inl (snapshot_shows hp))
  obtain ⟨r, hr', rfl⟩ := snapshot_shows hq
  rcases hfiled.current r hr' with hlt | rfl
  · exact Int.le_of_lt hlt
  · exact Int.le_refl _

/-! ## The history of commands -/

/-- The key under which a command of the user interface is remembered. -/
def Command.key (py : Stdlib) : Command → Option String
  | .start commandId _ _ => py.uuid commandId
  | .command commandId _ _ _ _ _ => py.uuid commandId
  | .retry commandId _ _ => py.uuid commandId
  | .shutdown commandId _ _ => (py.uuid commandId).bind py.uuid
  | .event _ _ => none
  | .finished _ _ _ => none

/-- The content of a command of the user interface. -/
def Command.payload : Command → Option Payload
  | .start _ expectedRevision request => some (.start request expectedRevision)
  | .command _ runId expectedRevision action checkpoint switchRole =>
    some (.command runId action checkpoint switchRole expectedRevision)
  | .retry _ runId expectedRevision => some (.retry runId expectedRevision)
  | .shutdown _ runId expectedRevision => some (.shutdown runId expectedRevision)
  | .event _ _ => none
  | .finished _ _ _ => none

/-- The history has an entry under this key. -/
def Host.Recalls (h : Host) (id : String) : Prop := ∃ e, found h.current id = some e

/-- An entry that is still there is the entry that was there. -/
theorem Moves.found {h t : Host} {i : Label} (hm : Moves h i t) {id : String} {e e' : Recorded}
    (he : found h.current id = some e) (he' : found t.current id = some e') : e' = e := by
  cases hcur : t.current with
  | none =>
    rw [hcur] at he'
    cases he'
  | some r =>
    rw [hcur] at he'
    rcases (hm.advance r hcur).history id e' he' with hold | ⟨hnone, -⟩
    · rw [he] at hold
      cases hold
      rfl
    · rw [he] at hnone
      cases hnone

/-- As long as the history keeps an entry under a key, it is the same one. -/
theorem run_found {h t : Host} {id : String} {e : Recorded}
    (hr : (system py).Reachable System.Free h)
    (hrun : (system py).Run (fun u _ => u.Recalls id) h t) (ht : t.Recalls id)
    (he : found h.current id = some e) : found t.current id = some e := by
  have hfound : Sound t ∧ (t.Recalls id → found t.current id = some e) := by
    apply hrun.keeps (P := fun u => Sound u ∧ (u.Recalls id → found u.current id = some e))
    · rintro u i v ⟨hs, hu⟩ hrec hn
      obtain ⟨hm, hv⟩ := step_moves hs hn
      refine ⟨hv, ?_⟩
      rintro ⟨e', he'⟩
      rw [he', hm.found (hu hrec) he']
    · exact ⟨(reachable_regular hr).sound, fun _ => he⟩
  exact hfound.2 ht

theorem Accepted.found {record record' : Option Record} {commandId : String}
    {payload : Payload} {p : Projection}
    (h : Accepted py record commandId payload p record') :
    ∃ id, py.uuid commandId = some id ∧
      found record' id = some ⟨py.fingerprint payload, p⟩ := by
  obtain ⟨id, r, hid, -, hset, rfl⟩ := h
  refine ⟨id, hid, ?_⟩
  rw [found_some, remember_commands]
  have hpos : 0 < retained := by decide
  exact Dict.get?_keep_set hpos hset

theorem recalled_found {record : Option Record} {commandId : String} {payload : Payload}
    {p : Projection} (h : recalled py record commandId payload = .ok (some p)) :
    ∃ id, py.uuid commandId = some id ∧
      Service.found record id = some ⟨py.fingerprint payload, p⟩ := by
  obtain ⟨id, e, hid, hf, hfp, hres⟩ := recalled_eq_some h
  refine ⟨id, hid, ?_⟩
  rw [hf, ← hfp, ← hres]

theorem map_projection_eq_ok {m : Handler Projection} {s t : Working} {p : Projection}
    (h : (Reply.projection <$> m).run s = .ok (.projection p) t) : m.run s = .ok p t := by
  have h' : EStateM.map Reply.projection m s = .ok (.projection p) t := h
  unfold EStateM.map at h'
  show m s = .ok p t
  cases hm : m s with
  | ok a u =>
    rw [hm] at h'
    cases h'
    rfl
  | error e u =>
    rw [hm] at h'
    cases h'

/-- A command that gave a projection has it in the history. -/
theorem handler_found {s : ConnectionRunService} {c : Command} {w : Outside} {p : Projection}
    {t : Working} {payload : Payload} (hc : c.payload = some payload)
    (h : handle py s c w = .ok (.projection p) t) :
    ∃ id, c.key py = some id ∧ found t.record id = some ⟨py.fingerprint payload, p⟩ := by
  cases c with
  | start commandId expectedRevision request =>
    cases hc
    rcases cmdStart_eq_ok (map_projection_eq_ok h) with ⟨rfl, hrec⟩ | hnew
    · exact recalled_found hrec
    · obtain ⟨id, r, hid, hnone, -, hcom, ht⟩ := hnew
      exact Accepted.found ⟨id, r, hid, hnone, settable_of_commands hcom hnone, ht⟩
  | command commandId runId expectedRevision action checkpoint switchRole =>
    cases hc
    rcases cmdCommand_eq_ok (map_projection_eq_ok h) with ⟨rfl, hrec⟩ | hacc
    · exact recalled_found hrec
    · exact hacc.found
  | retry commandId runId expectedRevision =>
    cases hc
    rcases cmdRetry_eq_ok (map_projection_eq_ok h) with ⟨rfl, hrec⟩ | hacc
    · exact recalled_found hrec
    · exact hacc.found
  | shutdown commandId runId expectedRevision =>
    cases hc
    obtain ⟨commandId', huuid, hres⟩ := cmdShutdown_eq_ok h
    show ∃ id, (py.uuid commandId).bind py.uuid = some id ∧ _
    rw [huuid]
    rcases hres with ⟨rfl, hrec⟩ | hacc
    · exact recalled_found hrec
    · exact hacc.found
  | event runId value => cases hc
  | finished runId report failure => cases hc

theorem report_eq_ok {w : Outside} {r : Record} {s t : Working} {p : Projection}
    (h : (report w r).run s = .ok (.projection p) t) :
    ∃ r', t.record = some r' ∧ project r' = p := by
  obtain ⟨_, s₁, h₁, h⟩ := bind_eq_ok.mp h
  cases modify_eq_ok.mp h₁
  obtain ⟨_, s₂, h₂, h⟩ := bind_eq_ok.mp h
  cases modify_eq_ok.mp h₂
  obtain ⟨hp, rfl⟩ := pure_eq_ok.mp h
  cases hp
  exact ⟨r.stamp w.updatedUtc, by rw [persist_record], rfl⟩

theorem cmdEvent_eq_ok {w : Outside} {runId : String} {value : Event} {s t : Working}
    {p : Projection} (h : (cmdEvent w runId value).run s = .ok (.projection p) t) :
    ∃ r', t.record = some r' ∧ project r' = p := by
  obtain ⟨s', s₁, hget, h⟩ := bind_eq_ok.mp h
  obtain ⟨rfl, rfl⟩ := get_eq_ok.mp hget
  split at h
  · obtain ⟨hq, -⟩ := pure_eq_ok.mp h
    cases hq
  · obtain ⟨r, s₂, -, h⟩ := bind_eq_ok.mp h
    exact report_eq_ok h

theorem cmdFinished_eq_ok {w : Outside} {runId : String} {end_ : Option Report}
    {failure : Option RawFailure} {s t : Working} {p : Projection}
    (h : (cmdFinished w runId end_ failure).run s = .ok (.projection p) t) :
    ∃ r', t.record = some r' ∧ project r' = p := by
  obtain ⟨s', s₁, hget, h⟩ := bind_eq_ok.mp h
  obtain ⟨rfl, rfl⟩ := get_eq_ok.mp hget
  split at h
  · obtain ⟨hq, -⟩ := pure_eq_ok.mp h
    cases hq
  · obtain ⟨_, s₂, -, h⟩ := bind_eq_ok.mp h
    exact report_eq_ok h

/-- What a command gives back the host shows afterwards. -/
theorem call_shows {h t : Host} {s : ConnectionRunService} {c : Command} {w : Outside}
    {p : Projection} (hcall : h.call py s c w = (.ok (.projection p), t)) : t.Shows p := by
  unfold Host.call at hcall
  cases hres : handle py s c w with
  | error e u =>
    rw [hres] at hcall
    cases hcall
  | ok reply u =>
    rw [hres] at hcall
    cases hcall
    cases hc : c.payload with
    | some payload =>
      obtain ⟨id, -, hf⟩ := handler_found hc hres
      exact .inr ⟨id, _, hf, rfl⟩
    | none =>
      left
      cases c with
      | event runId value => exact cmdEvent_eq_ok hres
      | finished runId report failure => exact cmdFinished_eq_ok hres
      | start commandId expectedRevision request => cases hc
      | command commandId runId expectedRevision action checkpoint switchRole => cases hc
      | retry commandId runId expectedRevision => cases hc
      | shutdown commandId runId expectedRevision => cases hc

/-- A command that gave a projection has its entry in the history. -/
theorem call_found {h t : Host} {s : ConnectionRunService} {c : Command} {w : Outside}
    {p : Projection} {payload : Payload} (hc : c.payload = some payload)
    (hcall : h.call py s c w = (.ok (.projection p), t)) :
    ∃ id, c.key py = some id ∧ found t.current id = some ⟨py.fingerprint payload, p⟩ := by
  unfold Host.call at hcall
  cases hres : handle py s c w with
  | error e u =>
    rw [hres] at hcall
    cases hcall
  | ok reply u =>
    rw [hres] at hcall
    cases hcall
    exact handler_found hc hres

/-! ## Executing a command again -/

theorem recalled_again {record : Option Record} {commandId id : String} {payload : Payload}
    {e : Recorded} (hid : py.uuid commandId = some id) (he : found record id = some e) :
    recalled py record commandId payload =
      if e.fingerprint = py.fingerprint payload then .ok (some e.result)
      else .error commandIdConflict := by
  unfold found at he
  unfold recalled uuidOf
  rw [hid]
  simp only [he]

/-- What a command does whose key is in the history: it gives the result that was kept, or
is refused where its content is another. -/
def replayed (py : Stdlib) (e : Recorded) (payload : Payload) :
    Except ConnectionRunServiceError Reply :=
  if e.fingerprint = py.fingerprint payload then .ok (.projection e.result)
  else .error commandIdConflict

theorem idempotent_again {commandId id : String} {payload : Payload} {s : Working} {e : Recorded}
    (hid : py.uuid commandId = some id) (he : found s.record id = some e) :
    (idempotent py commandId payload).run s =
      if e.fingerprint = py.fingerprint payload then .ok (some e.result) s
      else .error commandIdConflict s := by
  show (check (recalled py s.record commandId payload)).run s = _
  rw [recalled_again hid he]
  split <;> rfl

theorem outcome_again {m : Handler (Option Projection)} {f : Option Projection → Handler Reply}
    {s : Working} {e : Recorded} {payload : Payload}
    (hm : m.run s = if e.fingerprint = py.fingerprint payload then .ok (some e.result) s
      else .error commandIdConflict s)
    (hf : ∀ p, f (some p) = pure (.projection p)) :
    outcome ((m >>= f).run s) = (replayed py e payload, s) := by
  rw [EStateM.run_bind, hm]
  unfold replayed
  by_cases hsame : e.fingerprint = py.fingerprint payload
  · rw [if_pos hsame, if_pos hsame]
    show outcome ((f (some e.result)).run s) = _
    rw [hf]
    rfl
  · rw [if_neg hsame, if_neg hsame]
    rfl

theorem map_bind_projection {m : Handler (Option Projection)}
    {f : Option Projection → Handler Projection} {s : Working} :
    (Reply.projection <$> (m >>= f)).run s =
      (m >>= fun cached => Reply.projection <$> f cached).run s := by
  show EStateM.map _ (EStateM.bind m f) s = EStateM.bind m _ s
  unfold EStateM.map EStateM.bind
  cases m s <;> rfl

theorem handler_again {s : ConnectionRunService} {c : Command} {w : Outside} {id : String}
    {payload : Payload} {e : Recorded} (hc : c.payload = some payload)
    (hk : c.key py = some id) (he : found s.record id = some e) :
    outcome (handle py s c w) = (replayed py e payload, ⟨s, []⟩) := by
  have hs : ∀ {commandId}, py.uuid commandId = some id →
      (idempotent py commandId payload).run ⟨s, []⟩ =
        if e.fingerprint = py.fingerprint payload then .ok (some e.result) ⟨s, []⟩
        else .error commandIdConflict ⟨s, []⟩ :=
    fun hid => idempotent_again hid he
  cases c with
  | start commandId expectedRevision request =>
    cases hc
    show outcome ((Reply.projection <$> (idempotent py commandId _ >>= _)).run _) = _
    rw [map_bind_projection]
    exact outcome_again (hs hk) fun _ => rfl
  | command commandId runId expectedRevision action checkpoint switchRole =>
    cases hc
    show outcome ((Reply.projection <$> (idempotent py commandId _ >>= _)).run _) = _
    rw [map_bind_projection]
    exact outcome_again (hs hk) fun _ => rfl
  | retry commandId runId expectedRevision =>
    cases hc
    show outcome ((Reply.projection <$> (idempotent py commandId _ >>= _)).run _) = _
    rw [map_bind_projection]
    exact outcome_again (hs hk) fun _ => rfl
  | shutdown commandId runId expectedRevision =>
    cases hc
    have hk' : (py.uuid commandId).bind py.uuid = some id := hk
    obtain ⟨commandId', huuid, hid⟩ := Option.bind_eq_some_iff.mp hk'
    have hcheck : uuidOf py commandId "command_id" = .ok commandId' := by
      unfold uuidOf
      rw [huuid]
    show outcome ((check (uuidOf py commandId "command_id") >>= _).run _) = _
    rw [hcheck]
    show outcome ((idempotent py commandId' _ >>= _).run _) = _
    exact outcome_again (hs hid) fun _ => rfl
  | event runId value => cases hc
  | finished runId report failure => cases hc

/-- A command whose key the history has changes nothing. -/
theorem call_again {h : Host} {s : ConnectionRunService} {c : Command} {w : Outside}
    {id : String} {payload : Payload} {e : Recorded} (hs : Sound h) (hup : h.service = some s)
    (hc : c.payload = some payload) (hk : c.key py = some id)
    (he : found h.current id = some e) : h.call py s c w = (replayed py e payload, h) := by
  rw [current_up hup] at he
  have hdone := handler_again (w := w) hc hk he
  unfold Host.call
  simp only [hdone]
  have hdraw : h.draw s.record = h.drawn := by
    cases hrec : s.record with
    | none => rfl
    | some r =>
      apply List.insert_of_mem
      apply hs.known
      rw [current_up hup, hrec]
  show (replayed py e payload, Host.mk _ (some s) (h.draw s.record)) = (_, h)
  rw [hdraw, ← hup]
  rfl

end SwitchTrade.Service

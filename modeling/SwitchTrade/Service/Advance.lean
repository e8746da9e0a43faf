import SwitchTrade.Service.Process

/-!
# What one step can do to the record

Every record a command writes is one step on from the record it started with: it is the
first record of a new run, or a record of the same run with a greater revision and the
outcome the command gives it, or it differs from it in the history only. Every entry of
the history was there before or is new under its identifier. The theorems about runs use
nothing else.
-/

namespace SwitchTrade.Service

open InPlace Transition

variable {py : Stdlib}

/-! ## One step on -/

/-- The entry the history has for a command. -/
def found (record : Option Record) (id : String) : Option Recorded :=
  record.bind fun r => r.commands.get? id

@[simp] theorem found_some (r : Record) (id : String) :
    found (some r) id = r.commands.get? id := rfl

/-- The result is one the history has. -/
def Kept (record : Option Record) (p : Projection) : Prop :=
  ∃ id e, found record id = some e ∧ e.result = p

/-- The record one step on from another: `outcomeOn` is what the step makes of the run it
meets, `new` the identifier of the run it may start. -/
inductive Onward (outcomeOn : Record → Outcome) (new : Option String) :
    Option Record → Record → Prop
  | same {r r' : Record} (hp : project r' = project r) : Onward outcomeOn new (some r) r'
  | run {r r' : Record} (hrev : r.revision < r'.revision) (hid : r'.runId = r.runId)
      (ho : r'.outcome = outcomeOn r) : Onward outcomeOn new (some r) r'
  | start {record : Option Record} {r' : Record}
      (hrev : ∀ r, record = some r → r.revision < r'.revision) (hid : some r'.runId = new) :
      Onward outcomeOn new record r'

theorem project_runId {r r' : Record} (h : project r' = project r) : r'.runId = r.runId :=
  congrArg Projection.runId h

theorem project_revision {r r' : Record} (h : project r' = project r) :
    r'.revision = r.revision :=
  congrArg Projection.revision h

theorem project_outcome {r r' : Record} (h : project r' = project r) : r'.outcome = r.outcome :=
  congrArg (fun p : Projection => Outcome.mk p.phase p.functional p.cleanup) h

theorem Onward.congr {outcomeOn : Record → Outcome} {new : Option String}
    {record : Option Record} {r r' : Record} (h : Onward outcomeOn new record r)
    (hp : project r' = project r) : Onward outcomeOn new record r' := by
  have hid := project_runId hp
  have hrev := project_revision hp
  cases h with
  | same hp' => exact .same (hp.trans hp')
  | run hrev' hid' ho => exact .run (hrev ▸ hrev') (hid.trans hid') ((project_outcome hp).trans ho)
  | start hrev' hid' =>
    refine .start ?_ ?_
    · rw [hrev]
      exact hrev'
    · rw [hid]
      exact hid'

/-- One step on, with the history it leaves. -/
structure Advance (outcomeOn : Record → Outcome) (new : Option String) (record : Option Record)
    (r' : Record) : Prop where
  onward : Onward outcomeOn new record r'
  history : ∀ id e, r'.commands.get? id = some e → found record id = some e ∨
    (found record id = none ∧ (e.result = project r' ∨ Kept record e.result))

theorem Advance.like {outcomeOn : Record → Outcome} {new : Option String} {r r' : Record}
    (hp : project r' = project r) (hc : ∀ id, r'.commands.get? id = r.commands.get? id) :
    Advance outcomeOn new (some r) r' where
  onward := .same hp
  history := by
    intro id e he
    rw [hc] at he
    exact .inl he

theorem Advance.refl {outcomeOn : Record → Outcome} {new : Option String} (r : Record) :
    Advance outcomeOn new (some r) r :=
  .like rfl fun _ => rfl

/-- The same run, one revision on, with the history it had. -/
theorem Advance.stamp {outcomeOn : Record → Outcome} {new : Option String} {r r' : Record}
    {utc : String} (hid : r'.runId = r.runId) (hrev : r'.revision = r.revision)
    (ho : r'.outcome = outcomeOn r) (hc : r'.commands = r.commands) :
    Advance outcomeOn new (some r) (r'.stamp utc) where
  onward := by
    refine .run ?_ hid ho
    show r.revision < r'.revision + 1
    omega
  history := by
    intro id e he
    left
    show r.commands.get? id = some e
    rw [← hc]
    exact he

/-- An entry under a new identifier, with the projection or with a result that was kept. -/
theorem Advance.remember {outcomeOn : Record → Outcome} {new : Option String}
    {record : Option Record} {r : Record} {id fingerprint : String} {result : Projection}
    (h : Advance outcomeOn new record r) (hnew : found record id = none)
    (hres : result = project r ∨ Kept record result) :
    Advance outcomeOn new record (r.remember id fingerprint result) where
  onward := h.onward.congr (project_remember ..)
  history := by
    intro id' e he
    rw [project_remember]
    have he' : ((r.commands.set id ⟨fingerprint, result⟩).keep retained).get? id' = some e := he
    rcases Dict.mem_set (Dict.mem_keep he') with ⟨rfl, rfl⟩ | he'
    · exact .inr ⟨hnew, hres⟩
    · exact h.history id' e he'

/-! ## What a handler has written so far -/

/-- Everything written is one step on from the record the handler started with, and the
record in memory is the one written last. -/
structure Within (outcomeOn : Record → Outcome) (new : Option String) (record : Option Record)
    (s : Working) : Prop where
  written : ∀ r' ∈ s.written, Advance outcomeOn new record r'
  memory : s.record = s.written.head?.or record

section Handlers

variable {outcomeOn : Record → Outcome} {new : Option String} {record : Option Record}

theorem within_start (s : ConnectionRunService) : Within outcomeOn new s.record ⟨s, []⟩ where
  written := fun _ h => (by cases h)
  memory := rfl

/-- Putting a record one step on in memory and writing it. -/
theorem Within.persist {s : Working} {r : Record} (h : Within outcomeOn new record s)
    (hr : Advance outcomeOn new record r) :
    Within outcomeOn new record (Working.persist { s with record := some r }) where
  written := by
    intro r' hr'
    rcases List.mem_cons.mp hr' with rfl | hr'
    · exact hr
    · exact h.written r' hr'
  memory := rfl

theorem Within.controls {s : Working} {controls : String → Option RunControl}
    (h : Within outcomeOn new record s) :
    Within outcomeOn new record { s with controls := controls } :=
  ⟨h.written, h.memory⟩

theorem idempotent_reads (commandId : String) (payload : Payload) :
    Reads (idempotent py commandId payload) :=
  Reads.bind .get fun _ => .check _

theorem idempotent_eq_ok {commandId : String} {payload : Payload} {s t : Working}
    {cached : Option Projection} (h : (idempotent py commandId payload).run s = .ok cached t) :
    recalled py s.record commandId payload = .ok cached := by
  obtain ⟨s', u, hget, h⟩ := bind_eq_ok.mp h
  obtain ⟨rfl, rfl⟩ := get_eq_ok.mp hget
  exact (check_eq_ok.mp h).1

/-- A command that is not in the history has an identifier that is not. -/
theorem recalled_eq_none {commandId : String} {payload : Payload}
    (h : recalled py record commandId payload = .ok none) :
    ∃ id, py.uuid commandId = some id ∧ found record id = none := by
  unfold recalled uuidOf at h
  cases hu : py.uuid commandId with
  | none =>
    rw [hu] at h
    cases h
  | some id =>
    refine ⟨id, rfl, ?_⟩
    rw [hu] at h
    cases hf : found record id with
    | none => rfl
    | some e =>
      unfold found at hf
      simp only [hf] at h
      split at h <;> cases h

/-- The identifier of a command that is not in the history is the only one it has. -/
theorem found_of_uuid {commandId id : String} (hid : py.uuid commandId = some id)
    (hnew : found record id = none) :
    ∀ id', py.uuid commandId = some id' → found record id' = none := by
  intro id' hid'
  rw [hid] at hid'
  cases hid'
  exact hnew

/-- A command that first looks into the history goes on with the result it finds there, or with an
identifier that is new. -/
theorem within_idempotent {α : Type} {commandId : String} {payload : Payload}
    {k : Option Projection → Handler α} {s : Working} (h : Within outcomeOn new record s)
    (hcached : ∀ p, Within outcomeOn new record (after (k (some p)) s))
    (hnew : ∀ id, py.uuid commandId = some id → found s.record id = none →
      Within outcomeOn new record (after (k none) s)) :
    Within outcomeOn new record (after (idempotent py commandId payload >>= k) s) := by
  apply (idempotent_reads _ _).after_bind h
  intro cached hrun
  cases cached with
  | some p => exact hcached p
  | none =>
    obtain ⟨id, hid, hfound⟩ := recalled_eq_none (idempotent_eq_ok hrun)
    exact hnew id hid hfound

theorem idempotent_bind_eq_ok {α : Type} {commandId : String} {payload : Payload}
    {k : Option Projection → Handler α} {s t : Working} {a : α}
    (h : (idempotent py commandId payload >>= k).run s = .ok a t) :
    (∃ p, recalled py s.record commandId payload = .ok (some p) ∧
      (k (some p)).run s = .ok a t) ∨
    ∃ id, py.uuid commandId = some id ∧ found s.record id = none ∧ (k none).run s = .ok a t := by
  obtain ⟨cached, s₁, hcached, h⟩ := bind_eq_ok.mp h
  have hs₁ := (idempotent_reads _ _).ok hcached
  subst hs₁
  have hrec := idempotent_eq_ok hcached
  cases cached with
  | some p => exact .inl ⟨p, hrec, h⟩
  | none =>
    obtain ⟨id, hid, hfound⟩ := recalled_eq_none hrec
    exact .inr ⟨id, hid, hfound, h⟩

theorem recalled_eq_some {commandId : String} {payload : Payload} {p : Projection}
    (h : recalled py record commandId payload = .ok (some p)) :
    ∃ id e, py.uuid commandId = some id ∧ found record id = some e ∧
      e.fingerprint = py.fingerprint payload ∧ e.result = p := by
  unfold recalled uuidOf at h
  cases hu : py.uuid commandId with
  | none =>
    rw [hu] at h
    cases h
  | some id =>
    rw [hu] at h
    cases hf : found record id with
    | none =>
      unfold found at hf
      simp only [hf] at h
      cases h
    | some e =>
      have hf' := hf
      unfold found at hf'
      simp only [hf'] at h
      by_cases hp : e.fingerprint = py.fingerprint payload
      · rw [if_pos hp] at h
        cases h
        exact ⟨id, e, rfl, hf, hp, rfl⟩
      · rw [if_neg hp] at h
        cases h

theorem uuidOf_eq_ok {value name id : String} (h : uuidOf py value name = .ok id) :
    py.uuid value = some id := by
  unfold uuidOf at h
  cases hu : py.uuid value with
  | none =>
    rw [hu] at h
    cases h
  | some text =>
    rw [hu] at h
    cases h
    rfl

theorem remember_within {commandId : String} {payload : Payload} {result : Projection}
    {s : Working} {r : Record} (h : Within outcomeOn new record s) (hr : s.record = some r)
    (ha : Advance outcomeOn new record r)
    (hnew : ∀ id, py.uuid commandId = some id → found record id = none)
    (hres : result = project r ∨ Kept record result) :
    Within outcomeOn new record (after (remember py commandId payload result) s) := by
  apply (Reads.check _).after_bind h
  intro id hid
  have hu := uuidOf_eq_ok (check_eq_ok.mp hid).1
  rw [after_modify]
  show Within outcomeOn new record (Working.persist { s with
    record := s.record.map (·.remember id (py.fingerprint payload) result) })
  rw [hr]
  exact h.persist (ha.remember (hnew id hu) hres)

theorem publish_within {commandId : String} {payload : Payload} {s : Working} {r : Record}
    (h : Within outcomeOn new record s) (ha : Advance outcomeOn new record r)
    (hnew : ∀ id, py.uuid commandId = some id → found record id = none) :
    Within outcomeOn new record (after (publish py commandId payload r) s) := by
  have hp := h.persist ha
  have hrem : Within outcomeOn new record
      (after (remember py commandId payload (project r))
        (Working.persist { s with record := some r })) :=
    remember_within hp rfl ha hnew (.inl rfl)
  show Within outcomeOn new record (after (remember py commandId payload (project r) >>=
    fun _ => pure (project r)) (Working.persist { s with record := some r }))
  apply after_bind
  · intro e t he
    rw [after, he] at hrem
    exact hrem
  · intro u t hu
    rw [after, hu] at hrem
    exact hrem

theorem Within.advance {s : Working} {r : Record} (h : Within outcomeOn new record s)
    (hr : s.record = some r) : Advance outcomeOn new record r := by
  rw [h.memory] at hr
  cases hw : s.written with
  | nil =>
    rw [hw] at hr
    have hrec : record = some r := hr
    rw [hrec]
    exact .refl r
  | cons r' older =>
    rw [hw] at hr
    cases hr
    apply h.written r
    rw [hw]
    exact List.mem_cons_self

theorem Within.after_ok {α : Type} {m : Handler α} {s t : Working} {a : α}
    (h : Within outcomeOn new record (after m s)) (ha : m.run s = .ok a t) :
    Within outcomeOn new record t := by
  rw [after, ha] at h
  exact h

theorem Within.after_error {α : Type} {m : Handler α} {s t : Working}
    {e : ConnectionRunServiceError} (h : Within outcomeOn new record (after m s))
    (he : m.run s = .error e t) : Within outcomeOn new record t := by
  rw [after, he] at h
  exact h

@[simp] theorem persist_record (s : Working) : s.persist.record = s.record := by
  unfold Working.persist
  split
  · next h => rw [h]
  · rfl

theorem remember_eq_ok {commandId : String} {payload : Payload} {result : Projection}
    {s t : Working} {u : PUnit} (h : (remember py commandId payload result).run s = .ok u t) :
    ∃ id, py.uuid commandId = some id ∧
      t.record = s.record.map (·.remember id (py.fingerprint payload) result) := by
  obtain ⟨id, s', hcheck, h⟩ := bind_eq_ok.mp h
  obtain ⟨hid, rfl⟩ := check_eq_ok.mp hcheck
  obtain ⟨u₁, s₁, h₁, h₂⟩ := bind_eq_ok.mp h
  cases modify_eq_ok.mp h₁
  cases modify_eq_ok.mp h₂
  refine ⟨id, uuidOf_eq_ok hid, ?_⟩
  rw [persist_record]

theorem publish_eq_ok {commandId : String} {payload : Payload} {s t : Working} {r : Record}
    {p : Projection} (h : (publish py commandId payload r).run s = .ok p t) :
    p = project r ∧ ∃ id, py.uuid commandId = some id ∧
      t.record = some (r.remember id (py.fingerprint payload) p) := by
  obtain ⟨u₁, s₁, h₁, h⟩ := bind_eq_ok.mp h
  cases modify_eq_ok.mp h₁
  obtain ⟨u₂, s₂, h₂, h⟩ := bind_eq_ok.mp h
  cases modify_eq_ok.mp h₂
  obtain ⟨u₃, s₃, h₃, h⟩ := bind_eq_ok.mp h
  obtain ⟨rfl, rfl⟩ := pure_eq_ok.mp h
  obtain ⟨id, hid, hrec⟩ := remember_eq_ok h₃
  refine ⟨rfl, id, hid, ?_⟩
  rw [hrec, persist_record]
  rfl

/-! ## The commands of the user interface -/

theorem start_advance {w : Outside} {expectedRevision : Int} {request : Request}
    (hrev : expectedRevision = revisionOf record) :
    Advance outcomeOn (some w.runId) record
      (startRecord ((record.map Record.commands).getD .empty) w expectedRevision request) where
  onward := by
    refine .start ?_ rfl
    intro r hr
    rw [hr] at hrev
    show r.revision < expectedRevision + 1
    rw [hrev]
    exact Int.lt_succ _
  history := by
    intro id e he
    left
    cases record with
    | none => cases he
    | some r => exact he

theorem cmdStart_within {w : Outside} {commandId : String} {expectedRevision : Int}
    {request : Option Request} {s : Working} (h : Within outcomeOn (some w.runId) record s)
    (hs : s.record = record) :
    Within outcomeOn (some w.runId) record
      (after (cmdStart py w commandId expectedRevision request) s) := by
  refine within_idempotent h (fun _ => h) ?_
  intro id hid hfound
  apply Reads.get.after_bind h
  intro s' hget
  obtain ⟨rfl, -⟩ := get_eq_ok.mp hget
  apply (Reads.raiseIf _ _).after_bind h
  intro _ _
  apply (Reads.raiseIf _ _).after_bind h
  intro _ hstale
  apply (Reads.check _).after_bind h
  intro normalized _
  have hrev := not_not.mp (raiseIf_eq_ok.mp hstale).1
  rw [hs] at hrev hfound ⊢
  show Within _ _ _ (after (publish py commandId _ _) _)
  apply publish_within h.controls (start_advance hrev)
  exact found_of_uuid hid hfound

theorem cmdStart_eq_ok {w : Outside} {commandId : String} {expectedRevision : Int}
    {request : Option Request} {s t : Working} {p : Projection}
    (h : (cmdStart py w commandId expectedRevision request).run s = .ok p t) :
    (t = s ∧ recalled py s.record commandId (.start request expectedRevision) = .ok (some p)) ∨
    ∃ id r, py.uuid commandId = some id ∧ found s.record id = none ∧ p = project r ∧
      r.commands = (s.record.map Record.commands).getD .empty ∧
      t.record = some (r.remember id (py.fingerprint (.start request expectedRevision)) p) := by
  obtain ⟨q, hrec, h⟩ | ⟨id, hid, hfound, h⟩ := idempotent_bind_eq_ok h
  · obtain ⟨rfl, rfl⟩ := pure_eq_ok.mp h
    exact .inl ⟨rfl, hrec⟩
  · right
    obtain ⟨s', s₂, hget, h⟩ := bind_eq_ok.mp h
    obtain ⟨rfl, rfl⟩ := get_eq_ok.mp hget
    obtain ⟨_, s₃, hbusy, h⟩ := bind_eq_ok.mp h
    obtain ⟨-, rfl⟩ := raiseIf_eq_ok.mp hbusy
    obtain ⟨_, s₄, hstale, h⟩ := bind_eq_ok.mp h
    obtain ⟨-, rfl⟩ := raiseIf_eq_ok.mp hstale
    obtain ⟨normalized, s₅, hreq, h⟩ := bind_eq_ok.mp h
    obtain ⟨-, rfl⟩ := check_eq_ok.mp hreq
    obtain ⟨_, s₆, hmod, h⟩ := bind_eq_ok.mp h
    cases modify_eq_ok.mp hmod
    obtain ⟨hp, id', hid', ht⟩ := publish_eq_ok h
    rw [hid] at hid'
    cases hid'
    exact ⟨id, _, hid, hfound, hp, rfl, ht⟩

theorem require_eq_ok {runId : String} {expectedRevision : Int} {r : Record}
    (h : require py record runId expectedRevision = .ok r) : record = some r := by
  unfold require at h
  cases record with
  | none => cases h
  | some r₀ =>
    simp only at h
    split at h
    · cases h
    · split at h
      · cases h
      · split at h
        · cases h
        · cases h
          rfl

theorem map_eq_ok {ε α β : Type} {f : α → β} {x : Except ε α} {b : β}
    (h : f <$> x = .ok b) : ∃ a, x = .ok a ∧ f a = b := by
  cases x with
  | error e => cases h
  | ok a =>
    cases h
    exact ⟨a, rfl, rfl⟩

/-- An action of a command changes the room or the role of the record and nothing else. -/
theorem act_keeps {w : Outside} {r r' : Record} {control control' : Option RunControl}
    {action : String} {checkpoint switchRole : Option String}
    (h : act w r control action checkpoint switchRole = .ok (r', control')) :
    r'.runId = r.runId ∧ r'.revision = r.revision ∧ r'.outcome = r.outcome ∧
      r'.commands = r.commands := by
  unfold act at h
  split at h
  · split at h
    · cases h
    · cases h
    · cases h
      exact ⟨rfl, rfl, rfl, rfl⟩
  · split at h
    · cases h
    · split at h
      · split at h
        · cases h
        · obtain ⟨c, -, hc⟩ := map_eq_ok h
          cases hc
          exact ⟨rfl, rfl, rfl, rfl⟩
      · split at h
        · obtain ⟨c, -, hc⟩ := map_eq_ok h
          cases hc
          exact ⟨rfl, rfl, rfl, rfl⟩
        · obtain ⟨c, -, hc⟩ := map_eq_ok h
          cases hc
          exact ⟨rfl, rfl, rfl, rfl⟩

theorem cmdCommand_within (hout : ∀ r, outcomeOn r = r.outcome) {w : Outside}
    {commandId runId action : String} {expectedRevision : Int}
    {checkpoint switchRole : Option String} {s : Working} (h : Within outcomeOn new record s)
    (hs : s.record = record) :
    Within outcomeOn new record
      (after (cmdCommand py w commandId runId expectedRevision action checkpoint switchRole)
        s) := by
  refine within_idempotent h (fun _ => h) ?_
  intro id hid hfound
  apply Reads.get.after_bind h
  intro s' hget
  obtain ⟨rfl, -⟩ := get_eq_ok.mp hget
  apply (Reads.check _).after_bind h
  intro r hr
  apply (Reads.raiseIf _ _).after_bind h
  intro _ _
  apply (Reads.check _).after_bind h
  rintro ⟨r', control⟩ hact
  obtain ⟨hrun, hrev, ho, hc⟩ := act_keeps (check_eq_ok.mp hact).1
  have hrecord := require_eq_ok (check_eq_ok.mp hr).1
  rw [hs] at hrecord hfound
  show Within _ _ _ (after (publish py commandId _ _) _)
  apply publish_within h.controls
  · rw [hrecord]
    exact .stamp hrun hrev (ho.trans (hout r).symm) hc
  · exact found_of_uuid hid hfound

/-- The command was carried out: its identifier was not in the history, and its entry is now
the newest. -/
def Accepted (py : Stdlib) (record : Option Record) (commandId : String) (payload : Payload)
    (p : Projection) (record' : Option Record) : Prop :=
  ∃ (id : String) (r : Record), py.uuid commandId = some id ∧ found record id = none ∧
    r.commands.Settable id ∧ record' = some (r.remember id (py.fingerprint payload) p)

theorem settable_of_commands {r : Record} {id : String}
    (hc : r.commands = (record.map Record.commands).getD .empty) (hnew : found record id = none) :
    r.commands.Settable id := by
  left
  rw [hc]
  cases record with
  | none => rfl
  | some r₀ => exact hnew

theorem cmdCommand_eq_ok {w : Outside} {commandId runId action : String} {expectedRevision : Int}
    {checkpoint switchRole : Option String} {s t : Working} {p : Projection}
    (h : (cmdCommand py w commandId runId expectedRevision action checkpoint switchRole).run s =
      .ok p t) :
    (t = s ∧ recalled py s.record commandId
      (.command runId action checkpoint switchRole expectedRevision) = .ok (some p)) ∨
    Accepted py s.record commandId (.command runId action checkpoint switchRole expectedRevision)
      p t.record := by
  obtain ⟨q, hrec, h⟩ | ⟨id, hid, hfound, h⟩ := idempotent_bind_eq_ok h
  · obtain ⟨rfl, rfl⟩ := pure_eq_ok.mp h
    exact .inl ⟨rfl, hrec⟩
  · right
    obtain ⟨s', s₂, hget, h⟩ := bind_eq_ok.mp h
    obtain ⟨rfl, rfl⟩ := get_eq_ok.mp hget
    obtain ⟨r, s₃, hrequire, h⟩ := bind_eq_ok.mp h
    obtain ⟨hr, rfl⟩ := check_eq_ok.mp hrequire
    obtain ⟨_, s₄, hallowed, h⟩ := bind_eq_ok.mp h
    obtain ⟨-, rfl⟩ := raiseIf_eq_ok.mp hallowed
    obtain ⟨⟨r', control⟩, s₅, hcheck, h⟩ := bind_eq_ok.mp h
    obtain ⟨hact, rfl⟩ := check_eq_ok.mp hcheck
    obtain ⟨_, s₆, hmod, h⟩ := bind_eq_ok.mp h
    cases modify_eq_ok.mp hmod
    obtain ⟨hp, id', hid', ht⟩ := publish_eq_ok h
    rw [hid] at hid'
    cases hid'
    refine ⟨id, _, hid, hfound, settable_of_commands ?_ hfound, ht⟩
    rw [require_eq_ok hr]
    exact (act_keeps hact).2.2.2

/-- The record a retry's own entry is added to: the new run's, or, where the history has the
identifier of its start, the one it found. -/
theorem start_settable {w : Outside} {commandId id : String} {expectedRevision : Int}
    {request : Option Request} {s t : Working} {p : Projection}
    (h : (cmdStart py w commandId expectedRevision request).run s = .ok p t) {r₀ : Record}
    (hr₀ : s.record = some r₀) (hnew : found s.record id = none) :
    ∃ r, t.record = some r ∧ (p = project r ∨ Kept s.record p) ∧ r.commands.Settable id := by
  rcases cmdStart_eq_ok h with ⟨rfl, hrec⟩ | ⟨id', r, hid', hnew', hp, hc, ht⟩
  · obtain ⟨id', e, -, hf, -, he⟩ := recalled_eq_some hrec
    rw [hr₀] at hnew
    exact ⟨r₀, hr₀, .inr ⟨id', e, hf, he⟩, .inl hnew⟩
  · refine ⟨_, ht, .inl (by rw [project_remember]; exact hp), ?_⟩
    have hset := settable_of_commands hc hnew'
    by_cases hids : id = id'
    · subst hids
      obtain ⟨older, hitems⟩ := Dict.keep_set (n := retained) (by decide) hset
      exact .inr ⟨older, _, hitems⟩
    · left
      rw [Option.eq_none_iff_forall_ne_some]
      intro e he
      rcases Dict.mem_set (Dict.mem_keep he) with ⟨h, -⟩ | he
      · exact hids h
      · rw [hc, hr₀] at he
        rw [hr₀] at hnew
        rw [show found (some r₀) id = some e from he] at hnew
        cases hnew

theorem cmdRetry_within {w : Outside} {commandId runId : String} {expectedRevision : Int}
    {s : Working} (h : Within outcomeOn (some w.runId) record s) (hs : s.record = record) :
    Within outcomeOn (some w.runId) record
      (after (cmdRetry py w commandId runId expectedRevision) s) := by
  refine within_idempotent h (fun _ => h) ?_
  intro id hid hfound
  apply Reads.get.after_bind h
  intro s' hget
  obtain ⟨rfl, -⟩ := get_eq_ok.mp hget
  apply (Reads.check _).after_bind h
  intro r hrequire
  have hr := require_eq_ok (check_eq_ok.mp hrequire).1
  apply (Reads.raiseIf _ _).after_bind h
  intro _ _
  apply after_bind
  · intro e t he
    exact (cmdStart_within h hs).after_error he
  · intro result t ht
    have hwithin := (cmdStart_within h hs).after_ok ht
    obtain ⟨r', hr', hp, -⟩ := start_settable ht hr hfound
    rw [hs] at hp hfound
    have hrem : Within outcomeOn (some w.runId) record
        (after (remember py commandId (.retry runId expectedRevision) result) t) := by
      apply remember_within hwithin hr' (hwithin.advance hr') _ hp
      exact found_of_uuid hid hfound
    apply after_bind
    · intro e u hu
      exact hrem.after_error hu
    · intro _ u hu
      exact hrem.after_ok hu

theorem cmdRetry_eq_ok {w : Outside} {commandId runId : String} {expectedRevision : Int}
    {s t : Working} {p : Projection}
    (h : (cmdRetry py w commandId runId expectedRevision).run s = .ok p t) :
    (t = s ∧ recalled py s.record commandId (.retry runId expectedRevision) = .ok (some p)) ∨
    Accepted py s.record commandId (.retry runId expectedRevision) p t.record := by
  obtain ⟨q, hrec, h⟩ | ⟨id, hid, hfound, h⟩ := idempotent_bind_eq_ok h
  · obtain ⟨rfl, rfl⟩ := pure_eq_ok.mp h
    exact .inl ⟨rfl, hrec⟩
  · right
    obtain ⟨s', s₂, hget, h⟩ := bind_eq_ok.mp h
    obtain ⟨rfl, rfl⟩ := get_eq_ok.mp hget
    obtain ⟨r, s₃, hrequire, h⟩ := bind_eq_ok.mp h
    obtain ⟨hr, rfl⟩ := check_eq_ok.mp hrequire
    obtain ⟨_, s₄, hverified, h⟩ := bind_eq_ok.mp h
    obtain ⟨-, rfl⟩ := raiseIf_eq_ok.mp hverified
    obtain ⟨result, s₅, hstart, h⟩ := bind_eq_ok.mp h
    obtain ⟨_, s₆, hrem, h⟩ := bind_eq_ok.mp h
    obtain ⟨rfl, rfl⟩ := pure_eq_ok.mp h
    obtain ⟨r', hr', -, hset⟩ := start_settable hstart (require_eq_ok hr) hfound
    obtain ⟨id', hid', ht⟩ := remember_eq_ok hrem
    rw [hid] at hid'
    cases hid'
    refine ⟨id, r', hid, hfound, hset, ?_⟩
    rw [ht, hr']
    rfl

theorem cmdShutdown_within (hout : ∀ r, outcomeOn r = r.outcome) {w : Outside}
    {commandId : String} {runId : Option String} {expectedRevision : Int} {s : Working}
    (h : Within outcomeOn new record s) (hs : s.record = record) :
    Within outcomeOn new record (after (cmdShutdown py w commandId runId expectedRevision) s) := by
  apply (Reads.check _).after_bind h
  intro commandId' _
  refine within_idempotent h (fun _ => h) ?_
  intro id hid hfound
  apply Reads.get.after_bind h
  intro s' hget
  obtain ⟨rfl, -⟩ := get_eq_ok.mp hget
  split
  · apply (Reads.raiseIf _ _).after_bind h
    intro _ _
    exact h
  · apply (Reads.check _).after_bind h
    intro r hrequire
    apply (Reads.check _).after_bind h
    intro control _
    have hrecord := require_eq_ok (check_eq_ok.mp hrequire).1
    rw [hs] at hrecord hfound
    have hp : Within outcomeOn new record (after
        (publish py commandId' (.shutdown runId expectedRevision) (r.stamp w.updatedUtc))
        { s with controls := Function.update s.controls r.runId control }) := by
      apply publish_within h.controls
      · rw [hrecord]
        exact .stamp rfl rfl (hout r).symm rfl
      · exact found_of_uuid hid hfound
    rw [after_modify]
    apply after_bind
    · intro e t he
      exact hp.after_error he
    · intro p t ht
      exact hp.after_ok ht

theorem cmdShutdown_eq_ok {w : Outside} {commandId : String} {runId : Option String}
    {expectedRevision : Int} {s t : Working} {p : Projection}
    (h : (cmdShutdown py w commandId runId expectedRevision).run s = .ok (.projection p) t) :
    ∃ commandId', py.uuid commandId = some commandId' ∧
      ((t = s ∧ recalled py s.record commandId' (.shutdown runId expectedRevision) =
          .ok (some p)) ∨
        Accepted py s.record commandId' (.shutdown runId expectedRevision) p t.record) := by
  obtain ⟨commandId', s₀, hcheck, h⟩ := bind_eq_ok.mp h
  obtain ⟨huuid, rfl⟩ := check_eq_ok.mp hcheck
  refine ⟨commandId', uuidOf_eq_ok huuid, ?_⟩
  obtain ⟨q, hrec, h⟩ | ⟨id, hid, hfound, h⟩ := idempotent_bind_eq_ok h
  · obtain ⟨hq, rfl⟩ := pure_eq_ok.mp h
    cases hq
    exact .inl ⟨rfl, hrec⟩
  · right
    obtain ⟨s', s₂, hget, h⟩ := bind_eq_ok.mp h
    obtain ⟨rfl, rfl⟩ := get_eq_ok.mp hget
    split at h
    · obtain ⟨_, s₃, -, h⟩ := bind_eq_ok.mp h
      obtain ⟨hq, -⟩ := pure_eq_ok.mp h
      cases hq
    · obtain ⟨r, s₃, hrequire, h⟩ := bind_eq_ok.mp h
      obtain ⟨hr, rfl⟩ := check_eq_ok.mp hrequire
      obtain ⟨control, s₄, hcontrol, h⟩ := bind_eq_ok.mp h
      obtain ⟨-, rfl⟩ := check_eq_ok.mp hcontrol
      obtain ⟨_, s₅, hmod, h⟩ := bind_eq_ok.mp h
      cases modify_eq_ok.mp hmod
      obtain ⟨q, s₆, hpub, h⟩ := bind_eq_ok.mp h
      obtain ⟨hq, rfl⟩ := pure_eq_ok.mp h
      cases hq
      obtain ⟨-, id', hid', ht⟩ := publish_eq_ok hpub
      rw [hid] at hid'
      cases hid'
      refine ⟨id, _, hid, hfound, settable_of_commands ?_ hfound, ht⟩
      rw [require_eq_ok hr]
      rfl

/-! ## What the workers submit -/

theorem report_within {w : Outside} {s : Working} {r : Record}
    (h : Within outcomeOn new record s)
    (hr : Advance outcomeOn new record (r.stamp w.updatedUtc)) :
    Within outcomeOn new record (after (report w r) s) :=
  h.persist hr

theorem recordOf_eq_some {s : Working} {runId : String} {r : Record}
    (h : s.recordOf runId = some r) : s.record = some r ∧ r.runId = runId := by
  obtain ⟨hr, hid⟩ := Option.filter_eq_some_iff.mp h
  exact ⟨hr, of_decide_eq_true hid⟩

/-- An event changes neither the run, nor the revision, nor the history. -/
theorem onEvent_keeps {r r' : Record} {event : Event} (h : r.onEvent event = .ok r') :
    r'.runId = r.runId ∧ r'.revision = r.revision ∧ r'.commands = r.commands := by
  unfold Record.onEvent at h
  split at h
  case h_5 =>
    split at h
    · cases h
    · cases h
      exact ⟨rfl, rfl, rfl⟩
  case h_8 =>
    split at h
    · cases h
      exact ⟨rfl, rfl, rfl⟩
    · cases h
      exact ⟨rfl, rfl, rfl⟩
  all_goals
    cases h
    exact ⟨rfl, rfl, rfl⟩

theorem cmdEvent_within {w : Outside} {runId : String} {event : Event} {s : Working}
    (hout : ∀ r r', r.runId = runId → r.onEvent event = .ok r' → outcomeOn r = r'.outcome)
    (h : Within outcomeOn new record s) (hs : s.record = record) :
    Within outcomeOn new record (after (cmdEvent w runId event) s) := by
  apply Reads.get.after_bind h
  intro s' hget
  obtain ⟨rfl, -⟩ := get_eq_ok.mp hget
  split
  · exact h
  · next r hr =>
    obtain ⟨hrecord, hid⟩ := recordOf_eq_some hr
    apply (Reads.check _).after_bind h
    intro r' hcheck
    have hevent := (check_eq_ok.mp hcheck).1
    obtain ⟨hrun, hrev, hc⟩ := onEvent_keeps hevent
    apply report_within h
    rw [← hs, hrecord]
    exact .stamp hrun hrev (hout r r' hid hevent).symm hc

theorem cmdFinished_within {w : Outside} {runId : String} {end_ : Option Report}
    {failure : Option RawFailure} {s : Working}
    (hout : ∀ r, r.runId = runId → outcomeOn r = (r.onFinished end_ failure).outcome)
    (h : Within outcomeOn new record s) (hs : s.record = record) :
    Within outcomeOn new record (after (cmdFinished w runId end_ failure) s) := by
  apply Reads.get.after_bind h
  intro s' hget
  obtain ⟨rfl, -⟩ := get_eq_ok.mp hget
  split
  · exact h
  · next r hr =>
    obtain ⟨hrecord, hid⟩ := recordOf_eq_some hr
    rw [after_modify]
    apply report_within h.controls
    rw [← hs, hrecord]
    exact .stamp rfl rfl (hout r hid).symm rfl

end Handlers

/-! ## One command -/

/-- What a command makes of the run it meets. -/
def Command.outcomeOn (c : Command) (r : Record) : Outcome :=
  match c with
  | .event runId value =>
    if r.runId = runId then
      match r.onEvent value with
      | .ok r' => r'.outcome
      | .error _ => r.outcome
    else r.outcome
  | .finished runId report failure =>
    if r.runId = runId then (r.onFinished report failure).outcome else r.outcome
  | _ => r.outcome

theorem handler_within (s : ConnectionRunService) (c : Command) (w : Outside) :
    Within c.outcomeOn (some w.runId) s.record (after (c.handler py w) ⟨s, []⟩) := by
  have h : Within c.outcomeOn (some w.runId) s.record ⟨s, []⟩ := within_start s
  cases c with
  | start commandId expectedRevision request =>
    show Within _ _ _ (after (Reply.projection <$> _) _)
    rw [after_map]
    exact cmdStart_within h rfl
  | command commandId runId expectedRevision action checkpoint switchRole =>
    show Within _ _ _ (after (Reply.projection <$> _) _)
    rw [after_map]
    exact cmdCommand_within (fun _ => rfl) h rfl
  | retry commandId runId expectedRevision =>
    show Within _ _ _ (after (Reply.projection <$> _) _)
    rw [after_map]
    exact cmdRetry_within h rfl
  | shutdown commandId runId expectedRevision =>
    exact cmdShutdown_within (fun _ => rfl) h rfl
  | event runId value =>
    apply cmdEvent_within _ h rfl
    intro r r' hid hevent
    show (if r.runId = runId then _ else _) = r'.outcome
    rw [if_pos hid, hevent]
  | finished runId report failure =>
    apply cmdFinished_within _ h rfl
    intro r hid
    show (if r.runId = runId then _ else _) = _
    rw [if_pos hid]

end SwitchTrade.Service

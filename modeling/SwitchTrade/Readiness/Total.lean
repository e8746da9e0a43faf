import SwitchTrade.Readiness.SideReady

/-!
# What `decode` raises

`decode` maps the exceptions it names to `TunnelV2Error`. Two more can come up: the
`RecursionError` of `json.loads`, and the `AttributeError` of `uuid.UUID` for a run that is
neither null nor a text. A payload is answered if and only if it meets neither
(`answered_iff`).
-/

namespace SwitchTrade.Readiness

open PyJson Fallible
open Tunnel (TunnelV2Error SourceSeat Bytes)

variable {py : Library}

/-! ## The checks -/

/-- A value that `uuid.UUID` takes for a text and that is none. -/
def isForeign : Value → Bool
  | .null | .text _ => false
  | _ => true

/-- The checks before the run have passed. -/
structure ReachesRun (r : SideReady) : Prop where
  contract : Value.isText contract r.contractVersion = true
  attempt : attemptValid r.attemptId = true
  seat : ∃ seat, parseSeat r.sourceSeat = .ok seat

/-- An exception that `decode` maps, or that it raises itself. -/
def Mapped (e : Raised) : Prop := (∃ t, e = .tunnel t) ∨ e = .typeError ∨ e = .valueError ∨
  e = .unicodeDecodeError

theorem mapped_fail (code message : String) : Mapped (fail code message) := .inl ⟨_, rfl⟩

theorem mapError_eq_ok {α ε ε' : Type} {f : ε → ε'} {x : Except ε α} {a : α} :
    x.mapError f = .ok a ↔ x = .ok a := by
  cases x <;> simp [Except.mapError]

theorem mapError_eq_error {α ε ε' : Type} {f : ε → ε'} {x : Except ε α} {e : ε'} :
    x.mapError f = .error e ↔ ∃ e', x = .error e' ∧ f e' = e := by
  cases x <;> simp [Except.mapError]

theorem mapM_mem {α β : Type} {f : α → Option β} {xs : List α} {ys : List β}
    (h : xs.mapM f = some ys) {x : α} (hx : x ∈ xs) : ∃ y ∈ ys, f x = some y := by
  induction xs generalizing ys with
  | nil => cases hx
  | cons x' xs ih =>
    rw [List.mapM_cons] at h
    obtain ⟨y, hy, h⟩ := Option.bind_eq_some_iff.mp h
    obtain ⟨ys', hys, h⟩ := Option.bind_eq_some_iff.mp h
    cases h
    rcases List.mem_cons.mp hx with rfl | hx
    · exact ⟨y, List.mem_cons_self, hy⟩
    · obtain ⟨z, hz, hfz⟩ := ih hys hx
      exact ⟨z, List.mem_cons_of_mem y hz, hfz⟩

theorem parseSeat_error {v : Value} {e : Raised} (h : parseSeat v = .error e) :
    ∃ t, e = .tunnel t := by
  unfold parseSeat at h
  split at h
  · split at h
    · cases h
    split at h
    · cases h
    · cases h
      exact ⟨_, rfl⟩
  · cases h
    exact ⟨_, rfl⟩

theorem uuidText_error {v : Value} {e : Raised} (h : uuidText py v = .error e) :
    Mapped e ∨ e = .attributeError ∧ isForeign v = true := by
  cases v with
  | text t =>
    obtain ⟨-, rfl⟩ := orRaise_eq_error.mp h
    exact .inl (.inr (.inr (.inl rfl)))
  | null =>
    cases h
    exact .inl (.inr (.inl rfl))
  | bool b =>
    cases h
    exact .inr ⟨rfl, rfl⟩
  | int n =>
    cases h
    exact .inr ⟨rfl, rfl⟩
  | float literal =>
    cases h
    exact .inr ⟨rfl, rfl⟩
  | list items =>
    cases h
    exact .inr ⟨rfl, rfl⟩
  | dict items =>
    cases h
    exact .inr ⟨rfl, rfl⟩

theorem uuidText_foreign {v : Value} (h : isForeign v = true) :
    uuidText py v = .error .attributeError := by
  cases v with
  | text t => cases h
  | null => cases h
  | _ => rfl

theorem mapped_identityError {e : Raised} (h : Mapped e) : Mapped (identityError e) := by
  rcases h with ⟨t, rfl⟩ | rfl | rfl | rfl
  · exact .inl ⟨_, rfl⟩
  · exact .inr (.inl rfl)
  · exact .inl ⟨_, rfl⟩
  · exact .inl ⟨_, rfl⟩

/-- The seat and the run are parsed, or refused, or the run has no `replace`. -/
theorem identity_error {r : SideReady} {e : Raised}
    (h : (identity py r).mapError identityError = .error e) :
    Mapped e ∨ e = .attributeError ∧ (∃ seat, parseSeat r.sourceSeat = .ok seat) ∧
      isForeign r.runId = true := by
  obtain ⟨e', h', rfl⟩ := mapError_eq_error.mp h
  unfold identity at h'
  rcases bind_eq_error.mp h' with h | ⟨seat, hseat, h⟩
  · obtain ⟨t, rfl⟩ := parseSeat_error h
    exact .inl (mapped_identityError (.inl ⟨t, rfl⟩))
  rcases bind_eq_error.mp h with h | ⟨runId, -, h⟩
  · rcases uuidText_error h with hm | ⟨rfl, hf⟩
    · exact .inl (mapped_identityError hm)
    · exact .inr ⟨rfl, ⟨seat, hseat⟩, hf⟩
  · exact absurd h (by simp [pure_eq_error])

theorem matchSha256_error {v : Value} {e : Raised} (h : matchSha256 v = .error e) :
    e = .typeError := by
  cases v <;> cases h
  all_goals rfl

/-- A check that refuses raises what its statement says. -/
theorem guard_error {c : Prop} [Decidable c] {e e' : Raised} {α : Type}
    {f : Unit → Except Raised α} (h : (raiseIf c e >>= f) = .error e') :
    e' = e ∨ ¬ c ∧ f () = .error e' := by
  rcases bind_eq_error.mp h with h | ⟨u, hu, h⟩
  · exact .inl (raiseIf_eq_error.mp h).2.symm
  · exact .inr ⟨raiseIf_eq_ok.mp hu, h⟩

/-- Everything but the `AttributeError` of the run is an exception that `decode` names. -/
theorem validate_error {r : SideReady} {e : Raised} (h : r.validate py = .error e) :
    Mapped e ∨ e = .attributeError ∧ ReachesRun r ∧ isForeign r.runId = true := by
  have htype : Mapped .typeError := .inr (.inl rfl)
  unfold SideReady.validate at h
  rcases guard_error h with rfl | ⟨hcontract, h⟩
  · exact .inl (mapped_fail _ _)
  rcases guard_error h with rfl | ⟨hattempt, h⟩
  · exact .inl (mapped_fail _ _)
  rcases bind_eq_error.mp h with h | ⟨⟨seat, runId⟩, -, h⟩
  · rcases identity_error h with hm | ⟨rfl, hseat, hf⟩
    · exact .inl hm
    · exact .inr ⟨rfl, ⟨by simpa using hcontract, by simpa using hattempt, hseat⟩, hf⟩
  left
  rcases guard_error h with rfl | ⟨-, h⟩
  · exact mapped_fail _ _
  rcases guard_error h with rfl | ⟨-, h⟩
  · exact htype
  rcases guard_error h with rfl | ⟨-, h⟩
  · exact mapped_fail _ _
  rcases guard_error h with rfl | ⟨-, h⟩
  · exact mapped_fail _ _
  rcases guard_error h with rfl | ⟨-, h⟩
  · exact mapped_fail _ _
  rcases guard_error h with rfl | ⟨-, h⟩
  · exact mapped_fail _ _
  rcases bind_eq_error.mp h with h | ⟨launch, -, h⟩
  · rw [matchSha256_error h]
    exact htype
  rcases guard_error h with rfl | ⟨-, h⟩
  · exact mapped_fail _ _
  rcases bind_eq_error.mp h with h | ⟨advertisement, -, h⟩
  · rw [matchSha256_error h]
    exact htype
  rcases guard_error h with rfl | ⟨-, h⟩
  · exact mapped_fail _ _
  · exact absurd h (by simp [pure_eq_error])

theorem validate_foreign {r : SideReady} (h : ReachesRun r) (hf : isForeign r.runId = true) :
    r.validate py = .error .attributeError := by
  obtain ⟨seat, hseat⟩ := h.seat
  have hidentity : identity py r = .error .attributeError := by
    unfold identity
    rw [hseat]
    show (uuidText py r.runId >>= _) = _
    rw [uuidText_foreign hf]
    rfl
  unfold SideReady.validate
  rw [h.contract, h.attempt, hidentity]
  rfl

/-! ## Valid records -/

/-- What the checks leave: every field is a text or an integer. -/
structure Valid (py : Library) (r : SideReady) : Prop where
  contract : r.contractVersion = .text contract
  attempt : ∃ t, r.attemptId = .text t ∧ ∀ n ∈ t, IsScalar n
  seat : ∃ seat : SourceSeat, r.sourceSeat = .text (str seat.label)
  run : ∃ t, r.runId = .text t ∧ (uuidInt py t).map uuidStr = some t
  role : ∃ t gate, r.switchRole = .text t ∧ roleGate t = some gate ∧ r.localGate = .text gate
  activation : ∃ n, r.activationGeneration = .int n
  stage : ∃ n, r.stageGeneration = .int n
  proof : ∃ n, r.proofGeneration = .int n
  launch : ∃ t, r.launchIdentitySha256 = .text t ∧ sha256Pattern t = true
  advertisement : ∃ t, r.advertisementSha256 = .text t ∧ sha256Pattern t = true

theorem eq_of_isText {t : Text} {v : Value} (h : Value.isText t v = true) : v = .text t := by
  cases v with
  | text t' => exact congrArg Value.text (of_decide_eq_true h)
  | _ => cases h

theorem utf8Size_isScalar {c n : Nat} (h : utf8Size c = some n) : IsScalar c := by
  unfold utf8Size at h
  unfold IsScalar
  grind

theorem isScalar_of_attemptValid {v : Value} (h : attemptValid v = true) :
    ∃ t, v = .text t ∧ ∀ n ∈ t, IsScalar n := by
  cases v with
  | text t =>
    refine ⟨t, rfl, ?_⟩
    intro c hc
    cases hsizes : t.mapM utf8Size with
    | none => simp [attemptValid, utf8Length, hsizes] at h
    | some sizes =>
      obtain ⟨n, -, hn⟩ := mapM_mem hsizes hc
      exact utf8Size_isScalar hn
  | _ => cases h

theorem roleValid_texts {role gate : Value} (h : roleValid role gate = true) :
    ∃ t g, role = .text t ∧ roleGate t = some g ∧ gate = .text g := by
  cases role with
  | text t =>
    cases hg : roleGate t with
    | none => simp [roleValid, hg] at h
    | some g =>
      have hgate : Value.isText g gate = true := by simpa [roleValid, hg] using h
      exact ⟨t, g, rfl, hg, eq_of_isText hgate⟩
  | _ => cases h

theorem positive_int {v : Value} (h : positive v = true) : ∃ n, v = .int n := by
  cases v with
  | int n => exact ⟨n, rfl⟩
  | _ => cases h

theorem matchSha256_true {v : Value} (h : matchSha256 v = .ok true) :
    ∃ t, v = .text t ∧ sha256Pattern t = true := by
  cases v with
  | text t => exact ⟨t, rfl, Except.ok.inj h⟩
  | _ => cases h

/-- A check that lets the record pass. -/
theorem guard_ok {b : Bool} {e : Raised} {α : Type} {f : Unit → Except Raised α} {a : α}
    (h : (raiseIf (b = false) e >>= f) = .ok a) : b = true ∧ f () = .ok a := by
  obtain ⟨_, hu, h⟩ := bind_eq_ok.mp h
  exact ⟨by simpa using raiseIf_eq_ok.mp hu, h⟩

theorem validate_ok {r r' : SideReady} (h : r.validate py = .ok r') : r' = r ∧ Valid py r := by
  unfold SideReady.validate at h
  obtain ⟨hcontract, h⟩ := guard_ok h
  obtain ⟨hattempt, h⟩ := guard_ok h
  obtain ⟨⟨seat, runId⟩, hidentity, h⟩ := bind_eq_ok.mp h
  obtain ⟨_, hcanonical, h⟩ := bind_eq_ok.mp h
  obtain ⟨-, h⟩ := guard_ok h
  obtain ⟨hrole, h⟩ := guard_ok h
  obtain ⟨hactivation, h⟩ := guard_ok h
  obtain ⟨hstage, h⟩ := guard_ok h
  obtain ⟨hproof, h⟩ := guard_ok h
  obtain ⟨launch, hlaunch, h⟩ := bind_eq_ok.mp h
  obtain ⟨htrue, h⟩ := guard_ok h
  obtain ⟨advertisement, hadvertisement, h⟩ := bind_eq_ok.mp h
  obtain ⟨htrue', h⟩ := guard_ok h
  subst launch advertisement
  rw [raiseIf_eq_ok, not_or] at hcanonical
  have hseat := eq_of_isText (by simpa using hcanonical.1)
  have hrun := eq_of_isText (by simpa using hcanonical.2)
  rw [mapError_eq_ok] at hidentity
  unfold identity at hidentity
  obtain ⟨seat', -, hidentity⟩ := bind_eq_ok.mp hidentity
  obtain ⟨runId', huuid, hidentity⟩ := bind_eq_ok.mp hidentity
  cases hidentity
  rw [hrun] at huuid
  exact ⟨(pure_eq_ok.mp h).symm, {
    contract := eq_of_isText hcontract
    attempt := isScalar_of_attemptValid hattempt
    seat := ⟨seat, hseat⟩
    run := ⟨runId, hrun, orRaise_eq_ok.mp huuid⟩
    role := roleValid_texts hrole
    activation := positive_int hactivation
    stage := positive_int hstage
    proof := positive_int hproof
    launch := matchSha256_true hlaunch
    advertisement := matchSha256_true hadvertisement }⟩

/-! ## The payload -/

/-- `decode` returns a record that is valid, or raises `TunnelV2Error`. -/
def Answered (py : Library) (depth : Nat) (payload : Bytes) : Prop :=
  (∃ r, SideReady.decode py depth payload = .ok r ∧ r.validate py = .ok r) ∨
    ∃ e, SideReady.decode py depth payload = .error (.tunnel e)

/-- The text nests deeper than the interpreter goes. -/
def TooDeep (depth : Nat) (payload : Bytes) : Prop :=
  ∃ text, decodeAscii payload = .ok text ∧ loads depth text = .error .tooDeep

/-- The payload holds the eleven fields, all is right up to the run, and the run is neither
null nor a text. -/
def ForeignRun (depth : Nat) (payload : Bytes) : Prop :=
  ∃ text items, decodeAscii payload = .ok text ∧ loads depth text = .ok (.dict items) ∧
    hasFields items = true ∧ ReachesRun (.ofItems items) ∧
      isForeign (SideReady.ofItems items).runId = true

theorem loadsValue_ok {depth : Nat} {text : List Char} {v : Value} :
    loadsValue depth text = .ok v ↔ loads depth text = .ok v := by
  unfold loadsValue
  split <;> simp [*]

theorem loadsValue_error {depth : Nat} {text : List Char} {e : Raised}
    (h : loadsValue depth text = .error e) :
    Mapped e ∨ e = .recursionError ∧ loads depth text = .error .tooDeep := by
  unfold loadsValue at h
  split at h
  · cases h
  · cases h
    exact .inl (.inr (.inr (.inl rfl)))
  · rename_i hdeep
    cases h
    exact .inr ⟨rfl, hdeep⟩

theorem decodeAscii_error {payload : Bytes} {e : Raised} (h : decodeAscii payload = .error e) :
    e = .unicodeDecodeError := by
  unfold decodeAscii at h
  split at h <;> cases h
  rfl

theorem parse_error {depth : Nat} {payload : Bytes} {e : Raised}
    (h : parse depth payload = .error e) :
    Mapped e ∨ e = .recursionError ∧ TooDeep depth payload := by
  have hvalue : Mapped .valueError := .inr (.inr (.inl rfl))
  unfold parse at h
  rcases bind_eq_error.mp h with h | ⟨text, htext, h⟩
  · rw [decodeAscii_error h]
    exact .inl (.inr (.inr (.inr rfl)))
  rcases bind_eq_error.mp h with h | ⟨value, -, h⟩
  · rcases loadsValue_error h with hm | ⟨rfl, hdeep⟩
    · exact .inl hm
    · exact .inr ⟨rfl, text, htext, hdeep⟩
  left
  split at h
  · rcases guard_error h with rfl | ⟨-, h⟩
    · exact hvalue
    · exact absurd h (by simp [pure_eq_error])
  · cases h
    exact hvalue

theorem parse_ok {depth : Nat} {payload : Bytes} {r : SideReady} :
    parse depth payload = .ok r ↔ ∃ text items, decodeAscii payload = .ok text ∧
      loads depth text = .ok (.dict items) ∧ hasFields items = true ∧ .ofItems items = r := by
  constructor
  · intro h
    unfold parse at h
    obtain ⟨text, htext, h⟩ := bind_eq_ok.mp h
    obtain ⟨value, hvalue, h⟩ := bind_eq_ok.mp h
    split at h
    · rename_i items
      obtain ⟨_, hfields, h⟩ := bind_eq_ok.mp h
      rw [raiseIf_eq_ok] at hfields
      exact ⟨text, items, htext, loadsValue_ok.mp hvalue, by simpa using hfields,
        pure_eq_ok.mp h⟩
    · cases h
  · rintro ⟨text, items, htext, hloads, hfields, rfl⟩
    unfold parse
    rw [htext]
    show (loadsValue depth text >>= _) = _
    rw [loadsValue_ok.mpr hloads]
    show (raiseIf (hasFields items = false) _ >>= _) = _
    rw [hfields]
    rfl

theorem decode_ok {depth : Nat} {payload : Bytes} {r : SideReady} :
    SideReady.decode py depth payload = .ok r ↔
      parse depth payload = .ok r ∧ r.validate py = .ok r := by
  unfold SideReady.decode
  rw [mapError_eq_ok, bind_eq_ok]
  constructor
  · rintro ⟨r', hr', hv⟩
    obtain ⟨rfl, -⟩ := validate_ok hv
    exact ⟨hr', hv⟩
  · rintro ⟨hr, hv⟩
    exact ⟨r, hr, hv⟩

theorem payloadError_mapped {e : Raised} (h : Mapped e) : ∃ t, payloadError e = .tunnel t := by
  rcases h with ⟨t, rfl⟩ | rfl | rfl | rfl
  · exact ⟨t, rfl⟩
  all_goals exact ⟨_, rfl⟩

/-- A payload is answered unless it is too deep or its run is foreign. -/
theorem answered_iff (depth : Nat) (payload : Bytes) :
    Answered py depth payload ↔ ¬ TooDeep depth payload ∧ ¬ ForeignRun depth payload := by
  constructor
  · intro h
    constructor
    · rintro ⟨text, htext, hdeep⟩
      have hdecode : SideReady.decode py depth payload = .error .recursionError := by
        unfold SideReady.decode parse
        rw [htext]
        show ((loadsValue depth text >>= _) >>= _).mapError _ = _
        unfold loadsValue
        rw [hdeep]
        rfl
      rcases h with ⟨r, hr, -⟩ | ⟨e, he⟩
      · rw [hdecode] at hr
        cases hr
      · rw [hdecode] at he
        cases he
    · rintro ⟨text, items, htext, hloads, hfields, hreaches, hforeign⟩
      have hparse := parse_ok.mpr ⟨text, items, htext, hloads, hfields, rfl⟩
      have hdecode : SideReady.decode py depth payload = .error .attributeError := by
        unfold SideReady.decode
        rw [hparse]
        show ((SideReady.ofItems items).validate py).mapError _ = _
        rw [validate_foreign hreaches hforeign]
        rfl
      rcases h with ⟨r, hr, -⟩ | ⟨e, he⟩
      · rw [hdecode] at hr
        cases hr
      · rw [hdecode] at he
        cases he
  · rintro ⟨hdeep, hforeign⟩
    cases hdecode : SideReady.decode py depth payload with
    | ok r => exact .inl ⟨r, hdecode, (decode_ok.mp hdecode).2⟩
    | error e =>
      right
      have herror := hdecode
      unfold SideReady.decode at herror
      obtain ⟨e', he', rfl⟩ := mapError_eq_error.mp herror
      have hmapped : Mapped e' := by
        rcases bind_eq_error.mp he' with he' | ⟨r, hr, he'⟩
        · rcases parse_error he' with hm | ⟨-, hd⟩
          · exact hm
          · exact absurd hd hdeep
        · rcases validate_error he' with hm | ⟨-, hreaches, hf⟩
          · exact hm
          · obtain ⟨text, items, htext, hloads, hfields, rfl⟩ := parse_ok.mp hr
            exact absurd ⟨text, items, htext, hloads, hfields, hreaches, hf⟩ hforeign
      obtain ⟨t, ht⟩ := payloadError_mapped hmapped
      exact ⟨t, hdecode.trans (congrArg Except.error ht)⟩

end SwitchTrade.Readiness

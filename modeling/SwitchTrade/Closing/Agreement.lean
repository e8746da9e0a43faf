import SwitchTrade.Authority.Pairs
import SwitchTrade.Closing.Shutdown

/-!
# The relay, the endpoint and the control side

The relay admits a closing intent, the endpoint's D stage runs for it, and the control side
reads the report of the stage. Every intent the relay admits makes a stage, and the report
of a run names the last gate that was passed. But the relay and the stage take a failure
code in small letters that the control side does not take in a report: the report is
accepted exactly if the intent's code has none, and the drain of the bridge keeps to the
contract of the control side (`closing_report_agreement`).
-/

namespace SwitchTrade.Closing

open Fallible Transition
open Authority (AttemptId CodeField DClosingPayload DOutcome MemberId Room Store Time dCode dGate
  system)

/-! ## The intent that the relay admits -/

/-- The text of an attempt's identifier, a UUID. -/
def attemptText (id : AttemptId) : String := Uuid.text (BitVec.ofNat 128 id)

def outcomeText : DOutcome → String
  | .completed => "completed"
  | .canceled => "canceled"
  | .failed => "failed"

def codeJson : CodeField → Json
  | .null => .null
  | .text code => .text code
  | .other => .bool true

/-- The payload of `begin_d_closing` as the dictionary that the stage is given. -/
def closingIntent (payload : DClosingPayload) : Json :=
  .dict [("contract_version", .text payload.contractVersion),
    ("attempt_id", .ofOption (payload.attemptId.map attemptText)),
    ("activation_generation",
      match payload.activationGeneration with
      | some n => .int n
      | none => .null),
    ("outcome", .ofOption (payload.outcome.map outcomeText)),
    ("primary_failure_code", codeJson payload.primaryFailureCode),
    ("last_passed_gate", .ofOption payload.lastPassedGate)]

theorem attemptText_length (id : AttemptId) : (attemptText id).length = 36 := by
  have hdigits := Uuid.length_digits (BitVec.ofNat 128 id)
  rw [attemptText, Uuid.text, String.length_ofList]
  simp [Uuid.chars, hdigits]

/-- What `begin_d_closing` checked of the payload. -/
structure Admitted (payload : DClosingPayload) (attemptId : AttemptId) (activation : Int)
    (outcome : DOutcome) (code : Option String) (gate : String) : Prop where
  contract : payload.contractVersion = "d-closing-intent.v1"
  attempt : payload.attemptId = some attemptId
  generation : payload.activationGeneration = some activation
  generation_pos : 1 ≤ activation
  outcome_eq : payload.outcome = some outcome
  gate_eq : payload.lastPassedGate = some gate
  gate_valid : dGate gate = true
  code_eq : codeJson payload.primaryFailureCode = .ofOption code
  code_valid : ∀ c ∈ code, dCode c = true
  failed_iff : outcome = .failed ↔ code.isSome
  completed : outcome = .completed → gate = "C_TRADE_COMPLETE"

/-- The four values of an intent that is read without an error. -/
theorem intent_admitted {payload : DClosingPayload} {attemptId : AttemptId} {activation : Int}
    {outcome : DOutcome} {code : Option String} {gate : String}
    (hintent : payload.intent = .ok (outcome, code, gate))
    (hcontract : payload.contractVersion = "d-closing-intent.v1")
    (hattempt : payload.attemptId = some attemptId)
    (hgeneration : payload.activationGeneration = some activation) (hpos : 1 ≤ activation) :
    Admitted payload attemptId activation outcome code gate := by
  unfold DClosingPayload.intent at hintent
  rw [bind_eq_ok] at hintent
  obtain ⟨outcome', houtcome, hintent⟩ := hintent
  rw [orRaise_eq_ok] at houtcome
  rw [bind_eq_ok] at hintent
  obtain ⟨gate', hgate, hintent⟩ := hintent
  rw [orRaise_eq_ok, Option.filter_eq_some_iff] at hgate
  have hcodes : codeJson payload.primaryFailureCode = .ofOption code ∧
      (∀ c ∈ code, dCode c = true) ∧ (outcome = .failed ↔ code.isSome) ∧
      (outcome = .completed → gate = "C_TRADE_COMPLETE") ∧ outcome' = outcome ∧ gate' = gate := by
    cases hfield : payload.primaryFailureCode with
    | null =>
      simp only [hfield] at hintent
      cases outcome' with
      | failed => cases hintent
      | completed =>
        simp only [bind_eq_ok, raiseIf_eq_ok, pure_eq_ok, Prod.mk.injEq] at hintent
        obtain ⟨_, hcode, _, hcomplete, rfl, rfl, rfl⟩ := hintent
        cases hcode
        rw [not_and_not_right] at hcomplete
        exact ⟨rfl, fun _ hc => (by cases hc), by simp, fun _ => hcomplete trivial, rfl, rfl⟩
      | canceled =>
        simp only [bind_eq_ok, raiseIf_eq_ok, pure_eq_ok, Prod.mk.injEq] at hintent
        obtain ⟨_, hcode, _, -, rfl, rfl, rfl⟩ := hintent
        cases hcode
        exact ⟨rfl, fun _ hc => (by cases hc), by simp, by simp, rfl, rfl⟩
    | text c =>
      simp only [hfield] at hintent
      cases outcome' with
      | completed | canceled => cases hintent
      | failed =>
        simp only at hintent
        split at hintent
        · rename_i hvalid
          simp only [bind_eq_ok, raiseIf_eq_ok, pure_eq_ok, Prod.mk.injEq] at hintent
          obtain ⟨_, hcode, _, -, rfl, rfl, rfl⟩ := hintent
          cases hcode
          refine ⟨rfl, ?_, by simp, by simp, rfl, rfl⟩
          intro c' hc'
          cases hc'
          exact hvalid
        · cases hintent
    | other =>
      simp only [hfield] at hintent
      cases outcome' with
      | completed | canceled | failed => cases hintent
  obtain ⟨hjson, hvalid, hfailed, hcomplete, rfl, rfl⟩ := hcodes
  exact ⟨hcontract, hattempt, hgeneration, hpos, houtcome, hgate.1, hgate.2, hjson, hvalid,
    hfailed, hcomplete⟩

/-- What the relay admits in any state it reaches. -/
theorem beginDClosing_admitted {s : Store} (hs : system.Reachable System.Free s) {room : Room}
    (hr : room ∈ s.db.rooms) {now : Time} {memberId : MemberId} {attemptId : AttemptId}
    {payload : DClosingPayload} {version : Nat} {effect : Authority.Effect}
    (h : room.beginDClosing now memberId attemptId payload version = .ok effect) :
    ∃ activation outcome code gate,
      Admitted payload attemptId activation outcome code gate := by
  unfold Room.beginDClosing at h
  rw [bind_eq_ok] at h
  obtain ⟨⟨attempt, member⟩, hidentity, h⟩ := h
  simp only [bind_eq_ok, raiseIf_eq_ok, not_not] at h
  obtain ⟨-, hcontract, -, hattempt, -, hgeneration, ⟨outcome, code, gate⟩, hintent, -⟩ := h
  simp only [Room.dIdentity, bind_eq_ok, orRaise_eq_ok, pure_eq_ok] at hidentity
  obtain ⟨attempt', hroom, member', -, hpair⟩ := hidentity
  cases hpair
  rw [Option.filter_eq_some_iff] at hroom
  have hgen : attempt.activationGeneration = attempt.attemptNumber :=
    ((Authority.attempts_paired hs).1 room hr attempt hroom.1).2.2.2.2.1
  have hnumber := Authority.reachable_attempt_pos hs hr hroom.1
  have hpos : (1 : Int) ≤ attempt.activationGeneration := by
    rw [hgen]
    omega
  exact ⟨_, outcome, code, gate, intent_admitted hintent hcontract hattempt hgeneration hpos⟩

/-! ## The stage of an admitted intent -/

/-- What the constructor leaves in a stage. -/
structure EndpointDStage.Sound (stage : EndpointDStage) : Prop where
  attempt : stage.attemptId ≠ ""
  activation : 1 ≤ stage.activationGeneration
  outcome : isOutcome stage.outcome = true
  primary : stage.outcome = "failed" ↔ stage.primaryFailureCode.isSome

theorem Admitted.new {payload : DClosingPayload} {attemptId : AttemptId} {activation : Int}
    {outcome : DOutcome} {code : Option String} {gate : String}
    (h : Admitted payload attemptId activation outcome code gate) (launch : Launch)
    (hooks : Hooks) (hbridge : ∀ bridge ∈ hooks.bridge,
      bridgeBelongs launch (attemptText attemptId) activation bridge = true) :
    EndpointDStage.new launch (closingIntent payload) hooks =
      .ok { launch, attemptId := attemptText attemptId, activationGeneration := activation
            outcome := outcomeText outcome, primaryFailureCode := code, hooks } := by
  have hlength := attemptText_length attemptId
  have hne : attemptText attemptId ≠ "" := by
    intro hempty
    rw [hempty] at hlength
    cases hlength
  have hread : readIntent (closingIntent payload) =
      some (attemptText attemptId, activation, outcomeText outcome,
        codeJson payload.primaryFailureCode, .text gate) := by
    have htext : isOutcome (outcomeText outcome) = true := by
      cases outcome <;> decide
    have hcontract : (Json.text payload.contractVersion).isText (· = "d-closing-intent.v1") =
        true := by
      rw [h.contract]
      rfl
    rw [closingIntent, h.attempt, h.generation, h.outcome_eq, h.gate_eq]
    show (if Json.hasKeys _ intentFields = true ∧ _ then _ else none) = _
    rw [if_pos ⟨rfl, hcontract, htext, hne, by omega, h.generation_pos⟩]
    rfl
  have hprimary : readPrimary (outcomeText outcome) (codeJson payload.primaryFailureCode)
      (.text gate) = some code := by
    have hcomplete : outcomeText outcome = "completed" → gate = "C_TRADE_COMPLETE" := by
      cases outcome with
      | completed => exact fun _ => h.completed rfl
      | canceled => exact fun hout => absurd hout (by decide)
      | failed => exact fun hout => absurd hout (by decide)
    rw [h.code_eq]
    cases code with
    | none =>
      have hout : outcome ≠ .failed := fun hf => absurd (h.failed_iff.mp hf) (by decide)
      have htext : outcomeText outcome ≠ "failed" := by
        cases outcome with
        | completed => decide
        | canceled => decide
        | failed => exact absurd rfl hout
      show (if dGate gate = true ∧ (_ → _) then (if _ = "failed" then none else some none)
        else none) = _
      rw [if_pos ⟨h.gate_valid, hcomplete⟩, if_neg htext]
    | some c =>
      have hout : outcome = .failed := h.failed_iff.mpr rfl
      subst hout
      show (if dGate gate = true ∧ (_ → _) then
        (if outcomeText .failed = "failed" ∧ dCode c = true then some (some c) else none)
        else none) = _
      rw [if_pos ⟨h.gate_valid, hcomplete⟩, if_pos ⟨rfl, h.code_valid c rfl⟩]
  unfold EndpointDStage.new
  rw [hread]
  show (orRaise (readPrimary _ _ _) _ >>= fun _ => _) = _
  rw [hprimary]
  have havailable : ¬ ∃ bridge ∈ hooks.bridge, bridge.launchHash = none := by
    rintro ⟨bridge, hb, hnone⟩
    have hbelongs := hbridge bridge hb
    rw [bridgeBelongs, hnone] at hbelongs
    simp at hbelongs
  have hbelongs : ¬ ∃ bridge ∈ hooks.bridge,
      ¬ bridgeBelongs launch (attemptText attemptId) activation bridge = true := by
    rintro ⟨bridge, hb, hnot⟩
    exact hnot (hbridge bridge hb)
  show (raiseIf _ _ >>= fun _ => raiseIf _ _ >>= fun _ => _) = _
  rw [raiseIf, if_neg havailable, raiseIf, if_neg hbelongs]
  rfl

/-! ## The report against the control side's contract -/

theorem drainValid_json (d : Drain) : drainValid d.json = true ↔ d.InRange := by
  have hkeys : Json.hasKeys [("pending_local_frames", .int d.pendingLocalFrames),
      ("flushed_local_frames", .int d.flushedLocalFrames),
      ("discarded_local_frames", .int d.discardedLocalFrames),
      ("discarded_remote_frames", .int d.discardedRemoteFrames)] drainFields = true := rfl
  rw [Drain.json, drainValid, hkeys]
  simp [Json.isInt, Drain.InRange, and_assoc]

theorem failureValid_json (f : Failure) : failureValid f.json = true ↔
    controlCode f.code = true ∧ f.gate ∈ gates ∧ f.message.length ≤ 500 := by
  have hvalid : failureValid f.json = (true && controlCode f.code && decide (f.gate ∈ gates) &&
      decide (f.message.length ≤ 500)) := rfl
  rw [hvalid]
  simp [and_assoc]

/-- The failures of a shutdown are all taken if their codes are. -/
theorem failuresValid_json {hooks : Hooks} {s : Shutdown} (h : Accounted hooks s) :
    failuresValid (.list ((s.failures.take 16).map Failure.json)) = true ↔ Coded s.failures := by
  rw [List.take_of_length_le h.few, failuresValid]
  simp only [List.length_map, List.all_map, Bool.and_eq_true, decide_eq_true_eq, List.all_eq_true,
    Function.comp_apply, failureValid_json]
  constructor
  · rintro ⟨-, hall⟩ f hf
    exact (hall f hf).1
  · intro hcoded
    exact ⟨h.few, fun f hf => ⟨hcoded f hf, h.gates_eq f hf, h.bounded f hf⟩⟩

theorem outcomeValid_iff {stage : EndpointDStage} (h : stage.Sound) :
    outcomeValid (.text stage.outcome) (.ofOption stage.primaryFailureCode) = true ↔
      ∀ code ∈ stage.primaryFailureCode, controlCode code = true := by
  have houtcome : (Json.text stage.outcome).isText isOutcome = true := h.outcome
  rw [outcomeValid, houtcome, Bool.true_and]
  cases hprimary : stage.primaryFailureCode with
  | none =>
    have hne : stage.outcome ≠ "failed" := by
      intro hf
      have hsome := h.primary.mp hf
      rw [hprimary] at hsome
      cases hsome
    have htext : (Json.text stage.outcome).isText (· = "failed") = false := by
      simpa [Json.isText] using hne
    rw [htext]
    exact ⟨fun _ c hc => (by cases hc), fun _ => rfl⟩
  | some code =>
    have hfailed : stage.outcome = "failed" := h.primary.mpr (by rw [hprimary]; rfl)
    have htext : (Json.text stage.outcome).isText (· = "failed") = true := by
      simpa [Json.isText] using hfailed
    rw [htext]
    show controlCode code = true ↔ _
    constructor
    · intro hc c hmem
      cases hmem
      exact hc
    · intro hall
      exact hall code rfl

theorem lastPassedGate_valid (failures : List Failure) :
    ((Json.ofOption (lastPassedGate failures)).isText (· ∈ gates) ||
      (Json.ofOption (lastPassedGate failures)).isNull) = true := by
  cases hlast : lastPassedGate failures with
  | none => rfl
  | some gate =>
    have hmem : gate ∈ gates := List.mem_reverse.mp (List.mem_of_find?_eq_some hlast)
    have htext : (Json.ofOption (some gate)).isText (· ∈ gates) = true := by
      simpa [Json.ofOption, Json.isText] using hmem
    rw [htext]
    rfl

theorem status_valid (failures : List Failure) :
    (Json.text (if failures.isEmpty then "passed" else "failed")).isText
      (· ∈ ["passed", "failed"]) = true := by
  cases failures with
  | nil => decide
  | cons f fs => rfl

theorem status_failures (failures : List Failure) :
    ((Json.text (if failures.isEmpty then "passed" else "failed")).isText (· = "failed") ==
      hasFailures (.list ((failures.take 16).map Failure.json))) = true := by
  cases failures with
  | nil => decide
  | cons f fs => rfl

theorem forced_failures (failures : List Failure) :
    (Json.bool (!failures.isEmpty)).isBoolean
      (hasFailures (.list ((failures.take 16).map Failure.json))) = true := by
  cases failures with
  | nil => decide
  | cons f fs => rfl

theorem seat_valid (seat : Authority.Seat) :
    (Json.text (seatText seat)).isText (· ∈ ["member_a", "member_b"]) = true := by
  cases seat with
  | memberA => decide
  | memberB => decide

/-- The report of a sound stage is taken exactly if its outcome, its counts and its failure
codes are. -/
theorem endpointReport_report {stage : EndpointDStage} {s : Shutdown} (hstage : stage.Sound)
    (h : Accounted stage.hooks s) :
    endpointReport (stage.report s) = .ok (stage.report s) ↔
      (∀ code ∈ stage.primaryFailureCode, controlCode code = true) ∧ s.drain.InRange ∧
        Coded s.failures := by
  have hkeys : Json.hasKeys (stage.report s) endpointFields = true := rfl
  have hcontract : Json.get (stage.report s) "contract_version" = .text "d-endpoint-stage.v1" :=
    rfl
  have hrun : Json.get (stage.report s) "run_id" = .text (Uuid.text stage.launch.runId) := rfl
  have hattempt : Json.get (stage.report s) "attempt_id" = .text stage.attemptId := rfl
  have hactivation : Json.get (stage.report s) "activation_generation" =
      .int stage.activationGeneration := rfl
  have hseat : Json.get (stage.report s) "source_seat" =
      .text (seatText stage.launch.sourceSeat) := rfl
  have hgeneration : Json.get (stage.report s) "stage_generation" =
      .int stage.launch.stageGeneration := rfl
  have hidentity : Json.get (stage.report s) "launch_identity_sha256" =
      .text stage.launch.launchIdentitySha256 := rfl
  have houtcome : Json.get (stage.report s) "outcome" = .text stage.outcome := rfl
  have hprimary : Json.get (stage.report s) "primary_failure_code" =
      .ofOption stage.primaryFailureCode := rfl
  have hlast : Json.get (stage.report s) "last_passed_gate" =
      .ofOption (lastPassedGate s.failures) := rfl
  have hstatus : Json.get (stage.report s) "status" =
      .text (if s.failures.isEmpty then "passed" else "failed") := rfl
  have hforced : Json.get (stage.report s) "forced" = .bool (!s.failures.isEmpty) := rfl
  have hevidence : Json.get (stage.report s) "evidence" = s.evidence.json := rfl
  have hdrain : Json.get (stage.report s) "drain" = s.drain.json := rfl
  have hfailures : Json.get (stage.report s) "failures" =
      .list ((s.failures.take 16).map Failure.json) := rfl
  have helapsed : Json.get (stage.report s) "elapsed_ms" = .int stage.hooks.elapsedAtEnd := rfl
  have hfields : evidenceValid s.evidence.json = true := rfl
  rw [endpointReport_eq_ok, endpointValid, hkeys, hcontract, hrun, hattempt, hactivation, hseat,
    hgeneration, hidentity, houtcome, hprimary, hlast, hstatus, hforced, hevidence, hdrain,
    hfailures, helapsed, hfields, lastPassedGate_valid, status_valid, status_failures,
    forced_failures, seat_valid]
  simp only [Json.isText, Json.isInt, Json.isBool, Uuid.accepts_text, stage.launch.identity,
    stage.launch.generation_pos, hstage.attempt, hstage.activation, Int.natCast_nonneg,
    Bool.true_and, Bool.and_true, Bool.and_eq_true, decide_true, ne_eq, not_false_eq_true]
  rw [outcomeValid_iff hstage, drainValid_json, failuresValid_json h, and_assoc]

/-! ## Agreement -/

/-- The control side takes the report, and the report names the last gate that was passed. -/
def Agrees (report : List (String × Json)) (passed : List (String × Nat)) : Prop :=
  endpointReport report = .ok report ∧
    Json.get report "last_passed_gate" = .ofOption ((passed.map Prod.fst).getLast?)

theorem Admitted.sound {payload : DClosingPayload} {attemptId : AttemptId} {activation : Int}
    {outcome : DOutcome} {code : Option String} {gate : String}
    (h : Admitted payload attemptId activation outcome code gate) (launch : Launch)
    (hooks : Hooks) : EndpointDStage.Sound
      { launch, attemptId := attemptText attemptId, activationGeneration := activation
        outcome := outcomeText outcome, primaryFailureCode := code, hooks } where
  attempt := by
    intro hempty
    have hlength := attemptText_length attemptId
    change attemptText attemptId = "" at hempty
    rw [hempty] at hlength
    cases hlength
  activation := h.generation_pos
  outcome := by
    show isOutcome (outcomeText outcome) = true
    cases outcome <;> decide
  primary := by
    show outcomeText outcome = "failed" ↔ code.isSome
    rw [← h.failed_iff]
    cases outcome <;> decide

/-- The code of the intent, as the payload has it. -/
theorem Admitted.code_iff {payload : DClosingPayload} {attemptId : AttemptId} {activation : Int}
    {outcome : DOutcome} {code : Option String} {gate : String}
    (h : Admitted payload attemptId activation outcome code gate) :
    (∀ c ∈ code, controlCode c = true) ↔
      ∀ c, payload.primaryFailureCode = .text c → controlCode c = true := by
  have hjson := h.code_eq
  cases hfield : payload.primaryFailureCode with
  | null =>
    rw [hfield] at hjson
    cases code with
    | none => simp
    | some c => cases hjson
  | text c =>
    rw [hfield] at hjson
    cases code with
    | none => cases hjson
    | some c' =>
      cases hjson
      simp
  | other =>
    rw [hfield] at hjson
    cases code with
    | none => cases hjson
    | some c => cases hjson

/-- A run for an admitted intent. -/
theorem Admitted.agrees {payload : DClosingPayload} {attemptId : AttemptId} {activation : Int}
    {outcome : DOutcome} {code : Option String} {gate : String}
    (h : Admitted payload attemptId activation outcome code gate) {launch : Launch}
    {hooks : Hooks} {report : List (String × Json)} {passed : List (String × Nat)}
    (hrun : EndpointDStage.run
      { launch, attemptId := attemptText attemptId, activationGeneration := activation
        outcome := outcomeText outcome, primaryFailureCode := code, hooks } =
          some (report, passed)) :
    Agrees report passed ↔
      (∀ c, payload.primaryFailureCode = .text c → controlCode c = true) ∧
        DrainContract hooks.bridge := by
  obtain ⟨s, hshutdown, hpair⟩ := Option.map_eq_some_iff.mp hrun
  cases hpair
  have haccounted := shutdown_accounted hshutdown
  have hlast : Json.get (EndpointDStage.report
      { launch, attemptId := attemptText attemptId, activationGeneration := activation
        outcome := outcomeText outcome, primaryFailureCode := code, hooks } s)
      "last_passed_gate" = .ofOption (((s.passed.map fun gate =>
        (gate, hooks.elapsed gate)).map Prod.fst).getLast?) := by
    have hfirst : (s.passed.map fun gate => (gate, hooks.elapsed gate)).map Prod.fst =
        s.passed := by
      rw [List.map_map]
      exact List.map_id _
    rw [hfirst, ← haccounted.last]
    rfl
  rw [Agrees, endpointReport_report (h.sound launch hooks) haccounted, haccounted.contract,
    ← h.code_iff]
  constructor
  · rintro ⟨hall, -⟩
    exact hall
  · intro hall
    exact ⟨hall, hlast⟩

/-- For every closing intent the relay admits and all hooks, with a bridge of this launch if
there is one: the intent makes a stage, and a run of it ends with a report that the control
side takes and that names the last gate the sink was told of, exactly if the intent's
failure code, if it has one, is in capital letters and the drain of the bridge keeps to the
control side's contract. -/
theorem closing_report_agreement {s : Store} (hs : system.Reachable System.Free s) {room : Room}
    (hr : room ∈ s.db.rooms) {now : Time} {memberId : MemberId} {attemptId : AttemptId}
    {payload : DClosingPayload} {version : Nat} {effect : Authority.Effect}
    (h : room.beginDClosing now memberId attemptId payload version = .ok effect)
    (launch : Launch) (hooks : Hooks)
    (hbridge : ∀ bridge ∈ hooks.bridge, ∀ n ∈ payload.activationGeneration,
      bridgeBelongs launch (attemptText attemptId) n bridge = true) :
    ∃ stage, EndpointDStage.new launch (closingIntent payload) hooks = .ok stage ∧
      ∀ report passed, stage.run = some (report, passed) →
        (Agrees report passed ↔
          (∀ code, payload.primaryFailureCode = .text code → controlCode code = true) ∧
            DrainContract hooks.bridge) := by
  obtain ⟨activation, outcome, code, gate, hadmitted⟩ := beginDClosing_admitted hs hr h
  have hstage := hadmitted.new launch hooks
    fun bridge hb => hbridge bridge hb activation hadmitted.generation
  refine ⟨_, hstage, ?_⟩
  intro report passed hrun
  exact hadmitted.agrees hrun

/-! ## Two intents of a started attempt -/

/-- The intent of a failed attempt. -/
def failedPayload (code : String) : DClosingPayload where
  contractVersion := "d-closing-intent.v1"
  attemptId := some 15
  activationGeneration := some 1
  outcome := some .failed
  primaryFailureCode := .text code
  lastPassedGate := some "C_RFU_ACTIVE"

def exampleLaunch : Launch where
  runId := 5
  sourceSeat := .memberA
  stageGeneration := 2
  launchIdentitySha256 := String.ofList (List.replicate 64 '0')
  closeTail := 10000
  generation_pos := by decide
  identity := by decide
  bounded := by decide

/-- The game closes its link in the first turn; the transport cannot be stopped. -/
def exampleHooks : Hooks where
  simulation := some ⟨[⟨false, 10, none, true, none⟩], true, none⟩
  bridge := none
  observer := some none
  transport := some (some "busy")
  elapsed := fun _ => 20
  elapsedAtEnd := 30

theorem failedPayload_admitted (code : String) (hcode : dCode code = true) :
    Admitted (failedPayload code) 15 1 .failed (some code) "C_RFU_ACTIVE" := by
  refine intent_admitted ?_ rfl rfl rfl (by decide)
  show (if dCode code = true then _ else _) = _
  rw [if_pos hcode]
  rfl

/-- The relay takes such an intent from the member who started the attempt. -/
theorem failedPayload_taken (code : String)
    (h : ((Store.initial.run Authority.startedCalls).db.rooms.any fun room =>
      (room.beginDClosing 1 1 15 (failedPayload code) 4).isOk) = true) :
    ∃ room ∈ (Store.initial.run Authority.startedCalls).db.rooms, ∃ effect,
      room.beginDClosing 1 1 15 (failedPayload code) 4 = .ok effect := by
  obtain ⟨room, hr, hok⟩ := List.any_eq_true.mp h
  cases hbegin : room.beginDClosing 1 1 15 (failedPayload code) 4 with
  | error e =>
    rw [hbegin] at hok
    cases hok
  | ok effect => exact ⟨room, hr, effect, hbegin⟩

/-- What a stage for such an intent is, and what its run gives. -/
theorem failedPayload_run (code : String) (hcode : dCode code = true) :
    ∃ stage report passed,
      EndpointDStage.new exampleLaunch (closingIntent (failedPayload code)) exampleHooks =
        .ok stage ∧
      stage.run = some (report, passed) ∧ passed.map Prod.fst = ["D2_GAME_CLOSE_TAIL",
        "D3_BRIDGE_DRAIN"] := by
  have hnew := (failedPayload_admitted code hcode).new exampleLaunch exampleHooks
    fun bridge hb => (by cases hb)
  exact ⟨_, _, _, hnew, rfl, rfl⟩

theorem closing_report_agreement_failed :
    ∃ (report : List (String × Json)) (passed : List (String × Nat)),
      endpointReport report = .ok report ∧
      passed.map Prod.fst = ["D2_GAME_CLOSE_TAIL", "D3_BRIDGE_DRAIN"] ∧
      Json.get report "last_passed_gate" = .text "D3_BRIDGE_DRAIN" := by
  obtain ⟨room, hr, effect, hbegin⟩ := failedPayload_taken "C_RFU_LOST" (by decide)
  obtain ⟨stage, hnew, hagree⟩ := closing_report_agreement (Authority.reachable_free _) hr hbegin
    exampleLaunch exampleHooks fun bridge hb => (by cases hb)
  obtain ⟨stage', report, passed, hnew', hrun, hpassed⟩ :=
    failedPayload_run "C_RFU_LOST" (by decide)
  rw [hnew] at hnew'
  cases hnew'
  have hcode : ∀ code, (failedPayload "C_RFU_LOST").primaryFailureCode = .text code →
      controlCode code = true := by
    rintro code hcode
    cases hcode
    decide
  have hdrain : DrainContract exampleHooks.bridge := fun bridge hb => (by cases hb)
  obtain ⟨hreport, hlast⟩ := (hagree report passed hrun).mpr ⟨hcode, hdrain⟩
  rw [hpassed] at hlast
  exact ⟨report, passed, hreport, hpassed, hlast⟩

/-- The relay admits `relay.peer_lost` as the code of a failed attempt, and the stage runs
for it, but the control side does not take the report. -/
theorem small_letter_code_refused :
    ¬ ∀ s : Store, system.Reachable System.Free s → ∀ room ∈ s.db.rooms,
      ∀ now memberId attemptId payload version effect,
        room.beginDClosing now memberId attemptId payload version = .ok effect →
        ∀ launch hooks, hooks.bridge = none → ∀ stage,
          EndpointDStage.new launch (closingIntent payload) hooks = .ok stage →
          ∀ report passed, stage.run = some (report, passed) → Agrees report passed := by
  intro hall
  obtain ⟨room, hr, effect, hbegin⟩ := failedPayload_taken "relay.peer_lost" (by decide)
  obtain ⟨stage, report, passed, hnew, hrun, -⟩ :=
    failedPayload_run "relay.peer_lost" (by decide)
  have hagrees := hall _ (Authority.reachable_free _) room hr 1 1 15 _ 4 effect hbegin
    exampleLaunch exampleHooks rfl stage hnew report passed hrun
  have hadmitted := failedPayload_admitted "relay.peer_lost" (by decide)
  have hmade := hadmitted.new exampleLaunch exampleHooks fun bridge hb => (by cases hb)
  rw [hmade] at hnew
  cases hnew
  have hcode := ((hadmitted.agrees hrun).mp hagrees).1 "relay.peer_lost" rfl
  exact absurd hcode (by decide)

end SwitchTrade.Closing

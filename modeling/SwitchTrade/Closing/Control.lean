import SwitchTrade.Closing.Stage

/-!
# The control side of D5

`switchtrade/connection/d_control.py`: the strict contract of an endpoint report. The
module has its own patterns and field sets; `_CODE` here has capital letters only.
-/

namespace SwitchTrade.Closing

open Fallible
open Authority (fullmatch asciiUpper asciiDigit sha256Pattern)

/-- `_CODE`. -/
def controlCode : String → Bool :=
  fullmatch asciiUpper (fun c => asciiUpper c || asciiDigit c || c ∈ ['_', '.', '-']) 95

/-- `_ENDPOINT_FIELDS`. -/
def endpointFields : List String :=
  ["contract_version", "run_id", "attempt_id", "activation_generation", "source_seat",
    "stage_generation", "launch_identity_sha256", "outcome", "primary_failure_code",
    "last_passed_gate", "status", "forced", "evidence", "drain", "failures", "elapsed_ms"]

/-- `_ENDPOINT_EVIDENCE_FIELDS`. -/
def endpointEvidenceFields : List String :=
  ["close_tail_required", "close_tail_observed", "bridge_admission_stopped",
    "bridge_transport_exited", "observer_stopped", "simulation_closed", "ldn_released",
    "radio_thread_exited"]

/-- `_DRAIN_FIELDS`. -/
def drainFields : List String :=
  ["pending_local_frames", "flushed_local_frames", "discarded_local_frames",
    "discarded_remote_frames"]

structure DControlError where
  code : String
  gate : String
  message : String
  deriving DecidableEq, Repr

/-- One item of `failures`. -/
def failureValid : Json → Bool
  | .dict items =>
    Json.hasKeys items ["code", "gate", "message"] &&
      (Json.get items "code").isText controlCode &&
      (Json.get items "gate").isText (· ∈ gates) &&
      (Json.get items "message").isText (·.length ≤ 500)
  | _ => false

def failuresValid : Json → Bool
  | .list items => items.length ≤ 16 && items.all failureValid
  | _ => false

/-- `bool(failures)`, of a list. -/
def hasFailures : Json → Bool
  | .list items => !items.isEmpty
  | _ => false

def evidenceValid : Json → Bool
  | .dict items => Json.hasKeys items endpointEvidenceFields &&
    items.all fun item => item.2.isBool
  | _ => false

def drainValid : Json → Bool
  | .dict items => Json.hasKeys items drainFields &&
    items.all fun item => item.2.isInt fun n => 0 ≤ n ∧ n ≤ 256
  | _ => false

/-- The outcome and the code that goes with it. -/
def outcomeValid (outcome primary : Json) : Bool :=
  outcome.isText isOutcome &&
    if outcome.isText (· = "failed") then primary.isText controlCode else primary.isNull

/-- `valid` of `_endpoint_report`. -/
def endpointValid (value : List (String × Json)) : Bool :=
  let get := Json.get value
  Json.hasKeys value endpointFields &&
  (get "contract_version").isText (· = "d-endpoint-stage.v1") &&
  (get "run_id").isText (fun _ => true) &&
  (get "attempt_id").isText (· ≠ "") &&
  (get "activation_generation").isInt (1 ≤ ·) &&
  (get "source_seat").isText (· ∈ ["member_a", "member_b"]) &&
  (get "stage_generation").isInt (1 ≤ ·) &&
  (get "launch_identity_sha256").isText sha256Pattern &&
  outcomeValid (get "outcome") (get "primary_failure_code") &&
  ((get "last_passed_gate").isText (· ∈ gates) || (get "last_passed_gate").isNull) &&
  (get "status").isText (· ∈ ["passed", "failed"]) &&
  (get "forced").isBool &&
  (get "elapsed_ms").isInt (0 ≤ ·) &&
  evidenceValid (get "evidence") &&
  drainValid (get "drain") &&
  failuresValid (get "failures") &&
  ((get "status").isText (· = "failed") == hasFailures (get "failures")) &&
  (get "forced").isBoolean (hasFailures (get "failures")) &&
  -- `uuid.UUID(str(value.get("run_id")))` returns.
  (get "run_id").isText Uuid.accepts

/-- `_endpoint_report`. -/
def endpointReport (value : List (String × Json)) :
    Except DControlError (List (String × Json)) := do
  raiseIf (endpointValid value = false) ⟨"D_ENDPOINT_REPORT_INVALID", "D5_SIDE_QUIESCENT",
    "the endpoint D2-D4 report does not match its strict contract"⟩
  return value

theorem endpointReport_eq_ok {value : List (String × Json)} :
    endpointReport value = .ok value ↔ endpointValid value = true := by
  rw [endpointReport, bind_eq_ok]
  simp only [raiseIf_eq_ok, pure_eq_ok, Bool.not_eq_false, and_true, exists_const]

end SwitchTrade.Closing

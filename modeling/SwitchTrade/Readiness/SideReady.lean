import SwitchTrade.Transition.PyJsonDumps
import SwitchTrade.Tunnel.Envelope

/-!
# The `SIDE_READY` record

`switchtrade/c2_protocol.py`: the record, its checks, and its form on the wire. `decode`
puts whatever JSON value it finds into the fields, so the checks meet values of every type,
and each of them raises what the Python call under it raises.
-/

namespace SwitchTrade.Readiness

open PyJson Fallible
open Tunnel (TunnelV2Error SourceSeat Bytes)

/-- A text of the source. -/
def str (s : String) : Text := s.toList.map Char.toNat

theorem str_inj {s t : String} : str s = str t ↔ s = t := by
  have hchar : Function.Injective Char.toNat := fun c d h => Char.ext (UInt32.toNat_inj.mp h)
  constructor
  · intro h
    exact String.toList_injective (List.map_injective_iff.mpr hchar h)
  · rintro rfl
    rfl

/-- The fields hold any value: the class does not check them. -/
structure SideReady where
  contractVersion : Value
  attemptId : Value
  activationGeneration : Value
  sourceSeat : Value
  switchRole : Value
  localGate : Value
  runId : Value
  stageGeneration : Value
  launchIdentitySha256 : Value
  advertisementSha256 : Value
  proofGeneration : Value

/-- An exception, by its class. -/
inductive Raised where
  | tunnel (error : TunnelV2Error)
  | unicodeDecodeError
  | valueError
  | typeError
  | attributeError
  | recursionError
  deriving DecidableEq, Repr

/-- What the record takes from the standard library: `int(text, 16)`, nothing for its
`ValueError`. -/
structure Library where
  hexadecimal : Text → Option Int

variable (py : Library)

def fail (code message : String) : Raised := .tunnel ⟨code, message⟩

def identityInvalid (message : String) : Raised := fail "C_SIDE_READY_IDENTITY" message

/-! ## The checks -/

/-- `CONTRACT`. -/
def contract : Text := str "side-ready.v1"

def Value.isText (t : Text) : Value → Bool
  | .text t' => t' = t
  | _ => false

/-- The number of bytes of a character in UTF-8; a surrogate has none. -/
def utf8Size (c : Nat) : Option Nat :=
  if c < 0x80 then some 1
  else if c < 0x800 then some 2
  else if 0xD800 ≤ c ∧ c ≤ 0xDFFF then none
  else if c < 0x10000 then some 3
  else if c < 0x110000 then some 4
  else none

/-- `len(text.encode("utf-8"))`, nothing for the `UnicodeEncodeError`. -/
def utf8Length (t : Text) : Option Nat := (t.mapM utf8Size).map List.sum

/-- The attempt is a text of 1 to 128 bytes. -/
def attemptValid : Value → Bool
  | .text t => (utf8Length t).any fun n => 1 ≤ n && n ≤ 128
  | _ => false

/-- `SourceSeat.parse`, whose error has its own code. -/
def parseSeat : Value → Except Raised SourceSeat
  | .text t =>
    if t = str "member_a" then .ok .memberA
    else if t = str "member_b" then .ok .memberB
    else .error (fail "C_SOURCE_SEAT_INVALID" "source seat is invalid")
  | _ => .error (fail "C_SOURCE_SEAT_INVALID" "source seat is invalid")

/-- `text.replace(pattern, "")`; the count is of the characters of a match still to drop. -/
def removeFrom (pattern : Text) : Nat → Text → Text
  | _, [] => []
  | drop + 1, _ :: cs => removeFrom pattern drop cs
  | 0, c :: cs =>
    if pattern.isPrefixOf (c :: cs) then removeFrom pattern (pattern.length - 1) cs
    else c :: removeFrom pattern 0 cs

def remove (pattern : String) (t : Text) : Text := removeFrom (str pattern) 0 t

/-- `text.strip("\x7b\x7d")`. -/
def stripBraces (t : Text) : Text :=
  ((t.dropWhile fun c => c = 123 ∨ c = 125).reverse.dropWhile fun c => c = 123 ∨ c = 125).reverse

/-- `uuid.UUID(text).int`. -/
def uuidInt (t : Text) : Option Nat := do
  let hex := remove "-" (stripBraces (remove "uuid:" (remove "urn:" t)))
  guard (hex.length = 32)
  let n ← py.hexadecimal hex
  guard (0 ≤ n ∧ n < 2 ^ 128)
  return n.toNat

def hexDigit (n : Nat) : Nat := if n < 10 then 48 + n else 87 + n

/-- The digits of `n` from place `first` to place `last - 1` of its 32. -/
def hexDigits (n first last : Nat) : Text :=
  (List.range' first (last - first)).map fun i => hexDigit (n / 16 ^ (31 - i) % 16)

/-- `str(uuid)`. -/
def uuidStr (n : Nat) : Text :=
  hexDigits n 0 8 ++ 45 :: hexDigits n 8 12 ++ 45 :: hexDigits n 12 16 ++ 45 ::
    hexDigits n 16 20 ++ 45 :: hexDigits n 20 32

/-- `str(uuid.UUID(value))`: null is no argument at all, and any other value that is no text
has no `replace`. -/
def uuidText : Value → Except Raised Text
  | .text t => orRaise ((uuidInt py t).map uuidStr) .valueError
  | .null => .error .typeError
  | _ => .error .attributeError

/-- `except (TunnelV2Error, ValueError)` around the seat and the run. -/
def identityError : Raised → Raised
  | .tunnel _ | .unicodeDecodeError | .valueError =>
    identityInvalid "SIDE_READY identity is invalid"
  | e => e

def identity (r : SideReady) : Except Raised (SourceSeat × Text) := do
  let seat ← parseSeat r.sourceSeat
  let runId ← uuidText py r.runId
  return (seat, runId)

/-- `ROLE_GATES`. -/
def roleGate (role : Text) : Option Text :=
  if role = str "a_room_joiner" then some (str "A_READY")
  else if role = str "b_ap_host" then some (str "B_READY")
  else none

/-- Whether the value can be looked up in a dictionary. -/
def hashable : Value → Bool
  | .list _ | .dict _ => false
  | _ => true

/-- The role is one of `ROLE_GATES`, and the gate its own. -/
def roleValid (role gate : Value) : Bool :=
  match role with
  | .text t => (roleGate t).any fun g => Value.isText g gate
  | _ => false

def positive : Value → Bool
  | .int n => 1 ≤ n
  | _ => false

/-- `SHA256`. -/
def sha256Pattern (t : Text) : Bool :=
  t.length = 64 && t.all fun c => (48 ≤ c ∧ c ≤ 57) ∨ (97 ≤ c ∧ c ≤ 102)

/-- `SHA256.fullmatch(value)`, for a text only. -/
def matchSha256 : Value → Except Raised Bool
  | .text t => .ok (sha256Pattern t)
  | _ => .error .typeError

/-- `SideReady.validate`. -/
def SideReady.validate (r : SideReady) : Except Raised SideReady := do
  raiseIf (Value.isText contract r.contractVersion = false)
    (fail "C_SIDE_READY_CONTRACT" "SIDE_READY contract is incompatible")
  raiseIf (attemptValid r.attemptId = false) (identityInvalid "SIDE_READY attempt is invalid")
  let (seat, runId) ← (identity py r).mapError identityError
  raiseIf (Value.isText (str seat.label) r.sourceSeat = false ∨ Value.isText runId r.runId = false)
    (identityInvalid "SIDE_READY identity is not canonical")
  raiseIf (hashable r.switchRole = false) .typeError
  raiseIf (roleValid r.switchRole r.localGate = false)
    (fail "C_SIDE_READY_ROLE" "SIDE_READY role and local gate do not match")
  raiseIf (positive r.activationGeneration = false)
    (fail "C_SIDE_READY_GENERATION" "activation_generation is invalid")
  raiseIf (positive r.stageGeneration = false)
    (fail "C_SIDE_READY_GENERATION" "stage_generation is invalid")
  raiseIf (positive r.proofGeneration = false)
    (fail "C_SIDE_READY_GENERATION" "proof_generation is invalid")
  let launch ← matchSha256 r.launchIdentitySha256
  raiseIf (launch = false) (identityInvalid "launch identity hash is invalid")
  let advertisement ← matchSha256 r.advertisementSha256
  raiseIf (advertisement = false)
    (fail "C_SIDE_READY_ADVERTISEMENT" "advertisement hash is invalid")
  return r

/-! ## The wire -/

/-- The fields, in the order `sort_keys` writes them. -/
def SideReady.items (r : SideReady) : List (String × Value) :=
  [("activation_generation", r.activationGeneration),
    ("advertisement_sha256", r.advertisementSha256), ("attempt_id", r.attemptId),
    ("contract_version", r.contractVersion),
    ("launch_identity_sha256", r.launchIdentitySha256), ("local_gate", r.localGate),
    ("proof_generation", r.proofGeneration), ("run_id", r.runId),
    ("source_seat", r.sourceSeat), ("stage_generation", r.stageGeneration),
    ("switch_role", r.switchRole)]

/-- `FIELDS`. -/
def fields : List String :=
  ["activation_generation", "advertisement_sha256", "attempt_id", "contract_version",
    "launch_identity_sha256", "local_gate", "proof_generation", "run_id", "source_seat",
    "stage_generation", "switch_role"]

/-- A value of a valid record is a text or an integer. -/
def scalarOf : Value → Option Scalar
  | .int n => some (.int n)
  | .text t => some (.text t)
  | _ => none

/-- `json.dumps(asdict(self), …).encode("ascii")`, of a record whose values are scalars, as
those of a valid one are (`scalars_of_valid`). -/
def SideReady.dump (r : SideReady) : Except Raised Bytes := do
  let items ← orRaise (r.items.mapM fun item => (scalarOf item.2).map (str item.1, ·)) .typeError
  let text ← orRaise (dumps items) .valueError
  return text.map fun c => UInt8.ofNat c.toNat

/-- `SideReady.encode`. -/
def SideReady.encode (r : SideReady) : Except Raised Bytes := do
  let r ← r.validate py
  r.dump

/-- `bytes.decode("ascii")`. -/
def decodeAscii (payload : Bytes) : Except Raised (List Char) :=
  if payload.all (· < 128) then .ok (payload.map fun b => Char.ofNat b.toNat)
  else .error .unicodeDecodeError

/-- `json.loads`, with the exceptions of its two limits. -/
def loadsValue (depth : Nat) (text : List Char) : Except Raised Value :=
  match loads depth text with
  | .ok value => .ok value
  | .error .invalid => .error .valueError
  | .error .tooDeep => .error .recursionError

/-- `set(value) == FIELDS`. -/
def hasFields (items : List (Text × Value)) : Bool :=
  (items.all fun item => item.1 ∈ fields.map str) &&
    fields.all fun key => str key ∈ items.map Prod.fst

/-- `SideReady(**value)`. -/
def SideReady.ofItems (items : List (Text × Value)) : SideReady :=
  let get (key : String) : Value := (lookup items (str key)).getD .null
  { contractVersion := get "contract_version"
    attemptId := get "attempt_id"
    activationGeneration := get "activation_generation"
    sourceSeat := get "source_seat"
    switchRole := get "switch_role"
    localGate := get "local_gate"
    runId := get "run_id"
    stageGeneration := get "stage_generation"
    launchIdentitySha256 := get "launch_identity_sha256"
    advertisementSha256 := get "advertisement_sha256"
    proofGeneration := get "proof_generation" }

/-- The record in the payload, before it is checked. -/
def parse (depth : Nat) (payload : Bytes) : Except Raised SideReady := do
  let text ← decodeAscii payload
  let value ← loadsValue depth text
  match value with
  | .dict items =>
    raiseIf (hasFields items = false) .valueError
    return SideReady.ofItems items
  | _ => .error .valueError

/-- `except (UnicodeDecodeError, JSONDecodeError, TypeError, ValueError)`, after
`except TunnelV2Error: raise`. -/
def payloadError : Raised → Raised
  | .unicodeDecodeError | .valueError | .typeError =>
    fail "C_SIDE_READY_INVALID" "SIDE_READY payload is invalid"
  | e => e

/-- `SideReady.decode`. -/
def SideReady.decode (depth : Nat) (payload : Bytes) : Except Raised SideReady :=
  (do
    let r ← parse depth payload
    r.validate py).mapError payloadError

end SwitchTrade.Readiness

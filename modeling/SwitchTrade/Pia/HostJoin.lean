import SwitchTrade.Pia.Session
import Mathlib.Data.List.Infix

/-!
# The host's side of a join

`HostConnectionManager` of `bridge/frlgsim/pia_connect.py`, as far as `on_message` reads and writes
it. A join is taken over before the two replies are built, and the builders read the address back
from its text: what they ask of a join is gathered in `Join.Answerable`, and every join that
`parse_session_join` reads with an IPv4 address is answerable (`answerable_of_parse`).
-/

namespace SwitchTrade.Pia

open BigEndian

/-- The `state` of a `HostConnectionManager`. -/
inductive HostState where
  | announce
  | joinReceived
  | finalized
  deriving DecidableEq, Repr

/-- The constructor refuses a player id or a nonce of another size. -/
structure HostConnectionManager where
  ourMac : Mac
  ourIp : Address
  ourVar : UInt16
  hostVar : Option UInt16 := none
  peerIp : Option Text := none
  playerName : Text
  playerId : Bytes
  random4 : Bytes
  state : HostState := .announce
  peer : Option Join := none
  outbox : List Entry := []
  playerId_length : playerId.length = 16
  random4_length : random4.length = 4

/-- The name of the guest in the replies; without players there is a default. -/
def Join.peerName (join : Join) : Text := join.names.headD "Switch".toList

/-- The player id of the guest in the replies. -/
def Join.peerPlayer (join : Join) : Bytes := join.playerIds.headD (0x10 :: List.replicate 15 0)

namespace HostConnectionManager

/-- What is written before the replies are built. -/
def accepted (host : HostConnectionManager) (join : Join) : HostConnectionManager :=
  { host with
    peer := some join
    hostVar := some join.srcVar
    peerIp := some join.address
    state := if host.state ≠ .finalized then .joinReceived else host.state }

/-- The reply of Session type 2. -/
def responseEntry (host : HostConnectionManager) (join : Join) (payload : Bytes) : Entry where
  proto := protoSession
  payload := payload
  dst := join.srcVar.toNat
  src := host.ourVar.toNat
  compress := false
  footer := true
  establishing := false
  unicast := true
  pktid := none
  footerVar := some join.srcVar.toNat

/-- The reply of Session type 5. -/
def updateEntry (host : HostConnectionManager) (join : Join) (payload : Bytes) : Entry where
  proto := protoSession
  payload := payload
  dst := sessionVar
  src := host.ourVar.toNat
  compress := true
  footer := true
  establishing := false
  unicast := false
  pktid := none
  footerVar := some join.srcVar.toNat

/-- The two replies to a join. -/
def replies (host : HostConnectionManager) (join : Join) : Option (List Entry) := do
  let hostConstant := ldnConstantId host.ourMac
  let response ← buildSessionJoinResponse hostConstant host.ourVar join.srcConstant join.srcVar
    host.random4
  let update ← buildSessionUpdate hostConstant host.ourVar host.ourIp.1 host.playerId
    host.playerName join.srcConstant join.srcVar join.address join.token join.peerPlayer
    join.peerName
  return [host.responseEntry join response, host.updateEntry join update]

/-- `on_message`; an error carries the state that is left when a builder raises. A Net message is
logged at most. -/
def onMessage (host : HostConnectionManager) (proto : Nat) (payload : Bytes) :
    Except HostConnectionManager HostConnectionManager :=
  if proto = protoSession then
    match parseSessionJoin payload with
    | some join =>
      match host.replies join with
      | none => .error (host.accepted join)
      | some entries => .ok { host.accepted join with outbox := host.outbox ++ entries }
    | none =>
      if parseSession payload = some sessionFinalize ∧ host.state = .joinReceived then
        .ok { host with state := .finalized }
      else .ok host
  else .ok host

end HostConnectionManager

/-! ## What a parsed join is made of -/

theorem parsePlayers_spec {players : Nat} {data : Bytes} {names : List Text}
    {playerIds : List Bytes} (h : parsePlayers players data = some (names, playerIds)) :
    names.length = players ∧ playerIds.length = players ∧ ∀ id ∈ playerIds, id.length = 16 := by
  induction players generalizing data names playerIds with
  | zero =>
    cases h
    exact ⟨rfl, rfl, fun id hid => absurd hid List.not_mem_nil⟩
  | succ players ih =>
    rw [parsePlayers] at h
    split at h
    · cases h
    · next hlong =>
        dsimp only at h
        split at h
        · cases h
        · rw [Option.bind_eq_bind, Option.bind_eq_some_iff] at h
          obtain ⟨⟨names', playerIds'⟩, hrest, hmade⟩ := h
          cases hmade
          obtain ⟨hnames, hids, hall⟩ := ih hrest
          refine ⟨by rw [List.length_cons, hnames], by rw [List.length_cons, hids], ?_⟩
          intro id hid
          rcases List.mem_cons.mp hid with rfl | hid
          · rw [List.length_take]
            omega
          · exact hall id hid

/-- The family of the station address, at its place after the protocols. -/
def addressFamily (payload : Bytes) : UInt8 :=
  (payload.drop (2 + 2 * (payload.getD 1 0).toNat)).getD 62 0

/-- An address that is not of IPv6 is of four bytes. -/
theorem parseAddress_ipv4 {family : UInt8} {data : Bytes} {address : Text} {port : Nat}
    {rest : Bytes} (h : parseAddress family data = some (address, port, rest))
    (hipv4 : family ≠ 1) :
    (data.take 4).length = 4 ∧ address = dotted (data.take 4) := by
  unfold parseAddress at h
  dsimp only at h
  by_cases hzero : family = 0
  · simp only [hzero, if_true] at h
    split at h
    · cases h
    · next hsize =>
        cases h
        refine ⟨?_, rfl⟩
        rw [List.length_take]
        omega
  · rw [if_neg hzero, if_neg hipv4] at h
    simp at h

/-- What the builders of the replies ask of a join. -/
structure Join.Answerable (join : Join) : Prop where
  token : join.token.length = 32
  playerIds : ∀ id ∈ join.playerIds, id.length = 16
  address : ∃ address : Bytes, address.length = 4 ∧ join.address = dotted address

theorem answerable_of_parse {payload : Bytes} {join : Join}
    (h : parseSessionJoin payload = some join) (hipv4 : addressFamily payload ≠ 1) :
    join.Answerable := by
  unfold parseSessionJoin at h
  split at h
  · cases h
  · dsimp only at h
    split at h
    · cases h
    · next hlong =>
        rw [Option.bind_eq_bind, Option.bind_eq_some_iff] at h
        obtain ⟨⟨address, port, rest⟩, haddress, h⟩ := h
        dsimp only at h
        rw [Option.bind_eq_bind, Option.bind_eq_some_iff] at h
        obtain ⟨⟨names, playerIds⟩, hplayers, hmade⟩ := h
        cases hmade
        obtain ⟨hlength, htext⟩ := parseAddress_ipv4 haddress hipv4
        refine ⟨?_, (parsePlayers_spec hplayers).2.2, _, hlength, htext⟩
        rw [List.length_take, List.length_drop, List.length_drop]
        omega

theorem Join.Answerable.peerPlayer {join : Join} (h : join.Answerable) :
    join.peerPlayer.length = 16 := by
  unfold Join.peerPlayer
  cases hids : join.playerIds with
  | nil => rfl
  | cons id ids =>
    apply h.playerIds
    rw [hids]
    exact List.mem_cons_self

/-! ## The replies -/

/-- A player in an update: the id, and the first twenty bytes of the name in UTF-8. -/
def playerBytes (playerId : Bytes) (name : Text) : Bytes :=
  let encoded := (encode name).take 20
  playerId ++ toBytes 4 encoded.length ++ [1] ++ encoded

/-- A station in an update. -/
def stationBytes (constant : Bytes) (variableId : UInt16) (address : Bytes) (index : UInt8)
    (joinOrder : Nat) (token player : Bytes) : Bytes :=
  constant ++ toBytes 2 variableId.toNat ++ address ++ toBytes 2 stationPort ++ [index] ++
    toBytes 2 joinOrder ++ [0, 0] ++ token ++ [1, 1, 0, 0] ++ player

theorem sessionStation_eq {constant : Bytes} {variableId : UInt16} {ip : Text} {index : UInt8}
    {joinOrder : Nat} {token playerId address : Bytes} {name : Text} (htoken : token.length = 32)
    (hplayer : playerId.length = 16) (hip : ip4 ip = some address) :
    sessionStation constant variableId ip index joinOrder token playerId name =
      some (stationBytes constant variableId address index joinOrder token
        (playerBytes playerId name)) := by
  unfold sessionStation playerInfo
  rw [if_neg (by omega), hip, if_neg (by omega)]
  rfl

namespace HostConnectionManager

/-- The payload of the reply of type 2. -/
def responsePayload (host : HostConnectionManager) (join : Join) : Bytes :=
  [0x02, 0x0d, 0x07, 0x01, 0, 0, 0, 0] ++ host.random4 ++ ldnConstantId host.ourMac ++
    toBytes 2 host.ourVar.toNat ++ join.srcConstant ++ toBytes 2 join.srcVar.toNat ++
    [1, 0, 1, 0, 0]

/-- The payload of the reply of type 5: a header, the host's station and the guest's. -/
def updatePayload (host : HostConnectionManager) (join : Join) (address : Bytes) : Bytes :=
  [0x05, 0, 0, 0x01, 0, 0, 0x03] ++ ldnConstantId host.ourMac ++ toBytes 2 host.ourVar.toNat ++
    [0x02, 0, 0, 0x01] ++ List.replicate 6 0 ++
    stationBytes (ldnConstantId host.ourMac) host.ourVar host.ourIp.bytes 0 0 (List.replicate 32 0)
      (playerBytes host.playerId host.playerName) ++
    stationBytes join.srcConstant join.srcVar address 1 1 join.token
      (playerBytes join.peerPlayer join.peerName)

variable {host : HostConnectionManager} {join : Join}

theorem replies_eq (h : join.Answerable) {address : Bytes} (haddress : address.length = 4)
    (htext : join.address = dotted address) :
    host.replies join = some [host.responseEntry join (host.responsePayload join),
      host.updateEntry join (host.updatePayload join address)] := by
  have hne : address ≠ [] := by
    intro hnil
    rw [hnil] at haddress
    cases haddress
  have hresponse : buildSessionJoinResponse (ldnConstantId host.ourMac) host.ourVar
      join.srcConstant join.srcVar host.random4 = some (host.responsePayload join) := by
    unfold buildSessionJoinResponse
    rw [host.random4_length, if_neg (by omega)]
    rfl
  have hours : ip4 host.ourIp.1 = some host.ourIp.bytes := (Option.some_get host.ourIp.2).symm
  have hupdate : buildSessionUpdate (ldnConstantId host.ourMac) host.ourVar host.ourIp.1
      host.playerId host.playerName join.srcConstant join.srcVar join.address join.token
      join.peerPlayer join.peerName = some (host.updatePayload join address) := by
    unfold buildSessionUpdate
    rw [sessionStation_eq List.length_replicate host.playerId_length hours,
      sessionStation_eq h.token h.peerPlayer (by rw [htext]; exact ip4_dotted hne)]
    rfl
  unfold replies
  dsimp only
  rw [hresponse, hupdate]
  rfl

/-- The state after a join was taken over and answered. -/
structure Accepts (host next : HostConnectionManager) (join : Join) (address : Bytes) : Prop where
  identity : next = { host.accepted join with outbox := next.outbox }
  replies : next.outbox = host.outbox ++ [host.responseEntry join (host.responsePayload join),
    host.updateEntry join (host.updatePayload join address)]

/-- A join that carries an IPv4 address is answered; every other message is passed over, but for the
finalize after a join. -/
theorem onMessage_total (host : HostConnectionManager) (proto : Nat) (payload : Bytes)
    (hipv4 : (parseSessionJoin payload).isSome = true → addressFamily payload ≠ 1) :
    ∃ next, host.onMessage proto payload = .ok next ∧
      (next = host ∨
        (host.state = .joinReceived ∧ next = { host with state := .finalized }) ∨
        ∃ join address, parseSessionJoin payload = some join ∧ address.length = 4 ∧
          join.address = dotted address ∧ host.Accepts next join address) := by
  unfold onMessage
  by_cases hproto : proto = protoSession
  · rw [if_pos hproto]
    cases hjoin : parseSessionJoin payload with
    | none =>
      dsimp only
      split
      · next hfinal => exact ⟨_, rfl, .inr (.inl ⟨hfinal.2, rfl⟩)⟩
      · exact ⟨host, rfl, .inl rfl⟩
    | some join =>
      have hanswerable : join.Answerable := by
        apply answerable_of_parse hjoin
        apply hipv4
        rw [hjoin]
        rfl
      obtain ⟨address, haddress, htext⟩ := hanswerable.address
      dsimp only
      rw [replies_eq hanswerable haddress htext]
      exact ⟨_, rfl, .inr (.inr ⟨join, address, rfl, haddress, htext, rfl, rfl⟩)⟩
  · rw [if_neg hproto]
    exact ⟨host, rfl, .inl rfl⟩

end HostConnectionManager

/-- A host before any message. -/
def sampleHost : HostConnectionManager where
  ourMac := ⟨2, 0, 0, 0, 0, 1⟩
  ourIp := ⟨dotted [169, 254, 1, 1], by decide⟩
  ourVar := 0x7620
  playerName := "EMU".toList
  playerId := 0x10 :: List.replicate 15 0
  random4 := [1, 2, 3, 4]
  playerId_length := rfl
  random4_length := rfl

/-- A join with an address of a family and the players. -/
def sampleJoin (family : UInt8) (address players : Bytes) (count : UInt8) : Bytes :=
  [sessionJoinRequest, 1, 1, 0] ++ [0, 0x58] ++ [9, 9, 9, 9] ++ List.replicate 8 7 ++
    [0xc4, 0x93] ++ [0, 0] ++ List.replicate 32 5 ++ List.replicate 8 6 ++ [0x76, 0x20] ++
    [count, count] ++ [family] ++ address ++ [0x30, 0x39] ++ players

namespace HostConnectionManager

theorem onMessage_total_ipv4 : ∃ next join,
    sampleHost.onMessage protoSession (sampleJoin 0 [169, 254, 1, 2] [] 0) = .ok next ∧
      next.peer = some join ∧ next.state = .joinReceived ∧ next.outbox.length = 2 := by
  obtain ⟨next, hnext, hcases⟩ := onMessage_total sampleHost protoSession
    (sampleJoin 0 [169, 254, 1, 2] [] 0) (fun _ => by decide)
  have hpeer : ∃ next', sampleHost.onMessage protoSession (sampleJoin 0 [169, 254, 1, 2] [] 0) =
    .ok next' ∧ next'.peer.isSome = true := ⟨_, rfl, rfl⟩
  rcases hcases with heq | ⟨hstate, -⟩ | ⟨join, address, -, -, -, haccepts⟩
  · obtain ⟨next', hnext', hsome⟩ := hpeer
    rw [hnext] at hnext'
    cases hnext'
    rw [heq] at hsome
    cases hsome
  · cases hstate
  · refine ⟨next, join, hnext, ?_, ?_, ?_⟩
    · rw [haccepts.identity]
      rfl
    · rw [haccepts.identity]
      rfl
    · rw [haccepts.replies]
      rfl

/-- A name of 21 letters is not carried as it was parsed: both replies are queued, and neither
holds it. -/
theorem onMessage_not_as_parsed :
    ∃ next join, sampleHost.onMessage protoSession (sampleJoin 0 [169, 254, 1, 2]
        (List.replicate 16 3 ++ [0, 0, 0, 21, 1] ++ List.replicate 21 65) 1) = .ok next ∧
      next.peer = some join ∧ join.names = [List.replicate 21 'A'] ∧ next.outbox.length = 2 ∧
      ∀ e ∈ next.outbox, ¬encode (List.replicate 21 'A') <:+: e.payload := by
  refine ⟨_, _, rfl, rfl, rfl, rfl, ?_⟩
  decide +kernel

end HostConnectionManager

end SwitchTrade.Pia

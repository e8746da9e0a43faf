import SwitchTrade.Pia.Texts

/-!
# The messages of the connection layer

The Net, RTT and Session messages of `bridge/frlgsim/pia_connect.py`: what the joiner and the host
build, and what they read of each other's.
-/

namespace SwitchTrade.Pia

open BigEndian

/-- `PROTO_NET`. -/
def protoNet : Nat := 1

/-- `PROTO_RTT`. -/
def protoRtt : Nat := 3

/-- `PROTO_RELIABLE`. -/
def protoReliable : Nat := 10

/-- `PROTO_SESSION`. -/
def protoSession : Nat := 13

/-- `SESSION_VAR`. -/
def sessionVar : Nat := 0x0001

/-- `NET_CONN_REQUEST`. -/
def netConnRequest : UInt8 := 0x11

/-- `NET_CONN_RESPONSE`. -/
def netConnResponse : UInt8 := 0x12

/-- `NET_UPDATE_PROPERTY`. -/
def netUpdateProperty : UInt8 := 0x50

/-- `NET_UPDATE_PROPERTY_ACK`. -/
def netUpdatePropertyAck : UInt8 := 0x51

/-- `SESSION_JOIN_REQUEST`. -/
def sessionJoinRequest : UInt8 := 0

/-- `SESSION_UPDATE`. -/
def sessionUpdate : UInt8 := 5

/-- `SESSION_FINALIZE`. -/
def sessionFinalize : UInt8 := 6

/-- A MAC of six bytes. -/
structure Mac where
  m0 : UInt8
  m1 : UInt8
  m2 : UInt8
  m3 : UInt8
  m4 : UInt8
  m5 : UInt8
  deriving DecidableEq, Repr

/-- `ldn_constant_id`. -/
def ldnConstantId (mac : Mac) : Bytes := [mac.m2, mac.m4, mac.m5, mac.m3, mac.m1, mac.m0, 0, 0]

/-- An entry of an outbox. -/
structure Entry where
  proto : Nat
  payload : Bytes
  dst : Nat
  src : Nat
  compress : Bool
  footer : Bool
  establishing : Bool
  unicast : Bool
  pktid : Option Nat
  footerVar : Option Nat
  deriving DecidableEq, Repr

/-- `bytes[:n].ljust(n, b"\x00")`. -/
def ljust (n : Nat) (bytes : Bytes) : Bytes :=
  bytes.take n ++ List.replicate (n - bytes.length) 0

/-! ## Net -/

/-- `parse_net`: version, type and body. -/
def parseNet (payload : Bytes) : Option (UInt8 × UInt8 × Bytes) :=
  if payload.length < 4 then none
  else some (payload.getD 0 0, payload.getD 1 0, payload.drop 4)

/-- `build_net_response`. -/
def buildNetResponse (seqid : Nat) : Bytes := [0x01, netConnResponse, 0, 0] ++ toBytes 4 seqid

/-- `build_net_property_ack`. -/
def buildNetPropertyAck (seqid : Nat) : Bytes :=
  [0x01, netUpdatePropertyAck, 0, 0] ++ toBytes 4 seqid

/-- `parse_net_conn_request`: variable id, MAC and sequence id of the host. -/
def parseNetConnRequest (payload : Bytes) : Option (UInt16 × Bytes × Nat) :=
  match parseNet payload with
  | none => none
  | some (_, type, body) =>
    if type ≠ netConnRequest ∨ body.length < 12 then none
    else
      some (UInt16.ofNat (ofBytes ((body.drop 4).take 2)), (body.drop 6).take 6,
        ofBytes (body.take 4))

/-! ## RTT -/

/-- `parse_rtt`: the type and the system time. -/
def parseRtt (payload : Bytes) : Option (UInt8 × Bytes) :=
  if payload.length < 16 then none else some (payload.getD 0 0, (payload.drop 8).take 8)

/-- `build_rtt_response`. -/
def buildRttResponse (request : Bytes) : Bytes := (ljust 21 request).set 0 1

/-- `n.to_bytes(8, "little")` of the low 64 bits. -/
def littleEndian8 (n : Nat) : Bytes := (toBytes 8 n).reverse

/-- `build_rtt_request`. -/
def buildRttRequest (template : Bytes) (systime : Nat) : Bytes :=
  let b := (ljust 21 template).set 0 0
  b.take 8 ++ littleEndian8 systime ++ b.drop 16

/-! ## Session -/

/-- `DEFAULT_PROTOCOLS`. -/
def defaultProtocols : List (UInt8 × UInt8) := [(1, 0), (3, 5), (5, 1), (10, 3), (13, 7), (15, 0)]

/-- `DEFAULT_APP_VER`. -/
def defaultAppVer : Bytes := [0x00, 0x58]

/-- `DEFAULT_PLAYER_ID`. -/
def defaultPlayerId : Bytes := [0, 0, 0, 0, 0, 0, 0, 1, 0, 0, 0, 0, 0, 0, 0, 0]

/-- The port of a station address. -/
def stationPort : Nat := 12345

/-- `build_session_join` with the default version, protocols, player id and port. -/
def buildSessionJoin (srcMac : Bytes) (srcVar : UInt16) (srcIp dstMac : Bytes) (dstVar : UInt16)
    (playerName : Text) (random4 : Bytes) : Bytes :=
  let name := (encode playerName).take 20
  [sessionJoinRequest, UInt8.ofNat defaultProtocols.length] ++
    defaultProtocols.flatMap (fun p => [p.1, p.2]) ++ defaultAppVer ++ random4 ++
    (srcMac ++ [0, 0]) ++ toBytes 2 srcVar.toNat ++ [0, 0] ++ List.replicate 32 0 ++
    (dstMac ++ [0, 0]) ++ toBytes 2 dstVar.toNat ++ [1, 1] ++
    ([0] ++ srcIp ++ toBytes 2 stationPort) ++
    (defaultPlayerId ++ toBytes 4 name.length ++ [1] ++ name)

/-- `_player_info`; a player id that is not of 16 bytes raises. -/
def playerInfo (playerId : Bytes) (name : Text) : Option Bytes :=
  if playerId.length ≠ 16 then none
  else
    let encoded := (encode name).take 20
    some (playerId ++ toBytes 4 encoded.length ++ [1] ++ encoded)

/-- `build_session_join_response`; a nonce that is not of four bytes raises. -/
def buildSessionJoinResponse (hostConstant : Bytes) (hostVar : UInt16) (peerConstant : Bytes)
    (peerVar : UInt16) (random4 : Bytes) : Option Bytes :=
  if random4.length ≠ 4 then none
  else
    some ([0x02, 0x0d, 0x07, 0x01, 0, 0, 0, 0] ++ random4 ++ hostConstant ++
      toBytes 2 hostVar.toNat ++ peerConstant ++ toBytes 2 peerVar.toNat ++ [1, 0, 1, 0, 0])

/-- `_session_station`; a token that is not of 32 bytes raises, and so do `_ip4` and
`_player_info`. -/
def sessionStation (constant : Bytes) (variableId : UInt16) (ip : Text) (index : UInt8)
    (joinOrder : Nat) (token playerId : Bytes) (playerName : Text) : Option Bytes :=
  if token.length ≠ 32 then none
  else do
    let address ← ip4 ip
    let info ← playerInfo playerId playerName
    return constant ++ toBytes 2 variableId.toNat ++ address ++ toBytes 2 stationPort ++ [index] ++
      toBytes 2 joinOrder ++ [0, 0] ++ token ++ [1, 1, 0, 0] ++ info

/-- `build_session_update`. -/
def buildSessionUpdate (hostConstant : Bytes) (hostVar : UInt16) (hostIp : Text)
    (hostPlayerId : Bytes) (hostName : Text) (peerConstant : Bytes) (peerVar : UInt16)
    (peerIp : Text) (peerToken peerPlayerId : Bytes) (peerName : Text) : Option Bytes := do
  let header := [0x05, 0, 0, 0x01, 0, 0, 0x03] ++ hostConstant ++ toBytes 2 hostVar.toNat ++
    [0x02, 0, 0, 0x01] ++ List.replicate 6 0
  let host ← sessionStation hostConstant hostVar hostIp 0 0 (List.replicate 32 0) hostPlayerId
    hostName
  let peer ← sessionStation peerConstant peerVar peerIp 1 1 peerToken peerPlayerId peerName
  return header ++ host ++ peer

/-- `build_session_finalize`. -/
def buildSessionFinalize (ourMac : Mac) : Bytes :=
  [sessionFinalize] ++ ldnConstantId ourMac ++ List.replicate 5 0 ++ [1]

/-- `parse_session`, in so far as it is used: the type. -/
def parseSession (payload : Bytes) : Option UInt8 := payload.head?

/-- What `parse_session_join` returns. -/
structure Join where
  protocols : List (UInt8 × UInt8)
  appVer : Nat
  random4 : Bytes
  srcConstant : Bytes
  srcVar : UInt16
  natMapping : UInt8
  privateIpv6 : UInt8
  token : Bytes
  dstConstant : Bytes
  dstVar : UInt16
  players : UInt8
  participants : UInt8
  address : Text
  port : Nat
  names : List Text
  playerIds : List Bytes
  deriving DecidableEq, Repr

/-- The pairs of the protocol list. -/
def parsePairs : Bytes → List (UInt8 × UInt8)
  | pid :: version :: rest => (pid, version) :: parsePairs rest
  | _ => []

/-- The loop over the players; the names and the player ids. -/
def parsePlayers : Nat → Bytes → Option (List Text × List Bytes)
  | 0, _ => some ([], [])
  | players + 1, data =>
    if data.length < 21 then none
    else
      let nameSize := ofBytes ((data.drop 16).take 4)
      let encoding := data.getD 20 0
      let rest := data.drop 21
      if rest.length < nameSize then none
      else do
        let rawName := rest.take nameSize
        let name := if encoding = 2 then decodeUtf16 rawName else decodeUtf8 rawName
        let (names, playerIds) ← parsePlayers players (rest.drop nameSize)
        return (name :: names, data.take 16 :: playerIds)

/-- The address and the port of a join, and the bytes after them. -/
def parseAddress (family : UInt8) (data : Bytes) : Option (Text × Nat × Bytes) :=
  let size := if family = 0 then 4 else if family = 1 then 16 else 0
  if size = 0 ∨ data.length < size + 2 then none
  else
    let address := data.take size
    some (if family = 0 then dotted address else hexText address,
      ofBytes ((data.drop size).take 2), data.drop (size + 2))

/-- `parse_session_join`. -/
def parseSessionJoin (payload : Bytes) : Option Join :=
  if payload.length < 2 ∨ payload.getD 0 0 ≠ sessionJoinRequest then none
  else
    let nproto := (payload.getD 1 0).toNat
    if payload.length < 2 + 2 * nproto + 2 + 4 + 8 + 2 + 2 + 32 + 8 + 2 + 2 + 1 then none
    else do
      let protocols := (payload.drop 2).take (2 * nproto)
      let fixed := payload.drop (2 + 2 * nproto)
      let (address, port, rest) ← parseAddress (fixed.getD 62 0) (fixed.drop 63)
      let players := fixed.getD 60 0
      let (names, playerIds) ← parsePlayers players.toNat rest
      return {
        protocols := parsePairs protocols
        appVer := ofBytes (fixed.take 2)
        random4 := (fixed.drop 2).take 4
        srcConstant := (fixed.drop 6).take 8
        srcVar := UInt16.ofNat (ofBytes ((fixed.drop 14).take 2))
        natMapping := fixed.getD 16 0
        privateIpv6 := fixed.getD 17 0
        token := (fixed.drop 18).take 32
        dstConstant := (fixed.drop 50).take 8
        dstVar := UInt16.ofNat (ofBytes ((fixed.drop 58).take 2))
        players := players
        participants := fixed.getD 61 0
        address, port, names, playerIds }

end SwitchTrade.Pia

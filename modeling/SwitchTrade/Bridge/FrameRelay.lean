import SwitchTrade.Bridge.RateLimit
import SwitchTrade.Transition.BigEndian
import SwitchTrade.Transition.Window

/-!
# The frame relay bridge

`framerelay/bridge.py` over `framerelay/radio.py` and `common/mwlb.py`. A frame is the bytes of one
802.11 frame without its radiotap header. The hash of a frame is a parameter. A radio keeps the
record of what it was asked to send, with the time and with how the call ended, because that is all
the air knows of the bridge.
-/

namespace SwitchTrade.Bridge

abbrev AirFrame := List UInt8

/-! ## The 802.11 header -/

def typeManagement : Nat := 0

def subtypeBeacon : Nat := 8

/-- `Dot11`. -/
structure Dot11 where
  type : Nat
  subtype : Nat
  toDs : Bool
  fromDs : Bool
  addr1 : List UInt8
  addr2 : Option (List UInt8)
  addr3 : Option (List UInt8)
  deriving DecidableEq, Repr

/-- `frame[start:stop]`. -/
def slice (frame : AirFrame) (start stop : Nat) : List UInt8 := (frame.take stop).drop start

/-- `parse_80211`. -/
def parse80211 (frame : AirFrame) : Option Dot11 :=
  match frame with
  | first :: second :: _ =>
    if frame.length < 10 then none
    else
      let fc := first.toNat ||| (second.toNat <<< 8)
      some {
        type := (fc >>> 2) &&& 0x3
        subtype := (fc >>> 4) &&& 0xF
        toDs := second.toNat &&& 0x01 ≠ 0
        fromDs := second.toNat &&& 0x02 ≠ 0
        addr1 := slice frame 4 10
        addr2 := if 16 ≤ frame.length then some (slice frame 10 16) else none
        addr3 := if 22 ≤ frame.length then some (slice frame 16 22) else none }
  | _ => none

/-- `is_beacon`. -/
def isBeacon (info : Option Dot11) : Bool :=
  match info with
  | none => false
  | some info => info.type == typeManagement && info.subtype == subtypeBeacon

/-- `matches_host`. -/
def matchesHost (info : Option Dot11) (hostMac : Option (List UInt8)) : Bool :=
  match info, hostMac with
  | some info, some hostMac => [some info.addr1, info.addr2, info.addr3].any (· == some hostMac)
  | _, _ => false

/-! ## The framing of the relay -/

def mwlbMagic : List UInt8 := [0x4D, 0x57, 0x4C, 0x42]

def msgHeartbeat : UInt8 := 0x04

def msgFrameRelay : UInt8 := 0x20

def headerLen : Nat := 7

def maxPayload : Nat := 0xFFFF

/-- `build_frame`; none where it raises. -/
def buildFrame (msgType : UInt8) (payload : List UInt8) : Option (List UInt8) :=
  if maxPayload < payload.length then none
  else some (mwlbMagic ++ [msgType] ++ BigEndian.toBytes 2 payload.length ++ payload)

/-- `parse_frame`. -/
def parseFrame (data : List UInt8) : Option (UInt8 × List UInt8) :=
  match data with
  | m0 :: m1 :: m2 :: m3 :: msgType :: l0 :: l1 :: rest =>
    if [m0, m1, m2, m3] ≠ mwlbMagic then none
    else
      let length := BigEndian.ofBytes [l0, l1]
      if data.length - headerLen < length then none else some (msgType, rest.take length)
  | _ => none

/-- What was framed is what is parsed. -/
theorem parseFrame_buildFrame {msgType : UInt8} {payload data : List UInt8}
    (h : buildFrame msgType payload = some data) : parseFrame data = some (msgType, payload) := by
  unfold buildFrame at h
  by_cases hlong : maxPayload < payload.length
  · rw [if_pos hlong] at h
    cases h
  · rw [if_neg hlong, Option.some.injEq] at h
    have hlt : payload.length < 256 ^ 2 := by
      unfold maxPayload at hlong
      omega
    have hlen := BigEndian.length_toBytes 2 payload.length
    have hback := BigEndian.ofBytes_toBytes hlt
    match hbytes : BigEndian.toBytes 2 payload.length with
    | [l0, l1] =>
      rw [hbytes] at h hback
      subst h
      simp [parseFrame, mwlbMagic, hback, headerLen]
    | [] => simp [hbytes] at hlen
    | [_] => simp [hbytes] at hlen
    | _ :: _ :: _ :: _ => simp [hbytes] at hlen

/-! ## The radio -/

/-- How a call of the socket's `sendto` ends. -/
inductive SendEnd
  | sent
  | osError
  | raised
  deriving DecidableEq, Repr

/-- One call of `MonitorRadio.send`. -/
structure Handed where
  frame : AirFrame
  time : ℚ
  ending : SendEnd
  deriving DecidableEq, Repr

/-- `MonitorRadio`. -/
structure MonitorRadio where
  hostMac : Option (List UInt8)
  handed : List Handed
  deriving DecidableEq, Repr

/-- `MonitorRadio.send`. -/
def MonitorRadio.send (radio : MonitorRadio) (now : ℚ) (frame : AirFrame) (ending : SendEnd) :
    MonitorRadio :=
  { radio with handed := radio.handed ++ [⟨frame, now, ending⟩] }

/-- `MonitorRadio.accepts`. -/
def MonitorRadio.accepts (radio : MonitorRadio) (frame : AirFrame) : Bool :=
  match radio.hostMac with
  | none => true
  | some hostMac => matchesHost (parse80211 frame) (some hostMac)

/-! ## The beacon cache -/

def beaconTtl : ℚ := 3 / 2

/-- `BeaconCache`: the hash, the frame and when it came, oldest first. -/
structure BeaconCache (D : Type*) where
  capacity : Nat
  ttl : ℚ
  frames : List (D × AirFrame × ℚ)
  length_le : frames.length ≤ capacity

namespace BeaconCache

variable {D : Type*} [DecidableEq D]

omit [DecidableEq D] in
def new : BeaconCache D where
  capacity := 4
  ttl := beaconTtl
  frames := []
  length_le := Nat.zero_le _

/-- `BeaconCache.add`; while there are too many, the oldest is popped. -/
def add (self : BeaconCache D) (sha1 : AirFrame → D) (now : ℚ) (frame : AirFrame) : BeaconCache D :=
  let frames := self.frames.filter (fun e => e.1 ≠ sha1 frame) ++ [(sha1 frame, frame, now)]
  { self with
    frames := frames.drop (frames.length - self.capacity)
    length_le := by
      rw [List.length_drop]
      omega }

omit [DecidableEq D] in
/-- The pruning at the head of `BeaconCache.snapshot`. -/
def fresh (self : BeaconCache D) (now : ℚ) : BeaconCache D where
  capacity := self.capacity
  ttl := self.ttl
  frames := self.frames.filter fun e => decide (now - e.2.2 ≤ self.ttl)
  length_le := le_trans (List.length_filter_le _ _) self.length_le

omit [DecidableEq D] in
/-- `BeaconCache.snapshot`. -/
def snapshot (self : BeaconCache D) (now : ℚ) : List AirFrame × BeaconCache D :=
  ((self.fresh now).frames.map (·.2.1), self.fresh now)

end BeaconCache

/-! ## The echo guard -/

def echoWindow : ℚ := 2

/-- `EchoGuard`. -/
structure EchoGuard (D : Type*) where
  window : ℚ
  seen : Dict D ℚ

namespace EchoGuard

variable {D : Type*} [DecidableEq D]

omit [DecidableEq D] in
def new : EchoGuard D := ⟨echoWindow, Dict.empty⟩

omit [DecidableEq D] in
/-- `EchoGuard._prune_locked`. -/
def pruneLocked (self : EchoGuard D) (now : ℚ) : EchoGuard D :=
  { self with seen := Window.prune self.window now self.seen }

/-- `EchoGuard.record`. -/
def record (self : EchoGuard D) (sha1 : AirFrame → D) (now : ℚ) (frame : AirFrame) : EchoGuard D :=
  let pruned := self.pruneLocked now
  { pruned with seen := pruned.seen.set (sha1 frame) now }

/-- `EchoGuard.duplicate`. -/
def duplicate (self : EchoGuard D) (sha1 : AirFrame → D) (now : ℚ) (frame : AirFrame) :
    Bool × EchoGuard D :=
  let pruned := self.pruneLocked now
  (Window.found pruned.window now (sha1 frame) pruned.seen, pruned)

end EchoGuard

/-! ## The bridge -/

def outboxMaxsize : Nat := 200

/-- `RelayBridge.stats`. -/
structure BridgeStats where
  captured : Nat
  relayedOut : Nat
  injected : Nat
  droppedFilter : Nat
  droppedEcho : Nat
  droppedBacklog : Nat
  droppedRate : Nat
  deriving DecidableEq, Repr

/-- The data plane of `RelayBridge`. -/
structure RelayBridge (D : Type*) where
  radio : MonitorRadio
  beaconCache : BeaconCache D
  echoGuard : EchoGuard D
  rateLimiter : TokenBucket
  stats : BridgeStats
  outbox : List (List UInt8)

namespace RelayBridge

variable {D : Type*} [DecidableEq D]

omit [DecidableEq D] in
/-- `RelayBridge.__init__`. -/
def new (hostMac : Option (List UInt8)) (rateLimiter : TokenBucket) : RelayBridge D where
  radio := ⟨hostMac, []⟩
  beaconCache := BeaconCache.new
  echoGuard := EchoGuard.new
  rateLimiter := rateLimiter
  stats := ⟨0, 0, 0, 0, 0, 0, 0⟩
  outbox := []

omit [DecidableEq D] in
/-- `put_nowait` into the outbox; when it is full, the oldest goes and is counted. -/
def enqueue (self : RelayBridge D) (data : List UInt8) : RelayBridge D :=
  if self.outbox.length < outboxMaxsize then { self with outbox := self.outbox ++ [data] }
  else
    { self with
      stats := { self.stats with droppedBacklog := self.stats.droppedBacklog + 1 }
      outbox := self.outbox.tail ++ [data] }

/-- `on_radio_capture`; none where it raises. -/
def onRadioCapture (self : RelayBridge D) (sha1 : AirFrame → D) (now : ℚ) (frame : AirFrame) :
    Option Bool × RelayBridge D :=
  let counted := { self with stats := { self.stats with captured := self.stats.captured + 1 } }
  if !counted.radio.accepts frame then
    (some false, { counted with
      stats := { counted.stats with droppedFilter := counted.stats.droppedFilter + 1 } })
  else
    let looked := counted.echoGuard.duplicate sha1 now frame
    let guarded := { counted with echoGuard := looked.2 }
    if looked.1 then
      (some false, { guarded with
        stats := { guarded.stats with droppedEcho := guarded.stats.droppedEcho + 1 } })
    else
      let drawn := guarded.rateLimiter.allow now frame.length
      let limited := { guarded with rateLimiter := drawn.2 }
      if !drawn.1 then
        (some false, { limited with
          stats := { limited.stats with droppedRate := limited.stats.droppedRate + 1 } })
      else
        let cached := if isBeacon (parse80211 frame) then
          { limited with beaconCache := limited.beaconCache.add sha1 now frame } else limited
        match buildFrame msgFrameRelay frame with
        | none => (none, cached)
        | some data =>
          let queued := cached.enqueue data
          (some true, { queued with
            stats := { queued.stats with relayedOut := queued.stats.relayedOut + 1 } })

/-- `on_ws_message`; none where it raises. -/
def onWsMessage (self : RelayBridge D) (sha1 : AirFrame → D) (now : ℚ) (data : List UInt8)
    (ending : SendEnd) : Option Bool × RelayBridge D :=
  match parseFrame data with
  | none => (some false, self)
  | some (msgType, payload) =>
    if msgType = msgHeartbeat then (some true, self)
    else if msgType ≠ msgFrameRelay then (some false, self)
    else
      let drawn := self.rateLimiter.allow now payload.length
      let limited := { self with rateLimiter := drawn.2 }
      if !drawn.1 then
        (some false, { limited with
          stats := { limited.stats with droppedRate := limited.stats.droppedRate + 1 } })
      else
        let marked := { limited with
          -- the frame is marked before the air copy can echo back
          echoGuard := limited.echoGuard.record sha1 now payload }
        let cached := if isBeacon (parse80211 payload) then
          { marked with beaconCache := marked.beaconCache.add sha1 now payload } else marked
        let handed := { cached with radio := cached.radio.send now payload ending }
        match ending with
        | .osError => (some false, handed)
        | .raised => (none, handed)
        | .sent => (some true, { handed with
            stats := { handed.stats with injected := handed.stats.injected + 1 } })

/-- `_inject_guarded`; what `send` raises goes on to the replayer. -/
def injectGuarded (self : RelayBridge D) (sha1 : AirFrame → D) (now : ℚ) (frame : AirFrame)
    (ending : SendEnd) : Bool × RelayBridge D :=
  let marked := { self with echoGuard := self.echoGuard.record sha1 now frame }
  (ending = .sent, { marked with radio := marked.radio.send now frame ending })

/-! ## What the three entries do to the radio, the guard and the outbox -/

variable {self : RelayBridge D} {sha1 : AirFrame → D} {now : ℚ} {frame : AirFrame}
  {data queued : List UInt8} {ending : SendEnd}

omit [DecidableEq D] in
@[simp] theorem enqueue_radio : (self.enqueue data).radio = self.radio := by
  unfold enqueue
  split <;> rfl

omit [DecidableEq D] in
@[simp] theorem enqueue_echoGuard : (self.enqueue data).echoGuard = self.echoGuard := by
  unfold enqueue
  split <;> rfl

omit [DecidableEq D] in
@[simp] theorem enqueue_droppedEcho :
    (self.enqueue data).stats.droppedEcho = self.stats.droppedEcho := by
  unfold enqueue
  split <;> rfl

omit [DecidableEq D] in
theorem mem_enqueue (h : queued ∈ (self.enqueue data).outbox) :
    queued ∈ self.outbox ∨ queued = data := by
  unfold enqueue at h
  by_cases hroom : self.outbox.length < outboxMaxsize
  · rw [if_pos hroom] at h
    exact (List.mem_append.mp h).imp_right List.mem_singleton.mp
  · rw [if_neg hroom] at h
    rcases List.mem_append.mp h with h | h
    · exact .inl (List.mem_of_mem_tail h)
    · exact .inr (List.mem_singleton.mp h)

/-- What a capture leaves of the bridge: the radio, a guard that was at most pruned, and an outbox
with at most the frame in it that is new. -/
structure Captured (bridge : RelayBridge D) (sha1 : AirFrame → D) (now : ℚ) (frame : AirFrame)
    (result : Option Bool × RelayBridge D) : Prop where
  radio : result.2.radio = bridge.radio
  echoGuard : result.2.echoGuard = bridge.echoGuard ∨
    result.2.echoGuard = bridge.echoGuard.pruneLocked now
  relayed : result.1 = some true → bridge.radio.accepts frame = true ∧
    (bridge.echoGuard.duplicate sha1 now frame).1 = false
  outbox : ∀ queued ∈ result.2.outbox, queued ∈ bridge.outbox ∨
    (result.1 = some true ∧ buildFrame msgFrameRelay frame = some queued)
  droppedEcho : bridge.radio.accepts frame = true →
    (result.2.stats.droppedEcho = bridge.stats.droppedEcho + 1 ↔
      (bridge.echoGuard.duplicate sha1 now frame).1 = true)

/-- A frame that the guard lets through: what becomes of it changes no counter of echoes. -/
theorem Captured.of_new {result : Option Bool × RelayBridge D}
    (haccepts : self.radio.accepts frame = true)
    (hnew : (self.echoGuard.duplicate sha1 now frame).1 = false)
    (hradio : result.2.radio = self.radio)
    (hguard : result.2.echoGuard = self.echoGuard.pruneLocked now)
    (hecho : result.2.stats.droppedEcho = self.stats.droppedEcho)
    (houtbox : ∀ queued ∈ result.2.outbox, queued ∈ self.outbox ∨
      (result.1 = some true ∧ buildFrame msgFrameRelay frame = some queued)) :
    Captured self sha1 now frame result where
  radio := hradio
  echoGuard := .inr hguard
  relayed := by
    intro _
    exact ⟨haccepts, hnew⟩
  outbox := houtbox
  droppedEcho := by
    intro _
    rw [hecho, hnew]
    exact iff_of_false (by omega) Bool.false_ne_true

theorem onRadioCapture_captured (self : RelayBridge D) (sha1 : AirFrame → D) (now : ℚ)
    (frame : AirFrame) : Captured self sha1 now frame (self.onRadioCapture sha1 now frame) := by
  unfold onRadioCapture
  by_cases haccepts : self.radio.accepts frame = true
  · cases hdup : (self.echoGuard.duplicate sha1 now frame).1 with
    | true =>
      simp only [haccepts, hdup, Bool.not_true, Bool.false_eq_true, if_false, if_true]
      constructor
      · rfl
      · exact .inr rfl
      · intro h
        cases h
      · intro queued h
        exact .inl h
      · intro _
        exact iff_of_true rfl hdup
    | false =>
      simp only [haccepts, hdup, Bool.not_true, Bool.false_eq_true, if_false]
      cases hallow : (self.rateLimiter.allow now frame.length).1 with
      | false =>
        simp only [Bool.not_false, if_true]
        apply Captured.of_new haccepts hdup rfl rfl rfl
        intro queued h
        exact .inl h
      | true =>
        simp only [Bool.not_true, Bool.false_eq_true, if_false]
        -- a beacon changes the cache, which none of the facts speaks of
        generalize hcached : (if isBeacon (parse80211 frame) = true then _ else _) = cached
        have hradio : cached.radio = self.radio := by
          rw [← hcached]
          split <;> rfl
        have hguard : cached.echoGuard = self.echoGuard.pruneLocked now := by
          rw [← hcached]
          split <;> rfl
        have hecho : cached.stats.droppedEcho = self.stats.droppedEcho := by
          rw [← hcached]
          split <;> rfl
        have houtbox : cached.outbox = self.outbox := by
          rw [← hcached]
          split <;> rfl
        cases hbuild : buildFrame msgFrameRelay frame with
        | none =>
          apply Captured.of_new haccepts hdup hradio hguard hecho
          intro queued h
          exact .inl (houtbox ▸ h)
        | some data =>
          apply Captured.of_new haccepts hdup (enqueue_radio.trans hradio)
            (enqueue_echoGuard.trans hguard) (enqueue_droppedEcho.trans hecho)
          intro queued h
          rcases mem_enqueue h with h | rfl
          · exact .inl (houtbox ▸ h)
          · exact .inr ⟨rfl, hbuild⟩
  · simp only [haccepts, Bool.not_false, if_true]
    constructor
    · rfl
    · exact .inl rfl
    · intro h
      cases h
    · intro queued h
      exact .inl h
    · intro h
      exact absurd h haccepts

/-- A message is passed over, or its frame is marked and handed to the radio. -/
theorem onWsMessage_cases (self : RelayBridge D) (sha1 : AirFrame → D) (now : ℚ)
    (data : List UInt8) (ending : SendEnd) :
    ((self.onWsMessage sha1 now data ending).2.radio = self.radio ∧
      (self.onWsMessage sha1 now data ending).2.echoGuard = self.echoGuard) ∨
    ∃ payload, parseFrame data = some (msgFrameRelay, payload) ∧
      (self.onWsMessage sha1 now data ending).2.radio = self.radio.send now payload ending ∧
      (self.onWsMessage sha1 now data ending).2.echoGuard =
        self.echoGuard.record sha1 now payload := by
  unfold onWsMessage
  cases hparse : parseFrame data with
  | none => exact .inl ⟨rfl, rfl⟩
  | some parsed =>
    obtain ⟨msgType, payload⟩ := parsed
    by_cases hbeat : msgType = msgHeartbeat
    · simp [hbeat]
    · by_cases hrelay : msgType = msgFrameRelay
      · subst hrelay
        cases hallow : (self.rateLimiter.allow now payload.length).1 with
        | false => simp [hbeat, hallow]
        | true =>
          right
          refine ⟨payload, rfl, ?_⟩
          simp only [hbeat, hallow, if_false, ne_eq, not_true_eq_false, Bool.not_true,
            Bool.false_eq_true]
          by_cases hbeacon : isBeacon (parse80211 payload) = true
          · cases ending <;> simp [hbeacon]
          · cases ending <;> simp [hbeacon]
      · simp [hbeat, hrelay]

end RelayBridge

end SwitchTrade.Bridge

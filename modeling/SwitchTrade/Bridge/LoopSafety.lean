import SwitchTrade.Bridge.FrameRelay
import SwitchTrade.Transition.Run
import Mathlib.Logic.Function.Basic

/-!
# Two relay bridges and the relay between them

Each bridge has a radio cell of its own. Its three threads take turns: the radio loop takes
captures, the websocket loop flushes the outbox and takes messages, and the replayer goes through a
snapshot of the beacon cache frame by frame. The relay keeps the order of the messages it hands on
and may lose some. The clock never goes back.

What the world is told of a capture is where it came from: the Switch of the cell, or an injection
of the bridge that its own socket hears. Against that and against what the relay delivered, the
guard is right or wrong.
-/

namespace SwitchTrade.Bridge

inductive Cell
  | host
  | guest
  deriving DecidableEq, Repr

def Cell.peer : Cell → Cell
  | host => guest
  | guest => host

/-- Who transmitted a captured frame: the cell's Switch, or the bridge at that time. -/
inductive Origin
  | switch
  | echo (injected : ℚ)
  deriving DecidableEq, Repr

/-- A bridge with what its replayer still has to inject and what the relay still has for it.
`arrivals` and `relayed` are for the record. -/
structure Side (D : Type*) where
  bridge : RelayBridge D
  replays : List AirFrame
  incoming : List (List UInt8)
  arrivals : List (AirFrame × ℚ)
  relayed : List (AirFrame × Origin)

structure World (D : Type*) where
  now : ℚ
  side : Cell → Side D

variable {D : Type*} [DecidableEq D]

namespace Side

omit [DecidableEq D] in
def new (hostMac : Option (List UInt8)) (rateLimiter : TokenBucket) : Side D :=
  ⟨RelayBridge.new hostMac rateLimiter, [], [], [], []⟩

variable (side : Side D) (sha1 : AirFrame → D) (now : ℚ)

omit [DecidableEq D] in
/-- The socket hears what the radio put on the air. -/
def hears (frame : AirFrame) : Origin → Bool
  | .switch => true
  | .echo injected => side.bridge.radio.handed.any (· == ⟨frame, injected, .sent⟩)

def capture (frame : AirFrame) (origin : Origin) : Side D :=
  let result := side.bridge.onRadioCapture sha1 now frame
  { side with
    bridge := result.2
    relayed := if result.1 = some true then side.relayed ++ [(frame, origin)] else side.relayed }

/-- The frame a message carries, if it is one that carries a frame. -/
def carried (data : List UInt8) : Option AirFrame :=
  match parseFrame data with
  | none => none
  | some (msgType, payload) => if msgType = msgFrameRelay then some payload else none

def deliver (ending : SendEnd) : Option (Side D) :=
  match side.incoming with
  | [] => none
  | data :: rest =>
    some { side with
      bridge := (side.bridge.onWsMessage sha1 now data ending).2
      incoming := rest
      arrivals := side.arrivals ++ ((carried data).map (·, now)).toList }

omit [DecidableEq D] in
def snapshot : Option (Side D) :=
  if side.replays = [] then
    let taken := side.bridge.beaconCache.snapshot now
    some { side with
      bridge := { side.bridge with beaconCache := taken.2 }
      replays := taken.1 }
  else none

/-- What the sender raises ends the replayer's round. -/
def replay (ending : SendEnd) : Option (Side D) :=
  match side.replays with
  | [] => none
  | frame :: rest =>
    let result := side.bridge.injectGuarded sha1 now frame ending
    some { side with
      bridge := result.2
      replays := if result.1 then rest else [] }

end Side

namespace World

inductive Act
  | tick (later : ℚ)
  | capture (cell : Cell) (frame : AirFrame) (origin : Origin)
  | flush (cell : Cell)
  | heartbeat (cell : Cell) (ts : Nat)
  | lose (cell : Cell)
  | deliver (cell : Cell) (ending : SendEnd)
  | snapshot (cell : Cell)
  | replay (cell : Cell) (ending : SendEnd)
  deriving DecidableEq, Repr

omit [DecidableEq D] in
def put (w : World D) (cell : Cell) (side : Side D) : World D :=
  { w with side := Function.update w.side cell side }

omit [DecidableEq D] in
/-- A message from the cell's bridge, at the end of what the relay has for the other one. -/
def send (w : World D) (cell : Cell) (data : List UInt8) : World D :=
  w.put cell.peer { w.side cell.peer with incoming := (w.side cell.peer).incoming ++ [data] }

variable (sha1 : AirFrame → D)

def step (w : World D) : Act → Option (World D)
  | .tick later => if w.now ≤ later then some { w with now := later } else none
  | .capture cell frame origin =>
    if (w.side cell).hears frame origin then
      some (w.put cell ((w.side cell).capture sha1 w.now frame origin))
    else none
  | .flush cell =>
    match (w.side cell).bridge.outbox with
    | [] => none
    | data :: rest =>
      let flushed := { w.side cell with bridge := { (w.side cell).bridge with outbox := rest } }
      some ((w.put cell flushed).send cell data)
  | .heartbeat cell ts =>
    (buildFrame msgHeartbeat (BigEndian.toBytes 4 ts)).map (w.send cell)
  | .lose cell =>
    some (w.put cell { w.side cell with incoming := (w.side cell).incoming.tail })
  | .deliver cell ending => ((w.side cell).deliver sha1 w.now ending).map (w.put cell)
  | .snapshot cell => ((w.side cell).snapshot w.now).map (w.put cell)
  | .replay cell ending => ((w.side cell).replay sha1 w.now ending).map (w.put cell)

omit [DecidableEq D] in
/-- Two new bridges, nothing under way. -/
def init (w : World D) : Prop :=
  ∀ cell, ∃ hostMac rateLimiter, w.side cell = Side.new hostMac rateLimiter

def system : Transition.System (World D) Act := Transition.System.ofStep init (step sha1)

omit [DecidableEq D] in
/-- Whatever echo is captured is captured within the window of its injection. -/
def EchoesInTime (w : World D) : Act → Prop
  | .capture _ _ (.echo injected) => w.now - injected ≤ echoWindow
  | _ => True

instance : ∀ (w : World D) (act : Act), Decidable (EchoesInTime w act)
  | w, .capture _ _ (.echo injected) => inferInstanceAs (Decidable (w.now - injected ≤ echoWindow))
  | _, .capture _ _ .switch => .isTrue trivial
  | _, .tick _ => .isTrue trivial
  | _, .flush _ => .isTrue trivial
  | _, .heartbeat _ _ => .isTrue trivial
  | _, .lose _ => .isTrue trivial
  | _, .deliver _ _ => .isTrue trivial
  | _, .snapshot _ => .isTrue trivial
  | _, .replay _ _ => .isTrue trivial

/-! ## What holds of each side holds of the world -/

section Rule

variable {sha1} {P : ℚ → Side D → Prop} {G : World D → Act → Prop}

omit [DecidableEq D] in
theorem put_side_self (w : World D) (cell : Cell) (side : Side D) :
    (w.put cell side).side cell = side := by
  simp [put]

omit [DecidableEq D] in
theorem put_side_of_ne (w : World D) {cell c : Cell} (side : Side D) (hc : c ≠ cell) :
    (w.put cell side).side c = w.side c := by
  simp [put, hc]

omit [DecidableEq D] in
theorem put_keeps {w : World D} {cell : Cell} {side : Side D}
    (hw : ∀ c, P w.now (w.side c)) (hside : P w.now side) (c : Cell) :
    P w.now ((w.put cell side).side c) := by
  by_cases hc : c = cell
  · subst hc
    rw [put_side_self]
    exact hside
  · rw [put_side_of_ne _ _ hc]
    exact hw c

/-- What time, captures, messages and replays keep on a side, every run keeps on both sides, if
nothing but the radio, the guard, the arrivals and the frames relayed matters to it. -/
theorem sides_rule
    (hinit : ∀ now hostMac rateLimiter, P now (Side.new hostMac rateLimiter))
    (hlater : ∀ now later side, now ≤ later → P now side → P later side)
    (hsame : ∀ now (side side' : Side D), side'.bridge.radio = side.bridge.radio →
      side'.bridge.echoGuard = side.bridge.echoGuard → side'.arrivals = side.arrivals →
      side'.relayed = side.relayed → P now side → P now side')
    (hcapture : ∀ (w : World D) cell frame origin, G w (.capture cell frame origin) →
      (w.side cell).hears frame origin = true → P w.now (w.side cell) →
      P w.now ((w.side cell).capture sha1 w.now frame origin))
    (hdeliver : ∀ (w : World D) cell ending side', G w (.deliver cell ending) →
      (w.side cell).deliver sha1 w.now ending = some side' → P w.now (w.side cell) →
      P w.now side')
    (hreplay : ∀ (w : World D) cell ending side', G w (.replay cell ending) →
      (w.side cell).replay sha1 w.now ending = some side' → P w.now (w.side cell) →
      P w.now side')
    {w : World D} (h : (system sha1).Reachable G w) : ∀ cell, P w.now (w.side cell) := by
  have hsend : ∀ (w : World D) cell data, (∀ c, P w.now (w.side c)) →
      ∀ c, P (w.send cell data).now ((w.send cell data).side c) := by
    intro w cell data hw
    exact put_keeps hw (hsame _ (w.side cell.peer) _ rfl rfl rfl rfl (hw cell.peer))
  apply h.invariant (P := fun w => ∀ cell, P w.now (w.side cell))
  · intro w hi cell
    obtain ⟨hostMac, rateLimiter, hnew⟩ := hi cell
    rw [hnew]
    exact hinit _ _ _
  · intro w act w' hw hg hstep
    change step sha1 w act = some w' at hstep
    cases act with
    | tick later =>
      obtain ⟨hle, rfl⟩ : w.now ≤ later ∧ { w with now := later } = w' := by
        simpa [step] using hstep
      intro cell
      exact hlater _ _ _ hle (hw cell)
    | capture cell frame origin =>
      obtain ⟨hhears, rfl⟩ : (w.side cell).hears frame origin = true ∧
          w.put cell ((w.side cell).capture sha1 w.now frame origin) = w' := by
        simpa [step] using hstep
      exact put_keeps hw (hcapture w cell frame origin hg hhears (hw cell))
    | flush cell =>
      rw [step] at hstep
      cases hout : (w.side cell).bridge.outbox with
      | nil =>
        rw [hout] at hstep
        cases hstep
      | cons data rest =>
        rw [hout, Option.some.injEq] at hstep
        subst hstep
        apply hsend
        apply put_keeps (w := w) hw
        exact hsame _ (w.side cell) _ rfl rfl rfl rfl (hw cell)
    | heartbeat cell ts =>
      rw [step, Option.map_eq_some_iff] at hstep
      obtain ⟨data, -, rfl⟩ := hstep
      exact hsend w cell data hw
    | lose cell =>
      cases hstep
      exact put_keeps hw (hsame _ (w.side cell) _ rfl rfl rfl rfl (hw cell))
    | deliver cell ending =>
      rw [step, Option.map_eq_some_iff] at hstep
      obtain ⟨side', hside, rfl⟩ := hstep
      exact put_keeps hw (hdeliver w cell ending side' hg hside (hw cell))
    | snapshot cell =>
      rw [step, Option.map_eq_some_iff] at hstep
      obtain ⟨side', hside, rfl⟩ := hstep
      obtain ⟨-, rfl⟩ : (w.side cell).replays = [] ∧ _ = side' := by
        simpa [Side.snapshot] using hside
      exact put_keeps hw (hsame _ (w.side cell) _ rfl rfl rfl rfl (hw cell))
    | replay cell ending =>
      rw [step, Option.map_eq_some_iff] at hstep
      obtain ⟨side', hside, rfl⟩ := hstep
      exact put_keeps hw (hreplay w cell ending side' hg hside (hw cell))

end Rule

end World

/-! ## The guard remembers what the radio was handed -/

variable {sha1 : AirFrame → D} {now : ℚ} {side : Side D} {frame : AirFrame}

/-- The hashes of the frames handed to the radio, with their times. -/
def MonitorRadio.history (radio : MonitorRadio) (sha1 : AirFrame → D) : List (D × ℚ) :=
  radio.handed.map fun h => (sha1 h.frame, h.time)

omit [DecidableEq D] in
theorem MonitorRadio.history_send (radio : MonitorRadio) (sha1 : AirFrame → D) (now : ℚ)
    (frame : AirFrame) (ending : SendEnd) :
    (radio.send now frame ending).history sha1 = radio.history sha1 ++ [(sha1 frame, now)] :=
  List.map_append

/-- The guard keeps the window of the module and what it remembers is what the radio was handed. -/
structure Guarded (sha1 : AirFrame → D) (now : ℚ) (bridge : RelayBridge D) : Prop where
  window : bridge.echoGuard.window = echoWindow
  remembers : Window.Remembers echoWindow now (bridge.radio.history sha1) bridge.echoGuard.seen

namespace Guarded

variable {bridge : RelayBridge D}

theorem congr {bridge' : RelayBridge D} (h : Guarded sha1 now bridge)
    (hradio : bridge'.radio = bridge.radio) (hguard : bridge'.echoGuard = bridge.echoGuard) :
    Guarded sha1 now bridge' := by
  constructor
  · rw [hguard]
    exact h.window
  · rw [hguard, hradio]
    exact h.remembers

theorem pruned {bridge' : RelayBridge D} (h : Guarded sha1 now bridge)
    (hradio : bridge'.radio = bridge.radio)
    (hguard : bridge'.echoGuard = bridge.echoGuard.pruneLocked now) :
    Guarded sha1 now bridge' := by
  constructor
  · rw [hguard]
    exact h.window
  · rw [hguard, hradio, EchoGuard.pruneLocked, h.window]
    exact h.remembers.prune

theorem recorded {bridge' : RelayBridge D} {ending : SendEnd} (h : Guarded sha1 now bridge)
    (hradio : bridge'.radio = bridge.radio.send now frame ending)
    (hguard : bridge'.echoGuard = bridge.echoGuard.record sha1 now frame) :
    Guarded sha1 now bridge' := by
  constructor
  · rw [hguard]
    exact h.window
  · rw [hguard, hradio, MonitorRadio.history_send]
    show Window.Remembers echoWindow now _ (Window.record bridge.echoGuard.window now _ _)
    rw [h.window]
    exact h.remembers.record (sha1 frame)

/-- With a hash free of collisions the guard takes a frame for a duplicate exactly when the radio
was handed the same bytes within the window. -/
theorem duplicate_iff (h : Guarded sha1 now bridge) (hsha1 : Function.Injective sha1) :
    (bridge.echoGuard.duplicate sha1 now frame).1 = true ↔
      ∃ handed ∈ bridge.radio.handed, handed.frame = frame ∧ now - handed.time ≤ echoWindow := by
  have hlook : (bridge.echoGuard.duplicate sha1 now frame).1 = Window.found echoWindow now
      (sha1 frame) (Window.prune echoWindow now bridge.echoGuard.seen) := by
    rw [← h.window]
    rfl
  rw [hlook, h.remembers.found_iff]
  constructor
  · rintro ⟨stamp, hmem, hwithin⟩
    obtain ⟨handed, hhanded, heq⟩ := List.mem_map.mp hmem
    obtain ⟨hframe, rfl⟩ := Prod.mk.injEq _ _ _ _ ▸ heq
    exact ⟨handed, hhanded, hsha1 hframe, hwithin⟩
  · rintro ⟨handed, hhanded, rfl, hwithin⟩
    exact ⟨handed.time, List.mem_map.mpr ⟨handed, hhanded, rfl⟩, hwithin⟩

end Guarded

/-- The guard is right about the radio, and all that was relayed came from the Switch. -/
structure Safe (sha1 : AirFrame → D) (now : ℚ) (side : Side D) : Prop where
  guarded : Guarded sha1 now side.bridge
  relayed : ∀ frame origin, (frame, origin) ∈ side.relayed → origin = .switch

/-- An echo that comes in time is taken for a duplicate, so it is not relayed. -/
theorem Safe.capture {origin : Origin} (h : Safe sha1 now side) (hsha1 : Function.Injective sha1)
    (hhears : side.hears frame origin = true)
    (htime : ∀ injected, origin = .echo injected → now - injected ≤ echoWindow) :
    Safe sha1 now (side.capture sha1 now frame origin) := by
  have hcaptured := side.bridge.onRadioCapture_captured sha1 now frame
  constructor
  · rcases hcaptured.echoGuard with hguard | hguard
    · exact h.guarded.congr hcaptured.radio hguard
    · exact h.guarded.pruned hcaptured.radio hguard
  · intro frame' origin' hmem
    by_cases hrelayed : (side.bridge.onRadioCapture sha1 now frame).1 = some true
    · rw [Side.capture, if_pos hrelayed] at hmem
      rcases List.mem_append.mp hmem with hmem | hmem
      · exact h.relayed frame' origin' hmem
      · cases List.mem_singleton.mp hmem
        cases origin with
        | switch => rfl
        | echo injected =>
          obtain ⟨handed, hhanded, heq⟩ := List.any_eq_true.mp hhears
          have hdup := (@Guarded.duplicate_iff _ _ _ _ frame _ h.guarded hsha1).mpr
            ⟨handed, hhanded, by rw [eq_of_beq heq], by
              rw [eq_of_beq heq]
              exact htime injected rfl⟩
          rw [(hcaptured.relayed hrelayed).2] at hdup
          exact absurd hdup Bool.false_ne_true
    · rw [Side.capture, if_neg hrelayed] at hmem
      exact h.relayed frame' origin' hmem

theorem Safe.congr {side' : Side D} (h : Safe sha1 now side)
    (hradio : side'.bridge.radio = side.bridge.radio)
    (hguard : side'.bridge.echoGuard = side.bridge.echoGuard)
    (hrelayed : side'.relayed = side.relayed) : Safe sha1 now side' where
  guarded := h.guarded.congr hradio hguard
  relayed := by
    rw [hrelayed]
    exact h.relayed

theorem Safe.deliver {ending : SendEnd} {side' : Side D} (h : Safe sha1 now side)
    (hside : side.deliver sha1 now ending = some side') : Safe sha1 now side' := by
  unfold Side.deliver at hside
  cases hincoming : side.incoming with
  | nil =>
    rw [hincoming] at hside
    cases hside
  | cons data rest =>
    rw [hincoming, Option.some.injEq] at hside
    subst hside
    constructor
    · rcases side.bridge.onWsMessage_cases sha1 now data ending with
        ⟨hradio, hguard⟩ | ⟨payload, -, hradio, hguard⟩
      · exact h.guarded.congr hradio hguard
      · exact h.guarded.recorded hradio hguard
    · exact h.relayed

theorem Safe.replay {ending : SendEnd} {side' : Side D} (h : Safe sha1 now side)
    (hside : side.replay sha1 now ending = some side') : Safe sha1 now side' := by
  unfold Side.replay at hside
  cases hreplays : side.replays with
  | nil =>
    rw [hreplays] at hside
    cases hside
  | cons frame rest =>
    rw [hreplays, Option.some.injEq] at hside
    subst hside
    constructor
    · exact h.guarded.recorded rfl rfl
    · exact h.relayed

namespace World

variable {w : World D} {cell : Cell} {G : World D → Act → Prop}

/-- Both sides are safe in every run in which the echoes come in time. -/
theorem safe (hsha1 : Function.Injective sha1)
    (hG : ∀ w act, G w act → EchoesInTime w act) (h : (system sha1).Reachable G w) :
    ∀ cell, Safe sha1 w.now (w.side cell) := by
  apply sides_rule (P := Safe sha1) _ _ _ _ _ _ h
  · intro now hostMac rateLimiter
    constructor
    · exact ⟨rfl, Window.Remembers.empty⟩
    · intro frame origin hmem
      cases hmem
  · intro now later side hle hs
    exact ⟨⟨hs.guarded.window, hs.guarded.remembers.later hle⟩, hs.relayed⟩
  · intro now side side' hradio hguard _ hrelayed hs
    exact hs.congr hradio hguard hrelayed
  · intro w cell frame origin hg hhears hs
    apply hs.capture hsha1 hhears
    rintro injected rfl
    exact hG w _ hg
  · intro w cell ending side' _ hside hs
    exact hs.deliver hside
  · intro w cell ending side' _ hside hs
    exact hs.replay hside

/-! ## Which captures are dropped -/

/-- A capture of the frame now is counted as an echo. -/
def DroppedAsEcho (sha1 : AirFrame → D) (w : World D) (cell : Cell) (frame : AirFrame) : Prop :=
  ((w.side cell).bridge.onRadioCapture sha1 w.now frame).2.stats.droppedEcho =
    (w.side cell).bridge.stats.droppedEcho + 1

omit [DecidableEq D] in
/-- The bridge put bytes on the air that had arrived from the relay. -/
def FromRelay (side : Side D) (handed : Handed) : Prop :=
  handed.ending = .sent ∧ ∃ arrival ∈ side.arrivals,
    arrival.1 = handed.frame ∧ arrival.2 ≤ handed.time

omit [DecidableEq D] in
/-- A byte-equal frame that arrived from the relay was injected within the window. -/
def Injected (w : World D) (cell : Cell) (frame : AirFrame) : Prop :=
  ∃ handed ∈ (w.side cell).bridge.radio.handed, handed.frame = frame ∧
    w.now - handed.time ≤ echoWindow ∧ FromRelay (w.side cell) handed

omit [DecidableEq D] in
/-- The radio was handed the frame within the window, but each time it was a beacon of the own
Switch that was replayed, or the socket did not send it. -/
def Spurious (w : World D) (cell : Cell) (frame : AirFrame) : Prop :=
  (∃ handed ∈ (w.side cell).bridge.radio.handed, handed.frame = frame ∧
    w.now - handed.time ≤ echoWindow) ∧
  ∀ handed ∈ (w.side cell).bridge.radio.handed, handed.frame = frame →
    w.now - handed.time ≤ echoWindow → ¬ FromRelay (w.side cell) handed

omit [DecidableEq D] in
/-- The step puts on the air what it hands to the radio, and that came from the relay. -/
def Genuine (w : World D) : Act → Prop
  | .deliver _ ending => ending = .sent
  | .replay cell ending => ending = .sent ∧ ∀ frame ∈ (w.side cell).replays.head?,
      ∃ arrival ∈ (w.side cell).arrivals, arrival.1 = frame
  | _ => True

omit [DecidableEq D] in
instance (w : World D) : (act : Act) → Decidable (Genuine w act)
  | .deliver _ ending => inferInstanceAs (Decidable (ending = .sent))
  | .replay cell _ => inferInstanceAs (Decidable (_ ∧ ∀ frame ∈ (w.side cell).replays.head?,
      ∃ arrival ∈ (w.side cell).arrivals, arrival.1 = frame))
  | .capture .. | .tick _ | .flush _ | .heartbeat .. | .lose _ | .snapshot _ => .isTrue trivial

theorem droppedAsEcho_iff (hsha1 : Function.Injective sha1)
    (hs : Safe sha1 w.now (w.side cell))
    (haccepts : (w.side cell).bridge.radio.accepts frame = true) :
    DroppedAsEcho sha1 w cell frame ↔ Injected w cell frame ∨ Spurious w cell frame := by
  have hcaptured := (w.side cell).bridge.onRadioCapture_captured sha1 w.now frame
  rw [DroppedAsEcho, hcaptured.droppedEcho haccepts, hs.guarded.duplicate_iff hsha1]
  constructor
  · intro hhanded
    by_cases hinjected : Injected w cell frame
    · exact .inl hinjected
    · refine .inr ⟨hhanded, ?_⟩
      intro handed hmem hframe hwithin hfrom
      exact hinjected ⟨handed, hmem, hframe, hwithin, hfrom⟩
  · rintro (⟨handed, hmem, hframe, hwithin, -⟩ | ⟨hhanded, -⟩)
    · exact ⟨handed, hmem, hframe, hwithin⟩
    · exact hhanded

omit [DecidableEq D] in
theorem Spurious.not_injected (h : Spurious w cell frame) : ¬ Injected w cell frame := by
  rintro ⟨handed, hmem, hframe, hwithin, hfrom⟩
  exact h.2 handed hmem hframe hwithin hfrom

omit [DecidableEq D] in
theorem FromRelay.mono {side' : Side D} {handed : Handed} (h : FromRelay side handed)
    (hsub : side.arrivals ⊆ side'.arrivals) : FromRelay side' handed := by
  obtain ⟨hsent, arrival, hmem, hframe, htime⟩ := h
  exact ⟨hsent, arrival, hsub hmem, hframe, htime⟩

omit [DecidableEq D] in
/-- All that the radio was handed went on the air and came from the relay. -/
structure AllFromRelay (now : ℚ) (side : Side D) : Prop where
  handed : ∀ handed ∈ side.bridge.radio.handed, FromRelay side handed
  past : ∀ arrival ∈ side.arrivals, arrival.2 ≤ now

theorem AllFromRelay.deliver {side' : Side D} (h : AllFromRelay now side)
    (hside : side.deliver sha1 now .sent = some side') : AllFromRelay now side' := by
  unfold Side.deliver at hside
  cases hincoming : side.incoming with
  | nil =>
    rw [hincoming] at hside
    cases hside
  | cons data rest =>
    rw [hincoming, Option.some.injEq] at hside
    subst hside
    constructor
    · intro handed hmem
      rcases side.bridge.onWsMessage_cases sha1 now data .sent with
        ⟨hradio, -⟩ | ⟨payload, hparse, hradio, -⟩
      · rw [hradio] at hmem
        exact (h.handed handed hmem).mono (List.subset_append_left _ _)
      · rw [hradio] at hmem
        rcases List.mem_append.mp hmem with hmem | hmem
        · exact (h.handed handed hmem).mono (List.subset_append_left _ _)
        · cases List.mem_singleton.mp hmem
          refine ⟨rfl, (payload, now), ?_, rfl, le_refl now⟩
          apply List.mem_append_right
          simp [Side.carried, hparse]
    · intro arrival hmem
      rcases List.mem_append.mp hmem with hmem | hmem
      · exact h.past arrival hmem
      · rw [Option.mem_toList, Option.map_eq_some_iff] at hmem
        obtain ⟨frame, -, rfl⟩ := hmem
        exact le_refl now

theorem AllFromRelay.replay {side' : Side D} (h : AllFromRelay now side)
    (harrived : ∀ frame ∈ side.replays.head?, ∃ arrival ∈ side.arrivals, arrival.1 = frame)
    (hside : side.replay sha1 now .sent = some side') : AllFromRelay now side' := by
  unfold Side.replay at hside
  cases hreplays : side.replays with
  | nil =>
    rw [hreplays] at hside
    cases hside
  | cons frame rest =>
    rw [hreplays] at harrived
    rw [hreplays, Option.some.injEq] at hside
    subst hside
    constructor
    · intro handed hmem
      rcases List.mem_append.mp hmem with hmem | hmem
      · exact h.handed handed hmem
      · cases List.mem_singleton.mp hmem
        obtain ⟨arrival, harrival, hframe⟩ := harrived frame rfl
        exact ⟨rfl, arrival, harrival, hframe, h.past arrival harrival⟩
    · exact h.past

theorem all_from_relay (hG : ∀ w act, G w act → Genuine w act)
    (h : (system sha1).Reachable G w) : ∀ cell, AllFromRelay w.now (w.side cell) := by
  apply sides_rule (P := AllFromRelay) _ _ _ _ _ _ h
  · intro now hostMac rateLimiter
    constructor
    · intro handed hmem
      cases hmem
    · intro arrival hmem
      cases hmem
  · intro now later side hle hs
    refine ⟨hs.handed, ?_⟩
    intro arrival hmem
    exact le_trans (hs.past arrival hmem) hle
  · intro now side side' hradio _ harrivals _ hs
    constructor
    · intro handed hmem
      rw [hradio] at hmem
      apply (hs.handed handed hmem).mono
      rw [harrivals]
      exact List.Subset.refl _
    · rw [harrivals]
      exact hs.past
  · intro w cell frame origin _ _ hs
    have hcaptured := (w.side cell).bridge.onRadioCapture_captured sha1 w.now frame
    constructor
    · intro handed hmem
      change handed ∈ ((w.side cell).bridge.onRadioCapture sha1 w.now frame).2.radio.handed at hmem
      rw [hcaptured.radio] at hmem
      exact hs.handed handed hmem
    · exact hs.past
  · intro w cell ending side' hg hside hs
    have hsent : ending = .sent := hG w _ hg
    subst hsent
    exact hs.deliver hside
  · intro w cell ending side' hg hside hs
    obtain ⟨hsent, harrived⟩ : Genuine w (.replay cell ending) := hG w _ hg
    subst hsent
    exact hs.replay harrived hside

/-- A captured frame is dropped as an echo exactly when the bridge injected bytes that had arrived
from the relay within the window, unless all it handed to the radio in the window was its own
Switch's beacon or was not sent. Whatever is relayed was transmitted by the Switch. -/
theorem loop_safety (hsha1 : Function.Injective sha1) :
    (∀ w, (system sha1).Reachable EchoesInTime w →
      (∀ cell frame origin, (frame, origin) ∈ (w.side cell).relayed → origin = .switch) ∧
      ∀ cell frame, (w.side cell).bridge.radio.accepts frame = true →
        ((DroppedAsEcho sha1 w cell frame ↔ Injected w cell frame) ↔ ¬ Spurious w cell frame)) ∧
    ∀ w, (system sha1).Reachable (fun w act => EchoesInTime w act ∧ Genuine w act) w →
      ∀ cell frame, (w.side cell).bridge.radio.accepts frame = true →
        (DroppedAsEcho sha1 w cell frame ↔ Injected w cell frame) := by
  constructor
  · intro w h
    have hs := safe hsha1 (fun _ _ hg => hg) h
    refine ⟨fun cell => (hs cell).relayed, ?_⟩
    intro cell frame haccepts
    rw [droppedAsEcho_iff hsha1 (hs cell) haccepts]
    constructor
    · intro hiff hspurious
      exact hspurious.not_injected (hiff.mp (.inr hspurious))
    · intro hnot
      exact or_iff_left hnot
  · intro w h cell frame haccepts
    have hs := safe hsha1 (fun _ _ hg => hg.1) h
    have hall := all_from_relay (fun _ _ hg => hg.2) h
    rw [droppedAsEcho_iff hsha1 (hs cell) haccepts]
    apply or_iff_left
    rintro ⟨⟨handed, hmem, hframe, hwithin⟩, hnot⟩
    exact hnot handed hmem hframe hwithin ((hall cell).handed handed hmem)

/-! ## Two runs -/

/-- A bucket of the module's default rate and burst. -/
def defaultLimiter : TokenBucket where
  rate := 200
  burst := 200
  warnInterval := 1
  tokens := 200
  last := none
  lastWarn := none
  stats := ⟨0, 0, 0, 0, 0, 0⟩
  log := some []
  rate_pos := by norm_num
  one_le_burst := by norm_num
  tokens_nonneg := by norm_num
  tokens_le_burst := le_refl _

/-- Two new bridges with their filters off and the hash that is the frame itself. -/
def opened : World AirFrame := ⟨0, fun _ => Side.new none defaultLimiter⟩

theorem opened_init : init opened := by
  intro cell
  exact ⟨none, defaultLimiter, rfl⟩

theorem reachable_of_play {G : World AirFrame → Act → Prop} [∀ w act, Decidable (G w act)]
    {acts : List Act} {p : World AirFrame → Bool}
    (h : (Transition.System.play (step id) G opened acts).any p = true) :
    ∃ w, (system id).Reachable G w ∧ p w = true := by
  cases hplay : Transition.System.play (step id) G opened acts with
  | none =>
    rw [hplay] at h
    cases h
  | some w =>
    rw [hplay] at h
    exact ⟨w, ⟨opened, opened_init, Transition.System.run_of_play hplay⟩, h⟩

/-- A beacon of ten bytes. -/
def shortBeacon : AirFrame := [0x80, 0x00, 0x00, 0x00, 0xFF, 0xFF, 0xFF, 0xFF, 0xFF, 0xFF]

/-- The Switch sends a beacon, the bridge replays it into the same cell, and when the Switch sends
the same beacon again a tenth of a second later it is dropped, though nothing ever arrived. -/
theorem own_beacon_suppressed :
    ∃ w, (system (id : AirFrame → AirFrame)).Reachable EchoesInTime w ∧
      (w.side .host).bridge.radio.accepts shortBeacon = true ∧
      ¬ (DroppedAsEcho id w .host shortBeacon ↔ Injected w .host shortBeacon) := by
  obtain ⟨w, hreach, hp⟩ := @reachable_of_play EchoesInTime _
    [.capture .host shortBeacon .switch, .snapshot .host, .replay .host .sent, .tick (1 / 10)]
    (fun w => (w.side .host).bridge.radio.accepts shortBeacon &&
      (w.side .host).arrivals.isEmpty && decide
        (((w.side .host).bridge.onRadioCapture id w.now shortBeacon).2.stats.droppedEcho =
          (w.side .host).bridge.stats.droppedEcho + 1)) (by decide +kernel)
  simp only [Bool.and_eq_true, List.isEmpty_iff, decide_eq_true_eq] at hp
  obtain ⟨⟨haccepts, harrivals⟩, hdropped⟩ := hp
  refine ⟨w, hreach, haccepts, ?_⟩
  intro hiff
  obtain ⟨handed, -, -, -, -, arrival, hmem, -⟩ := hiff.mp hdropped
  rw [harrivals] at hmem
  cases hmem

/-- The guest's bridge injects what the host's relayed, replays it, and a second later hears it
and drops it. -/
theorem loop_safety_relayed :
    ∃ w, (system (id : AirFrame → AirFrame)).Reachable
        (fun w act => EchoesInTime w act ∧ Genuine w act) w ∧ w.now = 1 ∧
      (∀ cell frame origin, (frame, origin) ∈ (w.side cell).relayed → origin = .switch) ∧
      ¬ Spurious w .guest shortBeacon ∧ Injected w .guest shortBeacon ∧
      ∀ cell frame, (w.side cell).bridge.radio.accepts frame = true →
        (DroppedAsEcho id w cell frame ↔ Injected w cell frame) := by
  obtain ⟨w, hreach, hp⟩ := @reachable_of_play (fun w act => EchoesInTime w act ∧ Genuine w act) _
    [.capture .host shortBeacon .switch, .flush .host, .deliver .guest .sent, .snapshot .guest,
      .replay .guest .sent, .tick 1, .capture .guest shortBeacon (.echo 0)]
    (fun w => decide (w.now = 1) && (w.side .guest).bridge.radio.accepts shortBeacon && decide
      (((w.side .guest).bridge.onRadioCapture id w.now shortBeacon).2.stats.droppedEcho =
        (w.side .guest).bridge.stats.droppedEcho + 1)) (by decide +kernel)
  simp only [Bool.and_eq_true, decide_eq_true_eq] at hp
  obtain ⟨⟨hnow, haccepts⟩, hdropped⟩ := hp
  have hany := (loop_safety Function.injective_id).1 w (hreach.mono fun _ _ hg => hg.1)
  have hgenuine := (loop_safety Function.injective_id).2 w hreach
  have hiff := hgenuine .guest shortBeacon haccepts
  exact ⟨w, hreach, hnow, hany.1, (hany.2 .guest shortBeacon haccepts).mp hiff,
    hiff.mp hdropped, hgenuine⟩

end World

end SwitchTrade.Bridge

import SwitchTrade.Sim.ChildLink
import SwitchTrade.Trade.Untagged

/-!
# What a call of the driver does

The state of a child seen from three sides: the slots it says (`Voice`), the frames of the host it
acknowledges (`Acking`) and how far the stream is opened (`Opening`). For each call that can be made
of the driver, what it does to the three and to the link is said once (`driveReliable_cases`,
`onReliable_cases`).
-/

namespace SwitchTrade.Sim

open Rfu Trade Transition
open Reliable hiding Bytes

universe u

variable {Time : Type u}

/-! ## Three sides of the state -/

/-- What the next slot depends on, but for the engine and the held keys. -/
structure Voice where
  linkPlayer : LinkPlayer
  gbaAccepted : Bool
  sender : NiSender
  niDone : Bool
  curNiAck : Option Bytes
  niAckBytes : Option Bytes
  hostUniSeen : Bool
  tag : Nat
  ts : Nat

/-- The stamps that are acknowledged. -/
structure Acking where
  kSeq : Nat
  ackedTs : List Nat
  pendingK : List (Nat × Nat)

structure Opening where
  connectId : Option Bytes
  relOpened : Bool
  gbaConnSent : Bool

/-- The acknowledgement that a frame of the host asks for. -/
def ackAsked (frame : HostT) : Option Bytes :=
  frame.ni.bind fun ni => if ni.1.ack ≠ 0 then none else NiReceiver.ackOf ni.1

def Voice.hear (v : Voice) : Option InFrame → Voice
  | some (.a _ _) => { v with gbaAccepted := true }
  | some (.t frame) =>
    { v with
      curNiAck := (ackAsked frame).or v.curNiAck
      hostUniSeen := v.hostUniSeen || decide (frame.llsfState = some lcomUni) }
  | _ => v

/-- `_queue_k_ack`. -/
def Acking.accept (k : Acking) : Option Nat → Acking
  | none => k
  | some ts =>
    if ts ∈ k.ackedTs then k
    else if kBacklogMax ≤ k.pendingK.length then k
    else ⟨k.kSeq + 1, remember ackedLimit k.ackedTs ts, k.pendingK ++ [(k.kSeq + 1, ts)]⟩

def Acking.hear (k : Acking) : Option InFrame → Acking
  | some (.t frame) => k.accept frame.ts
  | _ => k

/-- A command of the engine or the idle slot, and the tag after it. -/
inductive Command (tag : Nat) : Bytes → Nat → Prop where
  | idle : Command tag (wordsToSlot []) tag
  | tagged (words : List Nat) (hwords : words.headD 0 &&& 0xFFFF ≠ 0) (hfree : Untagged words) :
    Command tag (buildSlot tag words) ((tag + 1) &&& 7)

/-- A slot that is said once the host has accepted. -/
inductive Says (v : Voice) : Bytes → Voice → Prop where
  | own {slot : Bytes} {next : NiSender} (hdone : v.niDone = false)
    (hstate : v.sender.state ≠ .done)
    (hcall : v.sender.nextSlot windowCount = some (some slot, next)) :
    Says v slot { v with sender := next, ts := (v.ts + 1) &&& 0xFFFFFFFF }
  | ack {slot : Bytes} (hdone : v.niDone = false) (hstate : v.sender.state = .done)
    (hcur : v.curNiAck = some slot) (hnew : v.niAckBytes ≠ some slot) :
    Says v slot { v with niAckBytes := some slot, ts := (v.ts + 1) &&& 0xFFFFFFFF }
  | command {cmd14 slot : Bytes} {tag : Nat}
    (huni : v.niDone = true ∨ v.sender.state = .done ∧ v.hostUniSeen = true)
    (hcmd : Command v.tag cmd14 tag) (hslot : uniSlot cmd14 = some slot) :
    Says v slot { v with niDone := true, tag := tag, ts := (v.ts + 1) &&& 0xFFFFFFFF }

namespace ChildSim

variable {s s' : ChildSim Time} {now : Time}

def sender (s : ChildSim Time) : NiSender :=
  s.ni.getD (NiSender.new (gameData s.cfg.linkPlayer))

def voice (s : ChildSim Time) : Voice where
  linkPlayer := s.cfg.linkPlayer
  gbaAccepted := s.gbaAccepted
  sender := s.sender
  niDone := s.niDone
  curNiAck := s.curNiAck
  niAckBytes := s.niAckBytes
  hostUniSeen := s.hostUniSeen
  tag := s.tag
  ts := s.ts

def acking (s : ChildSim Time) : Acking := ⟨s.kSeq, s.ackedTs, s.pendingK⟩

def opening (s : ChildSim Time) : Opening := ⟨s.connectId, s.relOpened, s.gbaConnSent⟩

/-- Nothing was heard, and neither the stamps nor the opening have changed. -/
structure SameSides (s s' : ChildSim Time) : Prop where
  handed : s'.receive.handed = s.receive.handed
  kSeqs : s'.kSeqs = s.kSeqs
  acking : s'.acking = s.acking
  opening : s'.opening = s.opening

/-- The link has not changed either. -/
structure SameLink (s s' : ChildSim Time) : Prop extends SameSides s s' where
  rel : s'.rel = s.rel

theorem SameSides.trans {s'' : ChildSim Time} (h : SameSides s s') (h' : SameSides s' s'') :
    SameSides s s'' :=
  ⟨h'.handed.trans h.handed, h'.kSeqs.trans h.kSeqs, h'.acking.trans h.acking,
    h'.opening.trans h.opening⟩

theorem SameLink.refl (s : ChildSim Time) : SameLink s s := ⟨⟨rfl, rfl, rfl, rfl⟩, rfl⟩

theorem SameLink.trans {s'' : ChildSim Time} (h : SameLink s s') (h' : SameLink s' s'') :
    SameLink s s'' :=
  ⟨h.toSameSides.trans h'.toSameSides, h'.rel.trans h.rel⟩

/-! ## The frame of a VBlank -/

theorem wrapT_ok {slot : Bytes} {frame : Option Bytes} (h : s.wrapT slot = .ok (frame, s')) :
    ∃ bytes, Rfu.wrapT slot s.ts = some bytes ∧ frame = some bytes ∧
      s' = { s with ts := (s.ts + 1) &&& 0xFFFFFFFF } := by
  cases hframe : Rfu.wrapT slot s.ts with
  | none =>
    rw [wrapT, hframe] at h
    cases h
  | some bytes =>
    rw [wrapT, hframe] at h
    cases h
    exact ⟨bytes, rfl, rfl, rfl⟩

theorem holdKeys_spec {words : List Nat} (hfree : Untagged words) :
    (s.holdKeys words).1.voice = s.voice ∧ SameLink s (s.holdKeys words).1 ∧
      (s.holdKeys words).1.emittedNiAck = s.emittedNiAck ∧ Untagged (s.holdKeys words).2 := by
  cases hlink : s.linkstate with
  | none =>
    rw [holdKeys, hlink]
    exact ⟨rfl, .refl s, rfl, hfree⟩
  | some linkstate =>
    rw [holdKeys, hlink]
    simp only
    split
    · refine ⟨rfl, ⟨⟨rfl, rfl, rfl, rfl⟩, rfl⟩, rfl, ?_⟩
      show linkstate.tick.2.headD 0 &&& 0xE0 = 0
      rw [linkstate.tick_head]
      decide
    · exact ⟨rfl, .refl s, rfl, hfree⟩

theorem command_build {tag : Nat} {words : List Nat} (hfree : Untagged words) :
    Command tag (build tag words).1 (build tag words).2 := by
  unfold build
  by_cases hidle : words.headD 0 &&& 0xFFFF = 0
  · rw [if_pos hidle]
    exact .idle
  · rw [if_neg hidle]
    exact .tagged words hidle hfree

/-- The frame of the engine: the words of a tick under the next tag. -/
theorem uniFrame_ok {frame : Option Bytes} (h : s.uniFrame = .ok (frame, s')) :
    ∃ cmd14 tag slot bytes, Command s.tag cmd14 tag ∧ uniSlot cmd14 = some slot ∧
      Rfu.wrapT slot s.ts = some bytes ∧ frame = some bytes ∧ s'.emittedNiAck = s.emittedNiAck ∧
      SameLink s s' ∧ s'.voice = { s.voice with tag := tag, ts := (s.ts + 1) &&& 0xFFFFFFFF } := by
  cases htick : s.engine.tick s.cfg with
  | error raised =>
    rw [uniFrame, htick] at h
    cases h
  | ok answer =>
    obtain ⟨engine, words⟩ := answer
    obtain ⟨hvoice, hsame, hemitted, hfree⟩ :=
      @holdKeys_spec _ { s with engine } words (Engine.untagged_tick htick)
    rw [uniFrame, htick] at h
    simp only at h
    generalize hheld : holdKeys { s with engine } words = held at h hvoice hsame hemitted hfree
    obtain ⟨s₁, words'⟩ := held
    have htag : s₁.tag = s.tag := congrArg Voice.tag hvoice
    have hts : s₁.ts = s.ts := congrArg Voice.ts hvoice
    have hcmd := @command_build s₁.tag words' hfree
    cases hslot : uniSlot (build s₁.tag words').1 with
    | none =>
      simp only [hslot] at h
      cases h
    | some slot =>
      simp only [hslot] at h
      obtain ⟨bytes, hbytes, hframe, rfl⟩ := wrapT_ok h
      rw [htag] at hcmd hslot
      rw [hts] at hbytes
      refine ⟨_, _, slot, bytes, hcmd, hslot, hbytes, hframe, hemitted, ?_, ?_⟩
      · exact SameLink.trans ⟨⟨hsame.handed, hsame.kSeqs, hsame.acking, hsame.opening⟩, hsame.rel⟩
          ⟨⟨rfl, rfl, rfl, rfl⟩, rfl⟩
      · show { s₁.voice with tag := (build s₁.tag words').2, ts := (s₁.ts + 1) &&& 0xFFFFFFFF } = _
        rw [hvoice, hts, htag]
        rfl

theorem niSlot_ok {slot : Option Bytes} (h : s.ensureNi.niSlot = .ok (slot, s')) :
    (s.sender.state = .done ∧ slot = none ∧ s'.voice = s.voice ∨
      s.sender.state ≠ .done ∧ ∃ bytes next, slot = some bytes ∧
        s.sender.nextSlot windowCount = some (some bytes, next) ∧
        s'.voice = { s.voice with sender := next }) ∧
      s'.emittedNiAck = s.emittedNiAck ∧ SameLink s s' ∧ s'.niDone = s.niDone := by
  have hensure : s.ensureNi.ni = some s.sender ∧ s.ensureNi.voice = s.voice ∧
      SameLink s s.ensureNi ∧ s.ensureNi.emittedNiAck = s.emittedNiAck := by
    cases hni : s.ni with
    | none =>
      rw [sender, ensureNi, hni]
      exact ⟨rfl, by simp only [voice, sender, hni]; rfl, ⟨⟨rfl, rfl, rfl, rfl⟩, rfl⟩, rfl⟩
    | some ni =>
      rw [sender, ensureNi, hni]
      exact ⟨hni, rfl, .refl s, rfl⟩
  obtain ⟨hni, hvoice, hsame, hemitted⟩ := hensure
  have hdone : s.ensureNi.niDone = s.niDone := congrArg Voice.niDone hvoice
  rw [niSlot, hni] at h
  simp only at h
  by_cases hstate : s.sender.state = .done
  · rw [if_pos hstate] at h
    cases h
    exact ⟨.inl ⟨hstate, rfl, hvoice⟩, hemitted, hsame, hdone⟩
  · rw [if_neg hstate] at h
    cases hcall : s.sender.nextSlot windowCount with
    | none =>
      rw [hcall] at h
      cases h
    | some answer =>
      obtain ⟨answered, next⟩ := answer
      have hsome := NiSender.isSome_of_nextSlot hstate hcall
      obtain ⟨bytes, rfl⟩ := Option.isSome_iff_exists.mp hsome
      rw [hcall] at h
      cases h
      refine ⟨.inr ⟨hstate, bytes, next, rfl, rfl, ?_⟩, hemitted,
        hsame.trans ⟨⟨rfl, rfl, rfl, rfl⟩, rfl⟩, hdone⟩
      show { s.ensureNi.voice with sender := next } = _
      rw [hvoice]

/-- What is left of a driver that has been asked for the frame of a VBlank. -/
def settled (s : ChildSim Time) : ChildSim Time :=
  { s with niAckBytes := s.emittedNiAck.or s.niAckBytes }

theorem settled_voice (h : s.emittedNiAck = none) : s.settled.voice = s.voice := by
  have hbytes : s.emittedNiAck.or s.niAckBytes = s.niAckBytes := by rw [h]; rfl
  show { s.voice with niAckBytes := s.emittedNiAck.or s.niAckBytes } = _
  rw [hbytes]
  rfl

/-- A slot of the NI data. -/
theorem says_own {s₁ : ChildSim Time} {bytes : Bytes} {next : NiSender} {frame : Option Bytes}
    (hnone : s₁.emittedNiAck = none) (hdone : s.niDone = false) (hstate : s.sender.state ≠ .done)
    (hcall : s.sender.nextSlot windowCount = some (some bytes, next))
    (hvoice : s₁.voice = { s.voice with sender := next })
    (h : s₁.wrapT bytes = .ok (frame, s')) :
    SameLink s₁ s' ∧ ∃ slot bytes, Rfu.wrapT slot s.ts = some bytes ∧ frame = some bytes ∧
      Says s.voice slot s'.settled.voice := by
  obtain ⟨frame', hframe', hframe, rfl⟩ := wrapT_ok h
  have hts : s₁.ts = s.ts := congrArg Voice.ts hvoice
  rw [hts] at hframe'
  refine ⟨⟨⟨rfl, rfl, rfl, rfl⟩, rfl⟩, bytes, frame', hframe', hframe, ?_⟩
  rw [@settled_voice _ { s₁ with ts := (s₁.ts + 1) &&& 0xFFFFFFFF } hnone]
  have hsaid : Says s.voice bytes
      { s.voice with sender := next, ts := (s.ts + 1) &&& 0xFFFFFFFF } :=
    .own hdone hstate hcall
  show Says _ _ { s₁.voice with ts := (s₁.ts + 1) &&& 0xFFFFFFFF }
  rw [hvoice, hts]
  exact hsaid

/-- An acknowledgement of the host's NI data. -/
theorem says_ack {ack : Bytes} {frame : Option Bytes} (hdone : s.niDone = false)
    (hstate : s.sender.state = .done) (hack : s.newAck = some ack)
    (h : { s with emittedNiAck := some ack }.wrapT ack = .ok (frame, s')) :
    SameLink s s' ∧ ∃ slot bytes, Rfu.wrapT slot s.ts = some bytes ∧ frame = some bytes ∧
      Says s.voice slot s'.settled.voice := by
  obtain ⟨hcur, hnew⟩ := Option.filter_eq_some_iff.mp hack
  obtain ⟨bytes, hbytes, hframe, rfl⟩ := wrapT_ok h
  have hother : s.niAckBytes ≠ some ack := by simpa using hnew
  exact ⟨⟨⟨rfl, rfl, rfl, rfl⟩, rfl⟩, ack, bytes, hbytes, hframe, .ack hdone hstate hcur hother⟩

/-- A command, once it is the turn of the commands. -/
theorem says_command {frame : Option Bytes} (hnone : s.emittedNiAck = none)
    (hturn : s.niDone = true ∨ s.sender.state = .done ∧ s.hostUniSeen = true)
    (h : { s with niDone := true }.uniFrame = .ok (frame, s')) :
    SameLink s s' ∧ ∃ slot bytes, Rfu.wrapT slot s.ts = some bytes ∧ frame = some bytes ∧
      Says s.voice slot s'.settled.voice := by
  obtain ⟨cmd14, tag, slot, bytes, hcmd, hslot, hbytes, hframe, hemitted, hsame, hvoice⟩ :=
    uniFrame_ok h
  refine ⟨⟨⟨hsame.handed, hsame.kSeqs, hsame.acking, hsame.opening⟩, hsame.rel⟩,
    slot, bytes, hbytes, hframe, ?_⟩
  rw [settled_voice (hemitted.trans hnone), hvoice]
  exact .command hturn hcmd hslot

/-- A frame is a slot that is said; where there is none, nothing that is said later changes. -/
theorem gbaFrame_ok {frame : Option Bytes} (haccepted : s.gbaAccepted = true)
    (h : s.gbaFrame = .ok (frame, s')) :
    SameLink s s' ∧
      (frame = none ∧ s'.voice = s.voice ∨
        ∃ slot bytes, Rfu.wrapT slot s.ts = some bytes ∧ frame = some bytes ∧
          Says s.voice slot s'.settled.voice) := by
  obtain ⟨s₀, hs₀⟩ : ∃ s₀, s₀ = { s with emittedNiAck := none } := ⟨_, rfl⟩
  have hsame₀ : SameLink s s₀ := by rw [hs₀]; exact ⟨⟨rfl, rfl, rfl, rfl⟩, rfl⟩
  have hvoice₀ : s₀.voice = s.voice := by rw [hs₀]; rfl
  have hnone : s₀.emittedNiAck = none := by rw [hs₀]
  have hts₀ : s₀.ts = s.ts := congrArg Voice.ts hvoice₀
  have hheard : s₀.gbaAccepted = true := (congrArg Voice.gbaAccepted hvoice₀).trans haccepted
  rw [gbaFrame, ← hs₀, hheard, Bool.true_and] at h
  clear hs₀
  rw [← hvoice₀, ← hts₀]
  cases hdone : s₀.niDone with
  | true =>
    rw [hdone, Bool.not_true, if_neg (by decide)] at h
    have hsettled : { s₀ with niDone := true } = s₀ := by rw [← hdone]
    obtain ⟨hsame, hsaid⟩ := says_command hnone (.inl hdone) (hsettled ▸ h)
    exact ⟨hsame₀.trans hsame, .inr hsaid⟩
  | false =>
    rw [hdone] at h
    simp only [Bool.not_false, if_true] at h
    cases hslot : s₀.ensureNi.niSlot with
    | error fault =>
      rw [hslot] at h
      cases h
    | ok answer =>
      obtain ⟨slot, s₁⟩ := answer
      obtain ⟨hcases, hemitted, hsame₁, hdone₁⟩ := niSlot_ok hslot
      have hlink := hsame₀.trans hsame₁
      rw [hslot] at h
      rcases hcases with ⟨hstate, rfl, hvoice⟩ | ⟨hstate, bytes, next, rfl, hcall, hvoice⟩
      · simp only at h
        have hts₁ : s₁.ts = s₀.ts := congrArg Voice.ts hvoice
        have hstate₁ : s₁.sender.state = .done := (congrArg (·.sender.state) hvoice).trans hstate
        rw [← hvoice, ← hts₁]
        cases hack : s₁.newAck with
        | some ack =>
          rw [hack] at h
          obtain ⟨hsame, hsaid⟩ := says_ack (hdone₁.trans hdone) hstate₁ hack h
          exact ⟨hlink.trans hsame, .inr hsaid⟩
        | none =>
          rw [hack] at h
          simp only at h
          split at h
          · rename_i huni
            obtain ⟨hsame, hsaid⟩ :=
              says_command (hemitted.trans hnone) (.inr ⟨hstate₁, huni⟩) h
            exact ⟨hlink.trans hsame, .inr hsaid⟩
          · cases h
            exact ⟨hlink, .inl ⟨rfl, rfl⟩⟩
      · obtain ⟨hsame, hsaid⟩ :=
          says_own (hemitted.trans hnone) hdone hstate hcall hvoice h
        exact ⟨hlink.trans hsame, .inr hsaid⟩

/-! ## The batch of a VBlank -/

/-- At most one frame is queued, and it is a slot that is said. -/
theorem driveT_ok {driven : Driven Time} (h : s.driveT now = .ok driven) :
    SameSides s driven.sim ∧
      (driven.queued = [] ∧ driven.batch = [] ∧ driven.sim.rel = s.rel ∧
          driven.sim.voice = s.voice ∨
        s.gbaAccepted = true ∧ s.rel.inflight < s.rel.maxInflight ∧
          ∃ slot frame, Rfu.wrapT slot s.ts = some frame ∧ driven.queued = [(flagsaGba, frame)] ∧
            driven.batch = [(some (s.rel.queue frame flagsaGba now).2, flagsaGba, frame)] ∧
            driven.sim.rel = (s.rel.queue frame flagsaGba now).1 ∧
            Says s.voice slot driven.sim.voice) := by
  unfold driveT at h
  by_cases haccepted : s.gbaAccepted = false
  · rw [if_pos haccepted] at h
    cases h
    exact ⟨(SameLink.refl s).toSameSides, .inl ⟨rfl, rfl, rfl, rfl⟩⟩
  rw [if_neg haccepted] at h
  rw [Bool.not_eq_false] at haccepted
  by_cases hroom : s.rel.maxInflight ≤ s.rel.inflight
  · rw [if_pos hroom] at h
    cases hpoll : s.engine.pollSendDone s.cfg with
    | error raised =>
      rw [hpoll] at h
      cases h
    | ok engine =>
      rw [hpoll] at h
      cases h
      exact ⟨⟨rfl, rfl, rfl, rfl⟩, .inl ⟨rfl, rfl, rfl, rfl⟩⟩
  rw [if_neg hroom] at h
  cases hframe : s.gbaFrame with
  | error fault =>
    rw [hframe] at h
    cases h
  | ok answer =>
    obtain ⟨frame, s₁⟩ := answer
    obtain ⟨hsame, hsaid⟩ := gbaFrame_ok haccepted hframe
    rw [hframe] at h
    rcases hsaid with ⟨rfl, hvoice⟩ | ⟨slot, bytes, hbytes, rfl, hsaid⟩
    · cases h
      exact ⟨hsame.toSameSides, .inl ⟨rfl, rfl, hsame.rel, hvoice⟩⟩
    · cases h
      have hsides : SameSides s (s₁.open_ bytes flagsaGba now).sim :=
        hsame.toSameSides.trans ⟨rfl, rfl, rfl, rfl⟩
      refine ⟨hsides.trans ⟨rfl, rfl, rfl, rfl⟩, .inr ⟨haccepted, Nat.lt_of_not_le hroom, slot,
        bytes, hbytes, rfl, ?_, ?_, hsaid⟩⟩
      · show [(some (s₁.rel.queue bytes flagsaGba now).2, flagsaGba, bytes)] = _
        rw [hsame.rel]
      · show (s₁.rel.queue bytes flagsaGba now).1 = _
        rw [hsame.rel]

/-- An acknowledgement is all that goes to the end of a batch. -/
theorem driveAck_spec (s : ChildSim Time) (batch : List BatchFrame) :
    SameLink s (s.driveAck batch).1 ∧ (s.driveAck batch).1.voice = s.voice ∧
      ((s.driveAck batch).2 = batch ∨
        (s.driveAck batch).2 = batch ++ [(none, flagsaCtrl, s.rel.ackPayload)]) := by
  unfold driveAck
  split
  · exact ⟨⟨⟨rfl, rfl, rfl, rfl⟩, rfl⟩, rfl, .inr rfl⟩
  · exact ⟨.refl s, rfl, .inl rfl⟩

/-- The `K` frames of acknowledgements that come after `mid` others. -/
def kFrames : Nat → List (Nat × Nat) → List Bytes
  | _, [] => []
  | mid, (kSeq, ackedTs) :: rest => buildK kSeq (mid + 1) ackedTs :: kFrames (mid + 1) rest

/-- The loop takes the oldest acknowledgements. -/
theorem kLoop_spec (rel : ReliableLink Time Bytes) (kSeqs : List (BitVec 16)) (mid : Nat)
    (pending : List (Nat × Nat)) :
    ∃ taken, pending = taken ++ (kLoop now rel kSeqs mid pending).rest ∧
      (kLoop now rel kSeqs mid pending).frames.map Prod.snd = kFrames mid taken ∧
      (kLoop now rel kSeqs mid pending).kSeqs =
        kSeqs ++ (kLoop now rel kSeqs mid pending).frames.map Prod.fst := by
  induction pending generalizing rel kSeqs mid with
  | nil => exact ⟨[], rfl, rfl, (List.append_nil kSeqs).symm⟩
  | cons pair rest ih =>
    obtain ⟨kSeq, ackedTs⟩ := pair
    unfold kLoop
    split
    · exact ⟨[], rfl, rfl, (List.append_nil kSeqs).symm⟩
    · obtain ⟨taken, hrest, hframes, hseqs⟩ :=
        ih (rel.queue (buildK kSeq (mid + 1) ackedTs) flagsaGba now).1
          (kSeqs ++ [(rel.queue (buildK kSeq (mid + 1) ackedTs) flagsaGba now).2]) (mid + 1)
      refine ⟨(kSeq, ackedTs) :: taken, congrArg ((kSeq, ackedTs) :: ·) hrest,
        congrArg (buildK kSeq (mid + 1) ackedTs :: ·) hframes, ?_⟩
      rw [hseqs, List.append_assoc]
      rfl

theorem map_kFrames {frames : List (BitVec 16 × Bytes)} {mid : Nat} {taken : List (Nat × Nat)}
    (h : frames.map Prod.snd = kFrames mid taken) :
    (frames.map fun frame => (flagsaGba, frame.2)) =
      (kFrames mid taken).map fun frame => (flagsaGba, frame) := by
  rw [← h, List.map_map]
  rfl

/-- It takes no more than a VBlank and the window have room for. -/
theorem kLoop_bounds (rel : ReliableLink Time Bytes) {kSeqs : List (BitVec 16)} {mid : Nat}
    (pending : List (Nat × Nat)) (hmid : mid ≤ kPerVblank) (hkSeqs : kSeqs.length ≤ kInflightMax) :
    mid + (kLoop now rel kSeqs mid pending).frames.length ≤ kPerVblank ∧
      (kLoop now rel kSeqs mid pending).kSeqs.length ≤ kInflightMax := by
  induction pending generalizing rel kSeqs mid with
  | nil => exact ⟨hmid, hkSeqs⟩
  | cons pair rest ih =>
    obtain ⟨kSeq, ackedTs⟩ := pair
    unfold kLoop
    split
    · exact ⟨hmid, hkSeqs⟩
    · rename_i hroom
      have hone : mid + 1 ≤ kPerVblank := by omega
      have hseq : (kSeqs ++ [(rel.queue (buildK kSeq (mid + 1) ackedTs) flagsaGba now).2]).length ≤
          kInflightMax := by
        rw [List.length_append, List.length_singleton]
        omega
      obtain ⟨hcount, hlength⟩ :=
        ih (rel.queue (buildK kSeq (mid + 1) ackedTs) flagsaGba now).1 hone hseq
      refine ⟨?_, hlength⟩
      rw [List.length_cons]
      omega

/-- A batch: what is sent again, the `K` frames, at most one slot, and an acknowledgement. -/
theorem driveBatch_ok [Clock Time] {driven : Driven Time} (h : s.driveBatch now = .ok driven) :
    ∃ due k sloted, due = s.rel.dueRetransmits now (some s.rtxLimit) ∧
      k = kLoop now due.1 (s.kSeqs.filter (· ∈ due.1.unacked.keys)) 0 s.pendingK ∧
      driveT { s.setRel k.rel with kSeqs := k.kSeqs, pendingK := k.rest } now = .ok sloted ∧
      SameLink sloted.sim driven.sim ∧ driven.sim.voice = sloted.sim.voice ∧
      driven.queued = k.frames.map (fun frame => (flagsaGba, frame.2)) ++ sloted.queued ∧
      ∃ acks : List BatchFrame,
        (acks = [] ∨ acks = [(none, flagsaCtrl, driven.sim.rel.ackPayload)]) ∧
        driven.batch = (due.2.take reliableBatchMax).map (fun frame => (some frame.1, frame.2)) ++
          k.frames.map (fun frame => (some frame.1, flagsaGba, frame.2)) ++ sloted.batch ++
          acks := by
  obtain ⟨due, hdue⟩ : ∃ due, due = s.rel.dueRetransmits now (some s.rtxLimit) := ⟨_, rfl⟩
  obtain ⟨k, hk⟩ : ∃ k,
      k = kLoop now due.1 (s.kSeqs.filter (· ∈ due.1.unacked.keys)) 0 s.pendingK := ⟨_, rfl⟩
  rw [driveBatch] at h
  simp only [← hdue, ← hk] at h
  cases hsloted : driveT { s.setRel k.rel with kSeqs := k.kSeqs, pendingK := k.rest } now with
  | error fault =>
    rw [hsloted] at h
    cases h
  | ok sloted =>
    rw [hsloted] at h
    obtain ⟨hsame, hvoice, hbatch⟩ := sloted.sim.driveAck_spec
      ((due.2.take reliableBatchMax).map (fun frame => (some frame.1, frame.2)) ++
        k.frames.map (fun frame => (some frame.1, flagsaGba, frame.2)) ++ sloted.batch)
    cases h
    refine ⟨due, k, sloted, hdue, hk, hsloted, hsame, hvoice, rfl, ?_⟩
    rcases hbatch with hbatch | hbatch
    · exact ⟨[], .inl rfl, by rw [List.append_nil]; exact hbatch⟩
    · refine ⟨_, .inr rfl, ?_⟩
      show _ = _ ++ [(none, flagsaCtrl, (sloted.sim.driveAck _).1.rel.ackPayload)]
      rw [hsame.rel]
      exact hbatch

/-- A call opens the stream, asks for the connection, or sends a batch. -/
theorem driveReliable_cases [Clock Time] {driven : Driven Time}
    (h : s.driveReliable now = .ok driven) :
    (s.relOpened = false ∧
        driven = { s.open_ metadataFrame flagsaInit now with
          sim := { (s.open_ metadataFrame flagsaInit now).sim with relOpened := true } }) ∨
      (s.relOpened = true ∧ s.gbaConnSent = false ∧ ∃ connectId frame,
        s.connectId = some connectId ∧ buildConnect connectId = some frame ∧
        driven = { s.open_ frame flagsaGba now with
          sim := { (s.open_ frame flagsaGba now).sim with gbaConnSent := true } }) ∨
      s.relOpened = true ∧ (s.connectId = none ∨ s.gbaConnSent = true) ∧
        s.driveBatch now = .ok driven := by
  unfold driveReliable at h
  cases hopened : s.relOpened with
  | false =>
    rw [hopened, if_pos rfl, Except.ok.injEq] at h
    exact .inl ⟨rfl, h.symm⟩
  | true =>
    rw [hopened, if_neg (by decide)] at h
    cases hid : s.connectId with
    | none =>
      rw [hid] at h
      exact .inr (.inr ⟨rfl, .inl rfl, h⟩)
    | some connectId =>
      rw [hid] at h
      simp only at h
      cases hsent : s.gbaConnSent with
      | true =>
        rw [hsent, if_pos rfl] at h
        exact .inr (.inr ⟨rfl, .inr rfl, h⟩)
      | false =>
        rw [hsent, if_neg (by decide)] at h
        cases hframe : buildConnect connectId with
        | none =>
          rw [hframe] at h
          cases h
        | some frame =>
          rw [hframe, Except.ok.injEq] at h
          exact .inr (.inl ⟨rfl, rfl, connectId, frame, rfl, hframe, h.symm⟩)

/-! ## What the host says -/

theorem voice_noteNi (s : ChildSim Time) (ni : Option (Llsf × Bytes)) :
    (s.noteNi ni).voice =
        { s.voice with
          curNiAck := (ni.bind fun ni => if ni.1.ack ≠ 0 then none else NiReceiver.ackOf ni.1).or
            s.curNiAck } ∧
      SameLink s (s.noteNi ni) := by
  have hstatus : ∀ s : ChildSim Time, s.noteStatus.voice = s.voice ∧ SameLink s s.noteStatus := by
    intro s
    unfold noteStatus
    split
    · exact ⟨rfl, .refl s⟩
    · split
      · exact ⟨rfl, .refl s⟩
      · exact ⟨rfl, ⟨⟨rfl, rfl, rfl, rfl⟩, rfl⟩⟩
  cases ni with
  | none => exact ⟨rfl, .refl s⟩
  | some ni =>
    have hack : (s.niRecv.onHostNi (some ni)).2 =
        if ni.1.ack ≠ 0 then none else NiReceiver.ackOf ni.1 := by
      unfold NiReceiver.onHostNi
      simp only
      split <;> rfl
    unfold noteNi
    simp only
    obtain ⟨hvoice, hsame⟩ := hstatus { s with
      niRecv := (s.niRecv.onHostNi (some ni)).1
      curNiAck := (s.niRecv.onHostNi (some ni)).2.or s.curNiAck }
    refine ⟨hvoice.trans ?_, ⟨⟨hsame.handed, hsame.kSeqs, hsame.acking, hsame.opening⟩, hsame.rel⟩⟩
    show { s.voice with curNiAck := (s.niRecv.onHostNi (some ni)).2.or s.curNiAck } = _
    rw [hack]
    rfl

theorem acking_queueKAck (s : ChildSim Time) (ts : Option Nat) :
    (s.queueKAck ts).acking = s.acking.accept ts ∧ (s.queueKAck ts).voice = s.voice ∧
      (s.queueKAck ts).receive = s.receive ∧ (s.queueKAck ts).kSeqs = s.kSeqs ∧
      (s.queueKAck ts).opening = s.opening := by
  cases ts with
  | none => exact ⟨rfl, rfl, rfl, rfl, rfl⟩
  | some ts =>
    by_cases hseen : ts ∈ s.ackedTs
    · have hkeep : s.acking.accept (some ts) = s.acking := if_pos hseen
      rw [queueKAck, if_pos hseen, hkeep]
      exact ⟨rfl, rfl, rfl, rfl, rfl⟩
    · by_cases hfull : kBacklogMax ≤ s.pendingK.length
      · have hkeep : s.acking.accept (some ts) = s.acking := (if_neg hseen).trans (if_pos hfull)
        rw [queueKAck, if_neg hseen, if_pos hfull, hkeep]
        exact ⟨rfl, rfl, rfl, rfl, rfl⟩
      · have hmore : s.acking.accept (some ts) = ⟨s.kSeq + 1, remember ackedLimit s.ackedTs ts,
            s.pendingK ++ [(s.kSeq + 1, ts)]⟩ := (if_neg hseen).trans (if_neg hfull)
        rw [queueKAck, if_neg hseen, if_neg hfull, hmore]
        exact ⟨rfl, rfl, rfl, rfl, rfl⟩

/-- A `T` frame is acknowledged in two ways before the engine is fed. -/
theorem hearT_spec (s : ChildSim Time) (frame : HostT) :
    (s.hearT frame).voice = s.voice.hear (some (.t frame)) ∧
      (s.hearT frame).acking = s.acking.hear (some (.t frame)) ∧
      (s.hearT frame).receive.handed = s.receive.handed ∧ (s.hearT frame).rel = s.rel ∧
      (s.hearT frame).kSeqs = s.kSeqs ∧ (s.hearT frame).opening = s.opening := by
  obtain ⟨hacking, hvoice, hreceive, hkSeqs, hopening⟩ := s.acking_queueKAck frame.ts
  obtain ⟨hvoice', hsame⟩ := (s.queueKAck frame.ts).voice_noteNi frame.ni
  have huni : ((s.queueKAck frame.ts).noteNi frame.ni).hostUniSeen = s.hostUniSeen :=
    (congrArg Voice.hostUniSeen hvoice').trans (congrArg Voice.hostUniSeen hvoice)
  have hcur : (s.queueKAck frame.ts).curNiAck = s.curNiAck := congrArg Voice.curNiAck hvoice
  refine ⟨?_, hsame.acking.trans hacking, hsame.handed.trans (congrArg TunnelSim.handed hreceive),
    hsame.rel.trans (congrArg TunnelSim.rel hreceive), hsame.kSeqs.trans hkSeqs,
    hsame.opening.trans hopening⟩
  show { ((s.queueKAck frame.ts).noteNi frame.ni).voice with
    hostUniSeen := ((s.queueKAck frame.ts).noteNi frame.ni).hostUniSeen ||
      decide (frame.llsfState = some lcomUni) } = _
  rw [huni, hvoice', hvoice, hcur]
  rfl

theorem feed_ok {positional : List (Nat × Bytes)} (h : s.feed positional = .ok s') :
    s'.voice = s.voice ∧ SameLink s s' := by
  unfold feed at h
  split at h
  · cases h
  · cases h
    exact ⟨rfl, ⟨⟨rfl, rfl, rfl, rfl⟩, rfl⟩⟩

/-- What is not marked as a frame is not parsed. -/
theorem parseIn_of_unmarked {payload : Bytes} (h : payload.take 1 ≠ [gbaMarker]) :
    parseIn payload = none := by
  have hfirst : payload.getD 0 0 ≠ gbaMarker := by
    cases payload with
    | nil => decide
    | cons first rest =>
      intro heq
      exact h (congrArg ([·]) heq)
  rw [parseIn, if_pos (by simp only [hfirst, decide_true, Bool.or_true, ne_eq, not_false_eq_true])]

/-- A frame that is handed to the driver. -/
theorem onReliableApp_ok {payload : Bytes} (h : s.onReliableApp payload = .ok s') :
    s'.voice = s.voice.hear (parseIn payload) ∧ s'.acking = s.acking.hear (parseIn payload) ∧
      s'.receive.handed = s.receive.handed ∧ s'.rel = s.rel ∧ s'.kSeqs = s.kSeqs ∧
      s'.opening = s.opening := by
  unfold onReliableApp at h
  by_cases hmarker : payload.take 1 = [gbaMarker]
  · rw [if_pos hmarker, onGbaIn] at h
    cases hparsed : parseIn payload with
    | none =>
      rw [hparsed] at h
      cases h
      exact ⟨rfl, rfl, rfl, rfl, rfl, rfl⟩
    | some frame =>
      rw [hparsed] at h
      cases frame with
      | a hostSessionId connectId => cases h; exact ⟨rfl, rfl, rfl, rfl, rfl, rfl⟩
      | c connectId => cases h; exact ⟨rfl, rfl, rfl, rfl, rfl, rfl⟩
      | k kSeq ackedTs => cases h; exact ⟨rfl, rfl, rfl, rfl, rfl, rfl⟩
      | other typ => cases h; exact ⟨rfl, rfl, rfl, rfl, rfl, rfl⟩
      | t frame =>
        obtain ⟨hvoice, hacking, hhanded, hrel, hkSeqs, hopening⟩ := s.hearT_spec frame
        obtain ⟨hvoice', hsame⟩ := feed_ok h
        exact ⟨hvoice'.trans hvoice, hsame.acking.trans hacking, hsame.handed.trans hhanded,
          hsame.rel.trans hrel, hsame.kSeqs.trans hkSeqs, hsame.opening.trans hopening⟩
  · rw [if_neg hmarker] at h
    cases h
    rw [parseIn_of_unmarked hmarker]
    exact ⟨rfl, rfl, rfl, rfl, rfl, rfl⟩

/-- What the receive path is called with. -/
theorem handed_onReliable [Clock Time] (sim : TunnelSim Time) (seq : BitVec 16) (flagsA : UInt8)
    (payload : Bytes) (now : Option Time) :
    (sim.onReliable seq flagsA payload now).handed =
      if flagsA &&& 1 ≠ 0 ∧ ({ sim with ackOwed := true }.noteInSeq seq).2 = true then
        sim.handed ++ [(flagsA, payload)]
      else sim.handed := by
  have hnote : ({ sim with ackOwed := true }.noteInSeq seq).1.handed = sim.handed := by
    unfold TunnelSim.noteInSeq
    split
    · rfl
    · split <;> rfl
  unfold TunnelSim.onReliable
  by_cases hflags : flagsA &&& 1 ≠ 0
  · rw [if_pos hflags]
    cases hfresh : ({ sim with ackOwed := true }.noteInSeq seq).2 with
    | true =>
      simp only [hfresh, if_true]
      rw [if_pos ⟨hflags, trivial⟩]
      exact congrArg (· ++ [(flagsA, payload)]) hnote
    | false =>
      simp only [hfresh, Bool.false_eq_true, if_false, and_false]
      exact hnote
  · rw [if_neg hflags, if_neg (fun h => hflags h.1)]

/-- A message of the host is an acknowledgement, a frame there was, or one that is heard. -/
theorem onReliable_cases [Clock Time] {seq : BitVec 16} {flagsA : UInt8} {payload : Bytes}
    (h : s.onReliable seq flagsA payload now = .ok s') :
    s'.kSeqs = s.kSeqs ∧ s'.opening = s.opening ∧
      s'.rel = (s.receive.onReliable seq flagsA payload (some now)).rel ∧
      (s'.receive.handed = s.receive.handed ∧ s'.voice = s.voice ∧ s'.acking = s.acking ∨
        s'.receive.handed = s.receive.handed ++ [(flagsA, payload)] ∧
          s'.voice = s.voice.hear (parseIn payload) ∧
          s'.acking = s.acking.hear (parseIn payload)) := by
  have hhanded := handed_onReliable s.receive seq flagsA payload (some now)
  unfold onReliable at h
  simp only at h
  by_cases hfresh : flagsA &&& 1 ≠ 0 ∧ ({ s.receive with ackOwed := true }.noteInSeq seq).2 = true
  · rw [if_pos hfresh] at h hhanded
    obtain ⟨hvoice, hacking, hreceive, hrel, hkSeqs, hopening⟩ := onReliableApp_ok h
    exact ⟨hkSeqs, hopening, hrel, .inr ⟨hreceive.trans hhanded, hvoice, hacking⟩⟩
  · rw [if_neg hfresh] at h hhanded
    cases h
    exact ⟨rfl, rfl, rfl, .inl ⟨hhanded, rfl, rfl⟩⟩

end ChildSim

/-! ## The steps of a run -/

/-- The same window, whatever round trips were measured. -/
structure SameWindow (rel rel' : ReliableLink Time Bytes) : Prop where
  outSeq : rel'.outSeq = rel.outSeq
  windowLo : rel'.windowLo = rel.windowLo
  unacked : rel'.unacked = rel.unacked
  maxInflight : rel'.maxInflight = rel.maxInflight

/-- A step queues nothing, hears a message or drives the link. -/
theorem Child.step_cases [Clock Time] {w w' : Child Time} {label : ChildLabel Time}
    (h : w.step label = some w') :
    (w'.queued = w.queued ∧ w'.sent = w.sent ∧ w.sim.SameSides w'.sim ∧
        w'.sim.voice = w.sim.voice ∧ SameWindow w.sim.rel w'.sim.rel) ∨
      (∃ seq flagsA payload now sim, w.sim.onReliable seq flagsA payload now = .ok sim ∧
        w' = { w with sim }) ∨
      ∃ now driven, w.sim.driveReliable now = .ok driven ∧
        w' = ⟨driven.sim, w.queued ++ driven.queued, w.sent ++ [driven.batch]⟩ := by
  cases label with
  | vblank =>
    cases h
    exact .inl ⟨rfl, rfl, ⟨rfl, rfl, rfl, rfl⟩, rfl, ⟨rfl, rfl, rfl, rfl⟩⟩
  | message seq flagsA payload now =>
    rw [step] at h
    cases hsim : w.sim.onReliable seq flagsA payload now with
    | error fault =>
      rw [hsim] at h
      cases h
    | ok sim =>
      rw [hsim] at h
      exact .inr (.inl ⟨seq, flagsA, payload, now, sim, hsim, (Option.some.inj h).symm⟩)
  | rttSample sample =>
    cases h
    exact .inl ⟨rfl, rfl, ⟨rfl, rfl, rfl, rfl⟩, rfl, ⟨rfl, rfl, rfl, rfl⟩⟩
  | applyRemote msgType payload =>
    rw [step] at h
    split at h
    · cases h
    · cases h
      exact .inl ⟨rfl, rfl, ⟨rfl, rfl, rfl, rfl⟩, rfl, ⟨rfl, rfl, rfl, rfl⟩⟩
  | drive now =>
    rw [step] at h
    split at h
    · cases h
    · rename_i driven hdriven
      exact .inr (.inr ⟨now, driven, hdriven, (Option.some.inj h).symm⟩)
  | sit =>
    cases h
    exact .inl ⟨rfl, rfl, ⟨rfl, rfl, rfl, rfl⟩, rfl, ⟨rfl, rfl, rfl, rfl⟩⟩
  | exit =>
    cases h
    exact .inl ⟨rfl, rfl, ⟨rfl, rfl, rfl, rfl⟩, rfl, ⟨rfl, rfl, rfl, rfl⟩⟩
  | noteSelfSeated =>
    cases h
    exact .inl ⟨rfl, rfl, ⟨rfl, rfl, rfl, rfl⟩, rfl, ⟨rfl, rfl, rfl, rfl⟩⟩

end SwitchTrade.Sim

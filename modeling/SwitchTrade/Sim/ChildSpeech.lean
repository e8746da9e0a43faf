import SwitchTrade.Sim.ChildSteps
import SwitchTrade.Trade.Rounds

/-!
# What a child says

The `T` frames a child queues, read with `parse_out` as a parent reads them: first the slots of its
own NI data, then an acknowledgement for each sub-frame of the host it comes to, and commands only
after the host has sent one (`child_speaks_in_turn`). The order holds in every run, however the
frames of the host, the remote peer and the calls of the main loop are interleaved.
-/

namespace SwitchTrade.Sim

open Rfu Trade Transition
open Reliable hiding Bytes

universe u

variable {Time : Type u}

/-! ## What is read -/

/-- The `T` frames among what a child queued. -/
def readT (queued : List (UInt8 × Bytes)) : List ChildT := queued.filterMap fun f => parseOut f.2

/-- The frames of the host that a child was handed. -/
def heardFrames (handed : List (UInt8 × Bytes)) : List InFrame :=
  handed.filterMap fun f => parseIn f.2

def hostT : InFrame → Option HostT
  | .t frame => some frame
  | _ => none

/-- The acknowledgements the host asks for, in order. -/
def acksAsked (heard : List InFrame) : List Bytes := (heard.filterMap hostT).filterMap ackAsked

/-- The idle slot of a child. -/
def idleCmd : Bytes := wordsToSlot []

/-- The `T` frames of a child that was handed the frames: its own slots, its acknowledgements, its
commands. -/
structure Speech (lp : LinkPlayer) (heard : List InFrame) (read : List ChildT)
    (own acks cmds : List Bytes) : Prop where
  slots : read.map ChildT.slot = own ++ acks ++ cmds.filterMap uniSlot
  commands : read.filterMap ChildT.cmd = cmds
  stamps : read.map ChildT.ts = (List.range read.length).map fun i => (tsSeed + i) % 2 ^ 32
  accepted : read ≠ [] → ∃ hostSessionId connectId, .a hostSessionId connectId ∈ heard
  beginning : own <+: NiSender.slotsOf (gameData lp) 12 1
  whole : acks ++ cmds ≠ [] → own = NiSender.slotsOf (gameData lp) 12 1
  asked : acks.Sublist (acksAsked heard)
  apart : acks.IsChain (· ≠ ·)
  uni : cmds ≠ [] → ∃ frame, .t frame ∈ heard ∧ frame.llsfState = some lcomUni
  tags : (cmds.filter (· ≠ idleCmd)).map tagOf =
    (List.range (cmds.filter (· ≠ idleCmd)).length).map (· % 8)

/-! ## What has been said of a voice -/

/-- What has been said, in so far as the next slot depends on it. -/
structure Voiced (lp : LinkPlayer) (heard : List InFrame) (v : Voice) (own acks cmds : List Bytes) :
    Prop where
  player : v.linkPlayer = lp
  accepted : v.gbaAccepted = true → ∃ hostSessionId connectId, .a hostSessionId connectId ∈ heard
  spoke : own ≠ [] → v.gbaAccepted = true
  sending : NiSender.Sending (gameData lp) own v.sender
  whole : acks ++ cmds ≠ [] → v.sender.state = .done
  turned : cmds ≠ [] → v.niDone = true
  done : v.niDone = true → v.sender.state = .done ∧ v.hostUniSeen = true
  cur : v.curNiAck = (acksAsked heard).getLast?
  last : v.niAckBytes = acks.getLast?
  asked : ∃ older newer, acksAsked heard = older ++ newer ∧ acks.Sublist older ∧
    older.getLast? = acks.getLast?
  apart : acks.IsChain (· ≠ ·)
  uni : v.hostUniSeen = true → ∃ frame, .t frame ∈ heard ∧ frame.llsfState = some lcomUni
  tag : v.tag = (cmds.filter (· ≠ idleCmd)).length % 8
  tags : (cmds.filter (· ≠ idleCmd)).map tagOf =
    (List.range (cmds.filter (· ≠ idleCmd)).length).map (· % 8)

theorem gameData_ne_nil (lp : LinkPlayer) : gameData lp ≠ [] := by
  intro h
  have hlength := congrArg List.length h
  simp only [gameData, buildGameData, List.length_append, LittleEndian.length_toBytes,
    List.length_nil] at hlength
  omega

/-- What is heard takes no stamp. -/
theorem Voice.hear_ts (v : Voice) (parsed : Option InFrame) : (v.hear parsed).ts = v.ts := by
  cases parsed with
  | none => rfl
  | some frame => cases frame <;> rfl

namespace Voiced

variable {lp : LinkPlayer} {heard : List InFrame} {v v' : Voice} {own acks cmds : List Bytes}

theorem new (lp : LinkPlayer) : Voiced lp []
    { linkPlayer := lp
      gbaAccepted := false
      sender := NiSender.new (gameData lp)
      niDone := false
      curNiAck := none
      niAckBytes := none
      hostUniSeen := false
      tag := 0
      ts := tsSeed } [] [] [] where
  player := rfl
  accepted := fun h => absurd h Bool.false_ne_true
  spoke := fun h => absurd rfl h
  sending := .new
  whole := fun h => absurd rfl h
  turned := fun h => absurd rfl h
  done := fun h => absurd h Bool.false_ne_true
  cur := rfl
  last := rfl
  asked := ⟨[], [], rfl, .slnil, rfl⟩
  apart := .nil
  uni := fun h => absurd h Bool.false_ne_true
  tag := rfl
  tags := rfl

theorem own_isPrefix (h : Voiced lp heard v own acks cmds) :
    own <+: NiSender.slotsOf (gameData lp) 12 1 := (h.sending.isPrefix (gameData_ne_nil lp)).1

theorem own_whole (h : Voiced lp heard v own acks cmds) (hdone : v.sender.state = .done) :
    own = NiSender.slotsOf (gameData lp) 12 1 := (h.sending.isPrefix (gameData_ne_nil lp)).2 hdone

/-! ## Hearing -/

theorem acksAsked_snoc {frame : InFrame} : acksAsked (heard ++ [frame]) =
    acksAsked heard ++ ((hostT frame).bind ackAsked).toList := by
  unfold acksAsked
  rw [List.filterMap_append, List.filterMap_append]
  cases hframe : hostT frame with
  | none => simp [hframe]
  | some t =>
    cases hask : ackAsked t with
    | none => simp [hframe, hask]
    | some ack => simp [hframe, hask]

/-- What a frame changes, and that what was heard before it stays heard. -/
theorem hear (h : Voiced lp heard v own acks cmds) (frame : InFrame) :
    Voiced lp (heard ++ [frame]) (v.hear (some frame)) own acks cmds := by
  have hmem : ∀ f ∈ heard, f ∈ heard ++ [frame] := fun f hf => List.mem_append_left _ hf
  have haccepted : v.gbaAccepted = true →
      ∃ hostSessionId connectId, .a hostSessionId connectId ∈ heard ++ [frame] := by
    intro hacc
    obtain ⟨a, b, hab⟩ := h.accepted hacc
    exact ⟨a, b, hmem _ hab⟩
  have huni : v.hostUniSeen = true →
      ∃ f, .t f ∈ heard ++ [frame] ∧ f.llsfState = some lcomUni := by
    intro hseen
    obtain ⟨f, hf, hstate⟩ := h.uni hseen
    exact ⟨f, hmem _ hf, hstate⟩
  obtain ⟨older, newer, hsplit, hsub, hlast⟩ := h.asked
  have hasked : ∃ older newer, acksAsked (heard ++ [frame]) = older ++ newer ∧
      acks.Sublist older ∧ older.getLast? = acks.getLast? :=
    ⟨older, newer ++ ((hostT frame).bind ackAsked).toList,
      by rw [acksAsked_snoc, hsplit, List.append_assoc], hsub, hlast⟩
  have hcur : ((hostT frame).bind ackAsked).or v.curNiAck =
      (acksAsked (heard ++ [frame])).getLast? := by
    rw [acksAsked_snoc, h.cur]
    cases (hostT frame).bind ackAsked with
    | none => simp
    | some ack => simp
  cases frame with
  | a hostSessionId connectId =>
    exact { h with
      accepted := fun _ => ⟨hostSessionId, connectId, by simp⟩
      spoke := fun _ => rfl
      cur := hcur
      asked := hasked
      uni := huni }
  | t frame =>
    exact { h with
      accepted := haccepted
      done := fun hdone => ⟨(h.done hdone).1, by
        show (v.hostUniSeen || _) = true
        rw [(h.done hdone).2, Bool.true_or]⟩
      cur := hcur
      asked := hasked
      uni := by
        intro hseen
        rcases Bool.or_eq_true_iff.mp hseen with hold | hnew
        · exact huni hold
        · exact ⟨frame, by simp, of_decide_eq_true hnew⟩ }
  | c connectId => exact { h with accepted := haccepted, cur := hcur, asked := hasked, uni := huni }
  | k kSeq ackedTs =>
    exact { h with accepted := haccepted, cur := hcur, asked := hasked, uni := huni }
  | other typ => exact { h with accepted := haccepted, cur := hcur, asked := hasked, uni := huni }

/-! ## Saying -/

theorem sayOwn (h : Voiced lp heard v own acks cmds) (haccepted : v.gbaAccepted = true)
    (hstate : v.sender.state ≠ .done) {slot : Bytes} {next : NiSender} {ts : Nat}
    (hcall : v.sender.nextSlot windowCount = some (some slot, next)) :
    acks = [] ∧ cmds = [] ∧
      Voiced lp heard { v with sender := next, ts := ts } (own ++ [slot]) acks cmds := by
  have hnil : acks ++ cmds = [] := by
    by_contra hne
    exact hstate (h.whole hne)
  obtain ⟨hacks, hcmds⟩ := List.append_eq_nil_iff.mp hnil
  have hnot : v.niDone ≠ true := fun hdone => hstate (h.done hdone).1
  exact ⟨hacks, hcmds, { h with
    spoke := fun _ => haccepted
    sending := h.sending.call hcall
    whole := fun hne => absurd hnil hne
    done := fun hdone => absurd hdone hnot }⟩

theorem sayAck (h : Voiced lp heard v own acks cmds) (hdone : v.niDone = false)
    (hstate : v.sender.state = .done) {ack : Bytes} {ts : Nat} (hcur : v.curNiAck = some ack)
    (hnew : v.niAckBytes ≠ some ack) :
    cmds = [] ∧ ack ∈ acksAsked heard ∧
      Voiced lp heard { v with niAckBytes := some ack, ts := ts } own (acks ++ [ack]) cmds := by
  have hcmds : cmds = [] := by
    by_contra hne
    rw [h.turned hne] at hdone
    cases hdone
  have hasked : (acksAsked heard).getLast? = some ack := h.cur.symm.trans hcur
  have hlast : acks.getLast? ≠ some ack := by rwa [← h.last]
  obtain ⟨older, newer, hsplit, hsub, hsame⟩ := h.asked
  -- The acknowledgement that is asked for last is not the one that was given last, so it was asked
  -- for later.
  have hlater : newer.getLast? = some ack := by
    rw [hsplit, List.getLast?_append] at hasked
    cases hnewer : newer.getLast? with
    | none =>
      rw [hnewer, Option.none_or, hsame] at hasked
      exact absurd hasked hlast
    | some other =>
      rw [hnewer, Option.some_or] at hasked
      exact hasked
  refine ⟨hcmds, List.mem_of_getLast? hasked, { h with
    whole := fun _ => hstate
    last := by rw [List.getLast?_append]; rfl
    asked := ⟨acksAsked heard, [], (List.append_nil _).symm, ?_, ?_⟩
    apart := ?_ }⟩
  · rw [hsplit]
    exact hsub.append (List.singleton_sublist.mpr (List.mem_of_getLast? hlater))
  · rw [hasked, List.getLast?_append]
    rfl
  · rw [List.isChain_append]
    refine ⟨h.apart, .singleton ack, ?_⟩
    intro x hx y hy
    rw [List.head?_cons, Option.mem_some_iff] at hy
    rintro rfl
    rw [hy] at hlast
    exact hlast hx

theorem sayCommand (h : Voiced lp heard v own acks cmds) {cmd14 : Bytes} {tag ts : Nat}
    (huni : v.niDone = true ∨ v.sender.state = .done ∧ v.hostUniSeen = true)
    (hcmd : Command v.tag cmd14 tag) :
    Voiced lp heard { v with niDone := true, tag := tag, ts := ts } own acks (cmds ++ [cmd14]) := by
  have hboth : v.sender.state = .done ∧ v.hostUniSeen = true := by
    rcases huni with hdone | hboth
    · exact h.done hdone
    · exact hboth
  have htags : tag = ((cmds ++ [cmd14]).filter (· ≠ idleCmd)).length % 8 ∧
      ((cmds ++ [cmd14]).filter (· ≠ idleCmd)).map tagOf =
        (List.range ((cmds ++ [cmd14]).filter (· ≠ idleCmd)).length).map (· % 8) := by
    rw [List.filter_append]
    cases hcmd with
    | idle =>
      have hidle : [idleCmd].filter (· ≠ idleCmd) = [] := by simp
      show _ = ((_ : List Bytes) ++ [idleCmd].filter (· ≠ idleCmd)).length % 8 ∧
        ((_ : List Bytes) ++ [idleCmd].filter (· ≠ idleCmd)).map tagOf =
          (List.range ((_ : List Bytes) ++ [idleCmd].filter (· ≠ idleCmd)).length).map (· % 8)
      rw [hidle, List.append_nil]
      exact ⟨h.tag, h.tags⟩
    | tagged words hwords hfree =>
      have hne : words ≠ [] := by
        rintro rfl
        exact hwords rfl
      have hbusy : [buildSlot v.tag words].filter (· ≠ idleCmd) = [buildSlot v.tag words] := by
        simp [idleCmd, buildSlot_ne_idle hwords]
      have htag : v.tag < 8 := by
        rw [h.tag]
        exact Nat.mod_lt _ (by decide)
      have hmask : (v.tag + 1) &&& 7 = (v.tag + 1) % 8 := Nat.and_two_pow_sub_one_eq_mod _ 3
      rw [hbusy, List.length_append, List.length_singleton]
      constructor
      · rw [hmask, h.tag]
        omega
      · rw [List.map_append, List.range_succ, List.map_append, h.tags, List.map_singleton,
          List.map_singleton, tagOf_buildSlot hne hfree htag, h.tag]
  exact { h with
    whole := fun _ => hboth.1
    turned := fun _ => rfl
    done := fun _ => hboth
    tag := htags.1
    tags := htags.2 }

/-- A frame that is handed over, parsed or not. -/
theorem hearPayload (h : Voiced lp heard v own acks cmds) (parsed : Option InFrame) :
    Voiced lp (heard ++ parsed.toList) (v.hear parsed) own acks cmds := by
  cases parsed with
  | none =>
    rw [Option.toList_none, List.append_nil]
    exact h
  | some frame => exact h.hear frame

end Voiced

/-! ## Reading -/

/-- A slot of a child that is no command. -/
theorem cmd_of_other {slot : Bytes} {ts : Nat} (h : (parseLlsfChild slot).state ≠ lcomUni) :
    (parseChildSlot ts slot.length slot).cmd = none := by
  unfold parseChildSlot
  split
  · exact if_neg h
  · rfl

theorem slot_parseChildSlot {slot : Bytes} {ts n : Nat} :
    (parseChildSlot ts n slot).slot = slot ∧ (parseChildSlot ts n slot).ts = ts := by
  unfold parseChildSlot
  split <;> exact ⟨rfl, rfl⟩

/-- The slots of NI data are short, and none of them is a command. -/
theorem slot_of_mem_slotsOf {src slot : Bytes} (h : slot ∈ NiSender.slotsOf src 12 1) :
    slot.length < 256 ∧ (parseLlsfChild slot).state ≠ lcomUni := by
  have hemit : ∀ {state n phase size : Nat} {payload : Bytes}, payload.length ≤ 12 →
      (NiSender.emit state n phase size payload).length < 256 := by
    intro state n phase size payload hpayload
    rw [NiSender.emit, List.length_append, length_childNiLlsf]
    omega
  have hstate : ∀ {state n phase size : Nat} {payload : Bytes}, state < 4 →
      (parseLlsfChild (NiSender.emit state n phase size payload)).state ≠ lcomUni := by
    intro state n phase size payload hlt
    rw [NiSender.reads_emit]
    unfold lcomUni
    simp only
    omega
  rw [NiSender.slotsOf, List.mem_cons, List.mem_append] at h
  rcases h with rfl | h | h
  · refine ⟨hemit ?_, hstate (by decide)⟩
    simp only [niHeader, List.length_cons, List.length_append, LittleEndian.length_toBytes]
    omega
  · obtain ⟨j, -, rfl⟩ := List.mem_map.mp h
    refine ⟨hemit ?_, hstate (by decide)⟩
    rw [Chunks.chunk, List.length_take]
    omega
  · simp only [NiSender.ending, List.mem_cons, List.not_mem_nil, or_false] at h
    rcases h with rfl | rfl
    · exact ⟨hemit (by decide), hstate (by decide)⟩
    · exact ⟨hemit (by decide), hstate (by decide)⟩

theorem slot_of_mem_acksAsked {heard : List InFrame} {ack : Bytes} (h : ack ∈ acksAsked heard) :
    ack.length < 256 ∧ (parseLlsfChild ack).state ≠ lcomUni := by
  obtain ⟨frame, -, hask⟩ := List.mem_filterMap.mp h
  obtain ⟨ni, -, hack⟩ := Option.bind_eq_some_iff.mp hask
  split at hack
  · cases hack
  · unfold NiReceiver.ackOf at hack
    split at hack
    · rename_i hstate
      cases hack
      rw [parseLlsfChild_recvAckSlot, recvAckSlot, length_childNiLlsf]
      refine ⟨by decide, ?_⟩
      show ni.1.state % 16 ≠ lcomUni
      rcases hstate with hstate | hstate | hstate <;> rw [hstate] <;> decide
    · cases hack

/-- A command is 14 bytes long, and is read back of its slot. -/
theorem slot_of_command {tag tag' : Nat} {cmd14 slot : Bytes} (h : Command tag cmd14 tag')
    (hslot : uniSlot cmd14 = some slot) :
    slot.length < 256 ∧ ∀ ts, (parseChildSlot ts slot.length slot).cmd = some cmd14 := by
  have hlength : cmd14.length = commSlotLength := by
    cases h with
    | idle => exact length_wordsToSlot []
    | tagged words => exact length_buildSlot
  rw [uniSlot, hlength, if_pos (by decide), Option.some.injEq] at hslot
  have hlong : slot.length = 16 := by
    rw [← hslot, List.length_append, LittleEndian.length_toBytes, hlength]
    rfl
  have htake : slot.take 2 = LittleEndian.toBytes 2 ((lcomUni <<< 10) ||| commSlotLength) := by
    rw [← hslot]
    exact List.take_left' LittleEndian.length_toBytes
  have hdrop : slot.drop 2 = cmd14 := by
    rw [← hslot]
    exact List.drop_left' LittleEndian.length_toBytes
  have hstate : (parseLlsfChild slot).state = lcomUni := by
    unfold parseLlsfChild
    rw [htake]
    decide
  refine ⟨by omega, ?_⟩
  intro ts
  rw [parseChildSlot, if_pos (by omega)]
  simp only [if_pos hstate]
  rw [hdrop, ← hlength, List.take_length]

theorem Voiced.say {lp : LinkPlayer} {heard : List InFrame} {v v' : Voice}
    {own acks cmds : List Bytes} {slot : Bytes} (h : Voiced lp heard v own acks cmds)
    (haccepted : v.gbaAccepted = true) (hspeaks : Says v slot v') :
    slot.length < 256 ∧ v'.ts = (v.ts + 1) &&& 0xFFFFFFFF ∧ ∃ own' acks' cmds',
      Voiced lp heard v' own' acks' cmds' ∧
      own' ++ acks' ++ cmds'.filterMap uniSlot = own ++ acks ++ cmds.filterMap uniSlot ++ [slot] ∧
      ∀ ts, cmds' = cmds ++ (parseChildSlot ts slot.length slot).cmd.toList := by
  cases hspeaks with
  | own hdone hstate hcall =>
    obtain ⟨rfl, rfl, hvoiced⟩ :=
      @sayOwn _ _ _ _ _ _ h haccepted hstate _ _ ((v.ts + 1) &&& 0xFFFFFFFF) hcall
    obtain ⟨hlength, hother⟩ := slot_of_mem_slotsOf
      (hvoiced.own_isPrefix.subset (List.mem_append_right _ (List.mem_singleton_self slot)))
    refine ⟨hlength, rfl, _, _, _, hvoiced, by simp, ?_⟩
    intro ts
    rw [cmd_of_other hother]
    rfl
  | ack hdone hstate hcur hnew =>
    obtain ⟨rfl, hmem, hvoiced⟩ :=
      @sayAck _ _ _ _ _ _ h hdone hstate _ ((v.ts + 1) &&& 0xFFFFFFFF) hcur hnew
    obtain ⟨hlength, hother⟩ := slot_of_mem_acksAsked hmem
    refine ⟨hlength, rfl, _, _, _, hvoiced, by simp, ?_⟩
    intro ts
    rw [cmd_of_other hother]
    rfl
  | command huni hcmd hslot =>
    obtain ⟨hlength, hcommand⟩ := slot_of_command hcmd hslot
    refine ⟨hlength, rfl, _, _, _, h.sayCommand huni hcmd, ?_, ?_⟩
    · simp [List.filterMap_append, hslot]
    · intro ts
      rw [hcommand ts]
      rfl

/-! ## Runs -/

/-- What a child has said of itself in a state of its run. -/
structure Spoken (lp : LinkPlayer) (w : Child Time) (own acks cmds : List Bytes) : Prop where
  voiced : Voiced lp (heardFrames w.sim.receive.handed) w.sim.voice own acks cmds
  slots : (readT w.queued).map ChildT.slot = own ++ acks ++ cmds.filterMap uniSlot
  commands : (readT w.queued).filterMap ChildT.cmd = cmds
  stamps : (readT w.queued).map ChildT.ts =
    (List.range (readT w.queued).length).map fun i => (tsSeed + i) % 2 ^ 32
  ts : w.sim.ts = (tsSeed + (readT w.queued).length) % 2 ^ 32

theorem heardFrames_snoc {handed : List (UInt8 × Bytes)} {flagsA : UInt8} {payload : Bytes} :
    heardFrames (handed ++ [(flagsA, payload)]) =
      heardFrames handed ++ (parseIn payload).toList := by
  rw [heardFrames, List.filterMap_append]
  rfl

theorem readT_append (queued more : List (UInt8 × Bytes)) :
    readT (queued ++ more) = readT queued ++ readT more := List.filterMap_append

/-- Frames of another type are not read. -/
theorem parseOut_of_type {frame data : Bytes} {ftype : UInt8} (h : Built ftype data frame)
    (hother : ftype ≠ typeT) : parseOut frame = none := by
  rw [parseOut, if_pos (by rw [h.type]; simp [hother])]

theorem readT_kFrames (mid : Nat) (taken : List (Nat × Nat)) :
    readT ((ChildSim.kFrames mid taken).map fun frame => (flagsaGba, frame)) = [] := by
  induction taken generalizing mid with
  | nil => rfl
  | cons pair rest ih =>
    obtain ⟨kSeq, ackedTs⟩ := pair
    rw [ChildSim.kFrames, List.map_cons, readT, List.filterMap_cons,
      parseOut_of_type buildK_built (by decide)]
    exact ih (mid + 1)

namespace Spoken

variable {lp : LinkPlayer} {w : Child Time} {own acks cmds : List Bytes}

/-- Another state that has heard and said the same. -/
theorem same (h : Spoken lp w own acks cmds) {sim : ChildSim Time} {more : List (UInt8 × Bytes)}
    {sent : List (List BatchFrame)} (hhanded : sim.receive.handed = w.sim.receive.handed)
    (hvoice : sim.voice = w.sim.voice) (hmore : readT more = []) :
    Spoken lp ⟨sim, w.queued ++ more, sent⟩ own acks cmds := by
  have hread : readT (w.queued ++ more) = readT w.queued := by
    rw [readT_append, hmore, List.append_nil]
  have hts : sim.ts = w.sim.ts := congrArg Voice.ts hvoice
  refine ⟨?_, ?_, ?_, ?_, ?_⟩ <;> simp only [hread, hhanded, hvoice, hts]
  · exact h.voiced
  · exact h.slots
  · exact h.commands
  · exact h.stamps
  · exact h.ts

/-- A slot that is said goes out in a `T` frame. -/
theorem say (h : Spoken lp w own acks cmds) {sim : ChildSim Time} {more : List (UInt8 × Bytes)}
    {sent : List (List BatchFrame)} {slot frame : Bytes}
    (hhanded : sim.receive.handed = w.sim.receive.handed) (hmore : readT more = [])
    (haccepted : w.sim.gbaAccepted = true) (hframe : Rfu.wrapT slot w.sim.ts = some frame)
    (hspeaks : Says w.sim.voice slot sim.voice) :
    ∃ own' acks' cmds',
      Spoken lp ⟨sim, w.queued ++ (more ++ [(flagsaGba, frame)]), sent⟩ own' acks' cmds' := by
  obtain ⟨hlength, hts, own', acks', cmds', hvoiced, hslots, hcmds⟩ :=
    h.voiced.say haccepted hspeaks
  obtain ⟨frame', hframe', hparsed⟩ := @parseOut_wrapT slot w.sim.ts hlength
  rw [hframe, Option.some.injEq] at hframe'
  subst hframe'
  obtain ⟨hslot, hstamp⟩ := @slot_parseChildSlot slot (w.sim.ts % 2 ^ 32) slot.length
  have hsmall : w.sim.ts % 2 ^ 32 = w.sim.ts := by
    rw [h.ts, Nat.mod_mod]
  have hread : readT (w.queued ++ (more ++ [(flagsaGba, frame)])) =
      readT w.queued ++ [parseChildSlot (w.sim.ts % 2 ^ 32) slot.length slot] := by
    have hone : readT [(flagsaGba, frame)] =
        [parseChildSlot (w.sim.ts % 2 ^ 32) slot.length slot] := by
      rw [readT, List.filterMap_cons, hparsed]
      rfl
    rw [readT_append, readT_append, hmore, List.nil_append, hone]
  have hnext : sim.ts = (w.sim.ts + 1) % 2 ^ 32 := by
    have hmask : (w.sim.ts + 1) &&& 0xFFFFFFFF = (w.sim.ts + 1) % 2 ^ 32 :=
      Nat.and_two_pow_sub_one_eq_mod _ 32
    exact Eq.trans hts hmask
  refine ⟨own', acks', cmds', ?_, ?_, ?_, ?_, ?_⟩
  · show Voiced lp (heardFrames sim.receive.handed) sim.voice own' acks' cmds'
    rw [hhanded]
    exact hvoiced
  · show (readT (w.queued ++ (more ++ [(flagsaGba, frame)]))).map ChildT.slot = _
    rw [hread, List.map_append, h.slots, List.map_singleton, hslot, hslots]
  · show (readT (w.queued ++ (more ++ [(flagsaGba, frame)]))).filterMap ChildT.cmd = _
    have hone : ∀ t : ChildT, [t].filterMap ChildT.cmd = t.cmd.toList := by
      intro t
      cases hcmd : t.cmd with
      | none => simp [hcmd]
      | some cmd14 => simp [hcmd]
    rw [hread, List.filterMap_append, h.commands, hcmds (w.sim.ts % 2 ^ 32), hone]
  · show (readT (w.queued ++ (more ++ [(flagsaGba, frame)]))).map ChildT.ts = _
    rw [hread, List.length_append, List.length_singleton, List.range_succ, List.map_append,
      List.map_append, h.stamps, List.map_singleton, List.map_singleton, hstamp, hsmall, h.ts]
  · show sim.ts = (tsSeed + (readT (w.queued ++ (more ++ [(flagsaGba, frame)]))).length) % 2 ^ 32
    rw [hnext, hread, List.length_append, List.length_singleton, h.ts]
    omega

/-- A call of the driver. -/
theorem drive [Clock Time] (h : Spoken lp w own acks cmds) {now : Time}
    {driven : ChildSim.Driven Time} (hdriven : w.sim.driveReliable now = .ok driven)
    {sent : List (List BatchFrame)} :
    ∃ own' acks' cmds',
      Spoken lp ⟨driven.sim, w.queued ++ driven.queued, sent⟩ own' acks' cmds' := by
  rcases ChildSim.driveReliable_cases hdriven with
    ⟨-, rfl⟩ | ⟨-, -, connectId, frame, -, hframe, rfl⟩ | ⟨-, -, hbatch⟩
  · exact ⟨own, acks, cmds, h.same rfl rfl rfl⟩
  · refine ⟨own, acks, cmds, h.same rfl rfl ?_⟩
    show readT [(flagsaGba, frame)] = []
    rw [readT, List.filterMap_cons, parseOut_of_type (built_of_some hframe) (by decide)]
    rfl
  · obtain ⟨due, k, sloted, -, hk, hsloted, hsame, hvoice, hqueued, -⟩ :=
      ChildSim.driveBatch_ok hbatch
    obtain ⟨taken, -, hframes, -⟩ := @ChildSim.kLoop_spec _ now due.1
      (w.sim.kSeqs.filter (· ∈ due.1.unacked.keys)) 0 w.sim.pendingK
    have hmore : readT (k.frames.map fun frame => (flagsaGba, frame.2)) = [] := by
      rw [ChildSim.map_kFrames (hk ▸ hframes)]
      exact readT_kFrames 0 taken
    obtain ⟨hsides, hslot⟩ := ChildSim.driveT_ok hsloted
    have hhanded : driven.sim.receive.handed = w.sim.receive.handed :=
      hsame.handed.trans hsides.handed
    rcases hslot with ⟨hnone, -, -, hquiet⟩ |
      ⟨haccepted, -, slot, frame, hframe, hone, -, -, hspeaks⟩
    · rw [hqueued, hnone, List.append_nil]
      exact ⟨own, acks, cmds, h.same hhanded (hvoice.trans hquiet) hmore⟩
    · rw [hqueued, hone]
      exact h.say hhanded hmore haccepted hframe (hvoice ▸ hspeaks)

theorem step [Clock Time] (h : Spoken lp w own acks cmds) {w' : Child Time}
    {label : ChildLabel Time} (hstep : w.step label = some w') :
    ∃ own' acks' cmds', Spoken lp w' own' acks' cmds' := by
  rcases Child.step_cases hstep with ⟨hqueued, -, hsides, hvoice, -⟩ |
    ⟨seq, flagsA, payload, now, sim, hsim, rfl⟩ | ⟨now, driven, hdriven, rfl⟩
  · have hsame : Spoken lp ⟨w'.sim, w.queued ++ [], w'.sent⟩ own acks cmds :=
      h.same hsides.handed hvoice rfl
    rw [List.append_nil, ← hqueued] at hsame
    exact ⟨own, acks, cmds, hsame⟩
  · obtain ⟨-, -, -, hcases⟩ := ChildSim.onReliable_cases hsim
    rcases hcases with ⟨hhanded, hvoice, -⟩ | ⟨hhanded, hvoice, -⟩
    · have hsame : Spoken lp ⟨sim, w.queued ++ [], w.sent⟩ own acks cmds :=
        h.same hhanded hvoice rfl
      rw [List.append_nil] at hsame
      exact ⟨own, acks, cmds, hsame⟩
    · have hts : sim.ts = w.sim.ts :=
        (congrArg Voice.ts hvoice).trans (Voice.hear_ts w.sim.voice (parseIn payload))
      refine ⟨own, acks, cmds, ?_, h.slots, h.commands, h.stamps, hts.trans h.ts⟩
      show Voiced lp (heardFrames sim.receive.handed) sim.voice own acks cmds
      rw [hhanded, hvoice, heardFrames_snoc]
      exact h.voiced.hearPayload (parseIn payload)
  · exact h.drive hdriven

end Spoken

theorem spoken_of_reachable [Clock Time] {cfg : Config} {engine : Engine}
    {linkstate : Option LinkState} {connectId : Option Bytes} {w : Child Time}
    (h : (Child.system cfg engine linkstate connectId).Reachable System.Free w) :
    ∃ own acks cmds, Spoken cfg.linkPlayer w own acks cmds := by
  refine h.invariant (P := fun w => ∃ own acks cmds, Spoken cfg.linkPlayer w own acks cmds) ?_ ?_
  · rintro w rfl
    exact ⟨[], [], [], .new cfg.linkPlayer, rfl, rfl, rfl, rfl⟩
  · rintro w label w' ⟨own, acks, cmds, hspoken⟩ - hstep
    exact hspoken.step hstep

/-- In every run, what a parent reads of a child is: the slots of its NI data in their order, once
it was accepted; when they are all said, acknowledgements, in the order the host asked for them and
never twice in a row; when the host has sent a command, commands, whose tags count through eight.
The stamps count up by one. -/
theorem child_speaks_in_turn [Clock Time] {cfg : Config} {engine : Engine}
    {linkstate : Option LinkState} {connectId : Option Bytes} {w : Child Time}
    (h : (Child.system cfg engine linkstate connectId).Reachable System.Free w) :
    ∃ own acks cmds, Speech cfg.linkPlayer (heardFrames w.sim.receive.handed) (readT w.queued)
      own acks cmds := by
  obtain ⟨own, acks, cmds, hspoken⟩ := spoken_of_reachable h
  have hvoiced := hspoken.voiced
  have hwhole : acks ++ cmds ≠ [] → own = NiSender.slotsOf (gameData cfg.linkPlayer) 12 1 :=
    fun hne => hvoiced.own_whole (hvoiced.whole hne)
  obtain ⟨older, newer, hsplit, hsub, -⟩ := hvoiced.asked
  refine ⟨own, acks, cmds, hspoken.slots, hspoken.commands, hspoken.stamps, ?_,
    hvoiced.own_isPrefix, hwhole, ?_, hvoiced.apart, ?_, hvoiced.tags⟩
  · intro hread
    -- A slot was said, and the first one was one of its own.
    have hown : own ≠ [] := by
      rintro rfl
      have hnil : acks ++ cmds = [] := by
        by_contra hne
        have hall := hwhole hne
        rw [NiSender.slotsOf] at hall
        cases hall
      obtain ⟨rfl, rfl⟩ := List.append_eq_nil_iff.mp hnil
      exact hread (List.map_eq_nil_iff.mp hspoken.slots)
    exact hvoiced.accepted (hvoiced.spoke hown)
  · rw [hsplit]
    exact hsub.trans (List.sublist_append_left older newer)
  · intro hcmds
    exact hvoiced.uni (hvoiced.done (hvoiced.turned hcmds)).2

/-- The stream is opened, the connection asked for and accepted, and the first slot is said. -/
def sampleCalls : List (ChildLabel Int) :=
  [.drive 0, .vblank, .drive 17, .message 0xFFF0 0x0F [gbaMarker, typeA, 6, 0, 1, 2, 3, 4, 0, 0] 20,
    .vblank, .drive 33]

theorem child_speaks_in_turn_first_slot : ∃ cfg e₀,
    newEngine sampleConfig sampleParty 0 none = .ok (cfg, e₀) ∧
    ∃ w, System.play Child.step System.Free ⟨.new cfg e₀ none (some [3, 4]), [], []⟩ sampleCalls =
      some w ∧ w.queued.length = 3 ∧ (readT w.queued).length = 1 ∧
    ∃ own acks cmds, Speech cfg.linkPlayer (heardFrames w.sim.receive.handed) (readT w.queued)
      own acks cmds := by
  obtain ⟨cfg, e₀, hnew, hlengths⟩ : ∃ cfg e₀,
      newEngine sampleConfig sampleParty 0 none = .ok (cfg, e₀) ∧
      (System.play Child.step System.Free ⟨.new cfg e₀ none (some [3, 4]), [], []⟩
        sampleCalls).map (fun w => (w.queued.length, (readT w.queued).length)) = some (3, 1) :=
    ⟨_, _, rfl, by decide +kernel⟩
  obtain ⟨w, hw, hboth⟩ := Option.map_eq_some_iff.mp hlengths
  exact ⟨cfg, e₀, hnew, w, hw, congrArg Prod.fst hboth, congrArg Prod.snd hboth,
    child_speaks_in_turn ⟨_, rfl, System.run_of_play hw⟩⟩

end SwitchTrade.Sim

import SwitchTrade.Sim.ChildSpeech
import Mathlib.Data.List.Infix

/-!
# What a child acknowledges

The `K` frames a child queues, read with `parse_in`: they are numbered from one and carry the stamps
of `T` frames of the host in the order they were heard, no stamp twice among as many as the child
remembers (`child_acknowledges_in_order`).
-/

namespace SwitchTrade.Sim

open Rfu Trade Transition
open Reliable hiding Bytes

universe u

variable {Time : Type u}

/-! ## What is read -/

def kFrame : InFrame → Option (Nat × Nat)
  | .k kSeq (some ackedTs) => some (kSeq, ackedTs)
  | _ => none

/-- The `K` frames among what a child queued: the number and the stamp. -/
def readK (queued : List (UInt8 × Bytes)) : List (Nat × Nat) :=
  queued.filterMap fun f => (parseIn f.2).bind kFrame

/-- The stamps of the `T` frames of the host. -/
def stampsHeard (heard : List InFrame) : List Nat := (heard.filterMap hostT).filterMap HostT.ts

/-- The `K` frames of a child that has taken the stamps to be acknowledged. -/
structure Acknowledged (heard : List InFrame) (read : List (Nat × Nat)) (accepted : List Nat) :
    Prop where
  asked : accepted.Sublist (stampsHeard heard)
  apart : ∀ between, between <:+: accepted → between.length ≤ ackedLimit → between.Nodup
  numbers : read.map Prod.fst = (List.range' 1 read.length).map (· % 2 ^ 32)
  stamps : read.map Prod.snd = accepted.take read.length
  backlog : accepted.length ≤ read.length + kBacklogMax

/-! ## The stamps that are taken -/

/-- The stamps that were taken, and those that were said. -/
structure Accepts (heard : List InFrame) (k : Acking) (said : List (Nat × Nat))
    (accepted : List Nat) : Prop where
  kSeq : k.kSeq = accepted.length
  ackedTs : k.ackedTs = accepted.rtake ackedLimit
  asked : accepted.Sublist (stampsHeard heard)
  apart : ∀ between, between <:+: accepted → between.length ≤ ackedLimit → between.Nodup
  numbered : said ++ k.pendingK = (List.range' 1 accepted.length).zip accepted
  backlog : k.pendingK.length ≤ kBacklogMax

theorem stampsHeard_snoc {heard : List InFrame} {frame : InFrame} :
    stampsHeard (heard ++ [frame]) = stampsHeard heard ++ ((hostT frame).bind HostT.ts).toList := by
  unfold stampsHeard
  rw [List.filterMap_append, List.filterMap_append]
  cases hframe : hostT frame with
  | none => simp [hframe]
  | some t =>
    cases hts : t.ts with
    | none => simp [hframe, hts]
    | some ts => simp [hframe, hts]

/-- A stamp that is not among the latest may be taken again. -/
theorem nodup_snoc {accepted : List Nat} {ts : Nat}
    (h : ∀ between, between <:+: accepted → between.length ≤ ackedLimit → between.Nodup)
    (hts : ts ∉ accepted.rtake ackedLimit) :
    ∀ between, between <:+: accepted ++ [ts] → between.length ≤ ackedLimit → between.Nodup := by
  intro between hinfix hlength
  rcases List.infix_concat_iff.mp hinfix with hsuffix | hinfix
  · rcases List.suffix_concat_iff.mp hsuffix with rfl | ⟨latest, rfl, hlatest⟩
    · exact List.nodup_nil
    · rw [List.length_append, List.length_singleton] at hlength
      have hnot : ts ∉ latest := by
        intro hmem
        obtain ⟨before, rfl⟩ := hlatest
        obtain ⟨older, newer, rfl⟩ := List.append_of_mem hmem
        apply hts
        rw [Recent.mem_rtake]
        refine ⟨before ++ older, newer, (List.append_assoc _ _ _).symm, ?_⟩
        rw [List.length_append, List.length_cons] at hlength
        omega
      rw [← List.concat_eq_append]
      exact (h latest hlatest.isInfix (by omega)).concat hnot
  · exact h between hinfix hlength

namespace Accepts

variable {heard : List InFrame} {k : Acking} {said : List (Nat × Nat)} {accepted : List Nat}

theorem new : Accepts [] ⟨0, [], []⟩ [] [] where
  kSeq := rfl
  ackedTs := rfl
  asked := .slnil
  apart := by
    intro between hinfix _
    rw [List.infix_nil.mp hinfix]
    exact List.nodup_nil
  numbered := rfl
  backlog := Nat.zero_le _

/-- A stamp is taken unless it is remembered or there is no room for it. -/
theorem accept (h : Accepts heard k said accepted) {frame : InFrame} {ts : Nat}
    (hts : (hostT frame).bind HostT.ts = some ts) :
    ∃ accepted', Accepts (heard ++ [frame]) (k.accept (some ts)) said accepted' := by
  have hsnoc : stampsHeard (heard ++ [frame]) = stampsHeard heard ++ [ts] := by
    rw [stampsHeard_snoc, hts]
    rfl
  have hkeep : accepted.Sublist (stampsHeard (heard ++ [frame])) := by
    rw [hsnoc]
    exact h.asked.trans (List.sublist_append_left _ _)
  by_cases hseen : ts ∈ k.ackedTs
  · have hsame : k.accept (some ts) = k := if_pos hseen
    rw [hsame]
    exact ⟨accepted, { h with asked := hkeep }⟩
  by_cases hfull : kBacklogMax ≤ k.pendingK.length
  · have hsame : k.accept (some ts) = k := (if_neg hseen).trans (if_pos hfull)
    rw [hsame]
    exact ⟨accepted, { h with asked := hkeep }⟩
  have hmore : k.accept (some ts) =
      ⟨k.kSeq + 1, remember ackedLimit k.ackedTs ts, k.pendingK ++ [(k.kSeq + 1, ts)]⟩ :=
    (if_neg hseen).trans (if_neg hfull)
  have hnew : ts ∉ accepted.rtake ackedLimit := h.ackedTs ▸ hseen
  rw [hmore]
  refine ⟨accepted ++ [ts], ?_, ?_, ?_, nodup_snoc h.apart hnew, ?_, ?_⟩
  · rw [List.length_append, List.length_singleton, h.kSeq]
  · show remember ackedLimit k.ackedTs ts = _
    rw [h.ackedTs]
    exact Recent.remember_rtake hnew
  · rw [hsnoc]
    exact h.asked.append (List.Sublist.refl [ts])
  · show said ++ (k.pendingK ++ [(k.kSeq + 1, ts)]) = _
    have hone : 1 + 1 * accepted.length = k.kSeq + 1 := by
      rw [h.kSeq]
      omega
    rw [← List.append_assoc, h.numbered, List.length_append, List.length_singleton,
      List.range'_concat, List.zip_append (by rw [List.length_range']), hone]
    rfl
  · show (k.pendingK ++ [(k.kSeq + 1, ts)]).length ≤ kBacklogMax
    rw [List.length_append, List.length_singleton]
    omega

theorem hear (h : Accepts heard k said accepted) (frame : InFrame) :
    ∃ accepted', Accepts (heard ++ [frame]) (k.hear (some frame)) said accepted' := by
  have hother : Accepts (heard ++ [frame]) k said accepted :=
    { h with
      asked := by
        rw [stampsHeard_snoc]
        exact h.asked.trans (List.sublist_append_left _ _) }
  cases frame with
  | t frame =>
    cases hts : frame.ts with
    | none =>
      have hsame : k.hear (some (.t frame)) = k := by rw [Acking.hear, hts]; rfl
      rw [hsame]
      exact ⟨accepted, hother⟩
    | some ts =>
      have hcall : k.hear (some (.t frame)) = k.accept (some ts) := by rw [Acking.hear, hts]
      rw [hcall]
      exact h.accept hts
  | a hostSessionId connectId => exact ⟨accepted, hother⟩
  | c connectId => exact ⟨accepted, hother⟩
  | k kSeq ackedTs => exact ⟨accepted, hother⟩
  | other typ => exact ⟨accepted, hother⟩

/-- The oldest of those that wait are said. -/
theorem say (h : Accepts heard k said accepted) {taken rest : List (Nat × Nat)}
    (hpending : k.pendingK = taken ++ rest) :
    Accepts heard { k with pendingK := rest } (said ++ taken) accepted := by
  have hnumbered := h.numbered
  have hbacklog := h.backlog
  rw [hpending, ← List.append_assoc] at hnumbered
  rw [hpending, List.length_append] at hbacklog
  exact { h with
    numbered := hnumbered
    backlog := by
      show rest.length ≤ kBacklogMax
      omega }

end Accepts

/-! ## Reading -/

/-- A frame of another type is no `K`. -/
theorem kFrame_of_built {ftype : UInt8} {data frame : Bytes} (h : Built ftype data frame)
    (htype : ftype = typeT ∨ ftype = typeC) : (parseIn frame).bind kFrame = none := by
  rw [parseIn, if_neg (opens_of_built h), h.type]
  rcases htype with rfl | rfl
  · rw [if_pos rfl]
    rfl
  · rw [if_neg (by decide), if_neg (by decide), if_pos rfl]
    rfl

/-- The numbers and the stamps, in four bytes each. -/
def inFourBytes (said : List (Nat × Nat)) : List (Nat × Nat) :=
  said.map fun pair => (pair.1 % 2 ^ 32, pair.2 % 2 ^ 32)

theorem readK_kFrames (mid : Nat) (taken : List (Nat × Nat)) :
    readK ((ChildSim.kFrames mid taken).map fun frame => (flagsaGba, frame)) =
      inFourBytes taken := by
  induction taken generalizing mid with
  | nil => rfl
  | cons pair rest ih =>
    obtain ⟨kSeq, ackedTs⟩ := pair
    rw [ChildSim.kFrames, List.map_cons, readK, List.filterMap_cons, parseIn_buildK]
    exact congrArg ((kSeq % 2 ^ 32, ackedTs % 2 ^ 32) :: ·) (ih (mid + 1))

theorem readK_append (queued more : List (UInt8 × Bytes)) :
    readK (queued ++ more) = readK queued ++ readK more := List.filterMap_append

theorem readK_built {ftype flags : UInt8} {data frame : Bytes} (h : Built ftype data frame)
    (htype : ftype = typeT ∨ ftype = typeC) : readK [(flags, frame)] = [] := by
  rw [readK, List.filterMap_cons, kFrame_of_built h htype]
  rfl

/-- A stamp that is heard has four bytes. -/
theorem stamp_lt {handed : List (UInt8 × Bytes)} {ts : Nat}
    (h : ts ∈ stampsHeard (heardFrames handed)) : ts < 2 ^ 32 := by
  obtain ⟨frame, hframe, hts⟩ := List.mem_filterMap.mp h
  obtain ⟨parsed, hparsed, hhost⟩ := List.mem_filterMap.mp hframe
  obtain ⟨f, -, hf⟩ := List.mem_filterMap.mp hparsed
  cases parsed with
  | t frame' =>
    cases hhost
    have hbody : frame = parseHostT (bodyOf f.2) := by
      unfold parseIn at hf
      split at hf
      · cases hf
      · simp only at hf
        split at hf
        · simpa using hf.symm
        · split at hf
          · cases hf
          · split at hf
            · cases hf
            · split at hf <;> cases hf
    rw [hbody] at hts
    have hfour : ∀ body : Bytes, LittleEndian.ofBytes (body.take 4) < 2 ^ 32 := by
      intro body
      have hlt := @LittleEndian.ofBytes_lt (body.take 4)
      have hlength : (body.take 4).length ≤ 4 := by
        rw [List.length_take]
        omega
      exact Nat.lt_of_lt_of_le hlt (Nat.pow_le_pow_right (by decide) hlength)
    unfold parseHostT at hts
    split at hts
    · cases hts
    · simp only at hts
      split at hts
      · cases hts
        exact hfour _
      · unfold parseHostSlot at hts
        simp only at hts
        split at hts <;> cases hts <;> exact hfour _
  | a hostSessionId connectId => cases hhost
  | c connectId => cases hhost
  | k kSeq ackedTs => cases hhost
  | other typ => cases hhost

/-! ## Runs -/

/-- What a child has acknowledged in a state of its run. -/
structure Answers (w : Child Time) (said : List (Nat × Nat)) (accepted : List Nat) : Prop where
  accepts : Accepts (heardFrames w.sim.receive.handed) w.sim.acking said accepted
  read : readK w.queued = inFourBytes said

namespace Answers

variable {w : Child Time} {said : List (Nat × Nat)} {accepted : List Nat}

/-- Another state that has heard the same and waits with the same stamps. -/
theorem same (h : Answers w said accepted) {sim : ChildSim Time} {more : List (UInt8 × Bytes)}
    {sent : List (List BatchFrame)} (hhanded : sim.receive.handed = w.sim.receive.handed)
    (hacking : sim.acking = w.sim.acking) (hmore : readK more = []) :
    Answers ⟨sim, w.queued ++ more, sent⟩ said accepted := by
  constructor
  · show Accepts (heardFrames sim.receive.handed) sim.acking said accepted
    rw [hhanded, hacking]
    exact h.accepts
  · show readK (w.queued ++ more) = inFourBytes said
    rw [readK_append, hmore, List.append_nil, h.read]

theorem drive [Clock Time] (h : Answers w said accepted) {now : Time}
    {driven : ChildSim.Driven Time} (hdriven : w.sim.driveReliable now = .ok driven)
    {sent : List (List BatchFrame)} :
    ∃ said', Answers ⟨driven.sim, w.queued ++ driven.queued, sent⟩ said' accepted := by
  rcases ChildSim.driveReliable_cases hdriven with
    ⟨-, rfl⟩ | ⟨-, -, connectId, frame, -, hframe, rfl⟩ | ⟨-, -, hbatch⟩
  · exact ⟨said, h.same rfl rfl rfl⟩
  · exact ⟨said, h.same rfl rfl (readK_built (built_of_some hframe) (.inr rfl))⟩
  · obtain ⟨due, k, sloted, -, hk, hsloted, hsame, -, hqueued, -⟩ :=
      ChildSim.driveBatch_ok hbatch
    obtain ⟨taken, hpending, hframes, -⟩ := @ChildSim.kLoop_spec _ now due.1
      (w.sim.kSeqs.filter (· ∈ due.1.unacked.keys)) 0 w.sim.pendingK
    obtain ⟨hsides, hslot⟩ := ChildSim.driveT_ok hsloted
    rw [← hk] at hpending hframes
    have hslots : readK sloted.queued = [] := by
      rcases hslot with ⟨hnone, -⟩ | ⟨-, -, slot, frame, hframe, hone, -⟩
      · rw [hnone]
        rfl
      · rw [hone]
        exact readK_built (built_of_some hframe) (.inl rfl)
    refine ⟨said ++ taken, ?_, ?_⟩
    · show Accepts (heardFrames driven.sim.receive.handed) driven.sim.acking (said ++ taken)
        accepted
      rw [hsame.handed.trans hsides.handed, hsame.acking.trans hsides.acking]
      exact h.accepts.say hpending
    · show readK (w.queued ++ driven.queued) = inFourBytes (said ++ taken)
      rw [hqueued, readK_append, readK_append, ChildSim.map_kFrames hframes,
        readK_kFrames, hslots, List.append_nil, h.read]
      exact List.map_append.symm

theorem step [Clock Time] (h : Answers w said accepted) {w' : Child Time}
    {label : ChildLabel Time} (hstep : w.step label = some w') :
    ∃ said' accepted', Answers w' said' accepted' := by
  rcases Child.step_cases hstep with ⟨hqueued, -, hsides, -, -⟩ |
    ⟨seq, flagsA, payload, now, sim, hsim, rfl⟩ | ⟨now, driven, hdriven, rfl⟩
  · have hsame : Answers ⟨w'.sim, w.queued ++ [], w'.sent⟩ said accepted :=
      h.same hsides.handed hsides.acking rfl
    rw [List.append_nil, ← hqueued] at hsame
    exact ⟨said, accepted, hsame⟩
  · obtain ⟨-, -, -, hcases⟩ := ChildSim.onReliable_cases hsim
    rcases hcases with ⟨hhanded, -, hacking⟩ | ⟨hhanded, -, hacking⟩
    · have hsame : Answers ⟨sim, w.queued ++ [], w.sent⟩ said accepted :=
        h.same hhanded hacking rfl
      rw [List.append_nil] at hsame
      exact ⟨said, accepted, hsame⟩
    · have hheard : heardFrames sim.receive.handed =
          heardFrames w.sim.receive.handed ++ (parseIn payload).toList := by
        rw [hhanded]
        exact heardFrames_snoc
      cases hparsed : parseIn payload with
      | none =>
        rw [hparsed, Option.toList_none, List.append_nil] at hheard
        rw [hparsed] at hacking
        refine ⟨said, accepted, ?_, h.read⟩
        show Accepts (heardFrames sim.receive.handed) sim.acking said accepted
        rw [hheard, hacking]
        exact h.accepts
      | some frame =>
        rw [hparsed] at hheard hacking
        obtain ⟨accepted', haccepts⟩ := h.accepts.hear frame
        refine ⟨said, accepted', ?_, h.read⟩
        show Accepts (heardFrames sim.receive.handed) sim.acking said accepted'
        rw [hheard, hacking]
        exact haccepts
  · obtain ⟨said', hanswers⟩ := @h.drive _ _ _ _ _ _ _ hdriven (w.sent ++ [driven.batch])
    exact ⟨said', accepted, hanswers⟩

end Answers

theorem answers_of_reachable [Clock Time] {cfg : Config} {engine : Engine}
    {linkstate : Option LinkState} {connectId : Option Bytes} {w : Child Time}
    (h : (Child.system cfg engine linkstate connectId).Reachable System.Free w) :
    ∃ said accepted, Answers w said accepted := by
  refine h.invariant (P := fun w => ∃ said accepted, Answers w said accepted) ?_ ?_
  · rintro w rfl
    exact ⟨[], [], .new, rfl⟩
  · rintro w label w' ⟨said, accepted, hanswers⟩ - hstep
    exact hanswers.step hstep

/-- In every run the `K` frames a child queues are numbered from one on and acknowledge frames of
the host in the order they were heard, no stamp twice among 8192 in a row; at most 32 that were
taken wait. -/
theorem child_acknowledges_in_order [Clock Time] {cfg : Config} {engine : Engine}
    {linkstate : Option LinkState} {connectId : Option Bytes} {w : Child Time}
    (h : (Child.system cfg engine linkstate connectId).Reachable System.Free w) :
    ∃ accepted,
      Acknowledged (heardFrames w.sim.receive.handed) (readK w.queued) accepted := by
  obtain ⟨said, accepted, hanswers⟩ := answers_of_reachable h
  have haccepts := hanswers.accepts
  have hlength : (readK w.queued).length = said.length := by
    rw [hanswers.read]
    exact List.length_map _
  have hcount := congrArg List.length haccepts.numbered
  rw [List.length_append, List.length_zip, List.length_range', Nat.min_self] at hcount
  have hfst : said.map Prod.fst = List.range' 1 said.length := by
    have hall := congrArg (List.map Prod.fst) haccepts.numbered
    rw [List.map_append, List.map_fst_zip (by rw [List.length_range'])] at hall
    have hpart := congrArg (List.take said.length) hall
    rwa [List.take_left' (List.length_map _), ← hcount, ← List.range'_append_1,
      List.take_left' List.length_range'] at hpart
  have hsnd : said.map Prod.snd = accepted.take said.length := by
    have hall := congrArg (List.map Prod.snd) haccepts.numbered
    rw [List.map_append, List.map_snd_zip (by rw [List.length_range'])] at hall
    have hpart := congrArg (List.take said.length) hall
    rwa [List.take_left' (List.length_map _)] at hpart
  refine ⟨accepted, haccepts.asked, haccepts.apart, ?_, ?_, ?_⟩
  · rw [hlength, ← hfst, hanswers.read, inFourBytes, List.map_map, List.map_map]
    rfl
  · rw [hlength, ← hsnd, hanswers.read, inFourBytes, List.map_map]
    apply List.map_congr_left
    intro pair hpair
    have hmem : pair.2 ∈ accepted := by
      have htake : pair.2 ∈ accepted.take said.length := hsnd ▸ List.mem_map_of_mem hpair
      exact List.mem_of_mem_take htake
    exact Nat.mod_eq_of_lt (stamp_lt (haccepts.asked.subset hmem))
  · have hbacklog := haccepts.backlog
    omega

/-- A frame of the host, with a stamp and no slot. -/
def sampleFrame : Bytes := [gbaMarker, typeT, 8, 0, 9, 0, 0, 0, 1, 0, 0, 0]

/-- The same stamp is heard twice, and a batch is sent after it. -/
def sampleStamps : List (ChildLabel Int) :=
  [.drive 0, .drive 17, .message 0xFFF0 0x07 sampleFrame 20, .message 0xFFF1 0x07 sampleFrame 21,
    .drive 33]

theorem child_acknowledges_in_order_once : ∃ cfg e₀,
    newEngine sampleConfig sampleParty 0 none = .ok (cfg, e₀) ∧
    ∃ w, System.play Child.step System.Free ⟨.new cfg e₀ none (some [3, 4]), [], []⟩ sampleStamps =
      some w ∧ readK w.queued = [(1, 9)] ∧
    ∃ accepted,
      Acknowledged (heardFrames w.sim.receive.handed) (readK w.queued) accepted := by
  obtain ⟨cfg, e₀, hnew, hread⟩ : ∃ cfg e₀,
      newEngine sampleConfig sampleParty 0 none = .ok (cfg, e₀) ∧
      (System.play Child.step System.Free ⟨.new cfg e₀ none (some [3, 4]), [], []⟩
        sampleStamps).map (fun w => readK w.queued) = some [(1, 9)] :=
    ⟨_, _, rfl, by decide +kernel⟩
  obtain ⟨w, hw, hone⟩ := Option.map_eq_some_iff.mp hread
  exact ⟨cfg, e₀, hnew, w, hw, hone,
    child_acknowledges_in_order ⟨_, rfl, System.run_of_play hw⟩⟩

end SwitchTrade.Sim

import SwitchTrade.Rfu.Reflection
import SwitchTrade.Rfu.Reassembled
import SwitchTrade.Transition.Run
import SwitchTrade.Transition.Stages

/-!
# A confirmed block

A sender, the host it sends its blocks to, and what the host reflects, over channels that keep the
order of slots but may lose any of them. `TradeEngine._begin_send` replaces the sender and its view
of the reflection; it is called when there is no sender or the sender is done.

The sender judges the host by the reflection only (`Link.step`). What is in flight has stages: slots
of earlier blocks, the INITs of this block, its fragments. No stage overtakes an earlier one, so an
INIT that is reflected to the sender is of this block, and the fragments that follow it are
fragments the host has written into the same epoch (`Staging`). A sender that is done has therefore
been confirmed by a host that holds the block (`done_confirmed`).
-/

namespace SwitchTrade.Rfu

open Chunks Stages Transition

structure Link where
  sender : Option BlockSender := none
  peer1 : RecvBlock := {}
  host : RecvBlock := {}
  forward : List Bytes := []
  echo : List Bytes := []
  deriving DecidableEq, Repr

inductive Move where
  | begin (data : Bytes) (owner : Nat)
  | tick (tag : Nat)
  | other (raw : Bytes)
  | lose (i : Nat)
  | receive (strip : Bool)
  | loseEcho (i : Nat)
  | hear
  deriving DecidableEq, Repr

instance (raw : Bytes) : Decidable (Quiet raw) := by
  unfold Quiet
  infer_instance

namespace Link

/-- Whether a block may be begun. -/
def free (w : Link) : Bool := w.sender.all fun s => s.state = .done

/-- One move. The words of a tick are sent under some tag; the host reflects a slot as it came or
without its tag. -/
def step (w : Link) : Move → Option Link
  | .begin data owner =>
    if 1 ≤ data.length ∧ data.length ≤ 384 ∧ w.free = true then
      some { w with sender := some (.new data owner false), peer1 := {} }
    else none
  | .tick tag =>
    match w.sender with
    | none => none
    | some s =>
      if tag < 8 then
        let ticked := s.tick (some w.peer1)
        some { w with sender := some ticked.1, forward := w.forward ++ [build tag ticked.2] }
      else none
  | .other raw => if Quiet raw then some { w with forward := w.forward ++ [raw] } else none
  | .lose i => some { w with forward := w.forward.eraseIdx i }
  | .receive strip =>
    match w.forward with
    | [] => none
    | raw :: rest =>
      let reflected := if strip then parentReflectChild raw else raw
      some { w with host := w.host.hear raw, forward := rest, echo := w.echo ++ [reflected] }
  | .loseEcho i => some { w with echo := w.echo.eraseIdx i }
  | .hear =>
    match w.echo with
    | [] => none
    | raw :: rest => some { w with peer1 := w.peer1.hear raw, echo := rest }

end Link

/-- A sender, a host and two channels. -/
def linkSystem : System Link Move := .ofStep (· = {}) Link.step

/-! ## The host while a block arrives -/

/-- A fragment as it is sent. -/
def piece (data : Bytes) (i : Nat) : Bytes := padded 12 0 (chunk fragBytes i data)

/-- An epoch of a block: what is in it is of the block. -/
structure Takes (data : Bytes) (r : RecvBlock) : Prop where
  receiving : r.receiving = true
  count : r.count = fragCount data.length
  length : r.buf.length = r.count * fragBytes
  flags : ∀ i, r.flags.testBit i = true → i < r.count ∧ chunk fragBytes i r.buf = piece data i
  done : r.done = true ↔ r.flags = allReceivedMask r.count

namespace Takes

variable {data : Bytes} {r : RecvBlock}

theorem full_iff (h : Takes data r) :
    r.flags = allReceivedMask r.count ↔ ∀ i < r.count, r.flags.testBit i = true := by
  apply RecvBlock.allReceivedMask_iff
  intro i
  by_cases hi : i < r.count
  · rw [decide_eq_true hi, Bool.true_and]
  · rw [decide_eq_false hi, Bool.false_and]
    exact Bool.eq_false_iff.mpr fun hbit => hi (h.flags i hbit).1

theorem open_of_zero (h : Takes data r) (hzero : r.flags = 0) : r.done = false := by
  have hpos : 0 < r.count := by
    rw [h.count]
    exact BlockSender.fragCount_pos _
  refine Bool.eq_false_iff.mpr fun hdone => ?_
  have hbit := h.full_iff.mp (h.done.mp hdone) 0 hpos
  rw [hzero, Nat.zero_testBit] at hbit
  cases hbit

/-- The first INIT of a block opens its epoch. -/
theorem onInit_fresh (h : r.receiving = false ∨ r.done = true) {owner : Option Nat} :
    Takes data (r.onInit (fragCount data.length) owner) ∧
      (r.onInit (fragCount data.length) owner).flags = 0 := by
  have hfresh : (!r.receiving || r.done ||
      decide (fragCount data.length ≠ r.count)) = true := by
    rcases h with h | h
    · rw [h]
      rfl
    · rw [h, Bool.or_true, Bool.true_or]
  have hnew : r.onInit (fragCount data.length) owner =
      { count := fragCount data.length, owner := owner, flags := 0,
        buf := List.replicate (fragCount data.length * fragBytes) 0, receiving := true,
        done := false, lastIndex := -1, epochs := r.epochs + 1 } := by
    unfold RecvBlock.onInit
    rw [if_pos (by simpa using hfresh)]
  rw [hnew]
  refine ⟨⟨rfl, rfl, List.length_replicate, ?_, iff_of_false nofun ?_⟩, rfl⟩
  · intro i hi
    rw [Nat.zero_testBit] at hi
    cases hi
  · intro hzero
    have hpos := BlockSender.fragCount_pos data.length
    have hbit : (allReceivedMask (fragCount data.length)).testBit 0 = true := by
      rw [allReceivedMask, Nat.one_shiftLeft, Nat.testBit_two_pow_sub_one]
      exact decide_eq_true hpos
    rw [← hzero, Nat.zero_testBit] at hbit
    cases hbit

/-- Another INIT changes nothing before the fragments. -/
theorem onInit_again (h : Takes data r) (hzero : r.flags = 0) {owner : Option Nat} :
    r.onInit (fragCount data.length) owner = r := by
  have hopen := h.open_of_zero hzero
  unfold RecvBlock.onInit
  rw [if_neg]
  simp [h.receiving, hopen, h.count]

theorem onBlock (h : Takes data r) {i : Nat} (hi : i < fragCount data.length) :
    Takes data (r.onBlock i (piece data i)) ∧
      ∀ j, (r.onBlock i (piece data i)).flags.testBit j = true ↔
        j = i ∨ r.flags.testBit j = true := by
  have hi : i < r.count := by
    rw [h.count]
    exact hi
  have hlength : (piece data i).length = fragBytes := length_padded
  have htake : (piece data i).take fragBytes = piece data i :=
    List.take_of_length_le (Nat.le_of_eq hlength)
  have hend : i * fragBytes + fragBytes ≤ r.buf.length := by
    rw [h.length]
    exact end_le hi
  have hbits :
      ∀ j, (r.flags ||| (1 <<< i)).testBit j = true ↔ j = i ∨ r.flags.testBit j = true := by
    intro j
    rw [Nat.testBit_or, Nat.one_shiftLeft, Nat.testBit_two_pow, Bool.or_eq_true,
      decide_eq_true_eq]
    exact ⟨fun hor => hor.symm.imp_left Eq.symm, fun hor => hor.symm.imp_right Eq.symm⟩
  have hnew : r.onBlock i (piece data i) =
      { r with
        lastIndex := i
        flags := r.flags ||| (1 <<< i)
        buf := splice fragBytes i (piece data i) r.buf
        done := if r.flags ||| (1 <<< i) = allReceivedMask r.count then true else r.done } := by
    unfold RecvBlock.onBlock
    rw [if_neg (by simp [h.receiving, hi]), htake]
  rw [hnew]
  refine ⟨⟨h.receiving, h.count, ?_, ?_, ?_⟩, hbits⟩
  · exact (length_splice hlength hend).trans h.length
  · intro j hj
    rcases (hbits j).mp hj with rfl | hold
    · exact ⟨hi, chunk_splice_self hlength (by omega)⟩
    · obtain ⟨hlt, hchunk⟩ := h.flags j hold
      refine ⟨hlt, ?_⟩
      by_cases hji : j = i
      · rw [hji]
        exact chunk_splice_self hlength (by omega)
      · exact (chunk_splice_of_ne hlength hend hji).trans hchunk
  · simp only
    split
    · rename_i hfull
      exact iff_of_true rfl hfull
    · rename_i hopen
      refine iff_of_false (fun hdone => hopen ?_) hopen
      -- It was full before, and then this fragment was there already.
      have hfull := h.done.mp hdone
      have hsame : r.flags ||| (1 <<< i) = r.flags := by
        apply Nat.eq_of_testBit_eq
        intro j
        rw [Bool.eq_iff_iff, hbits j]
        refine ⟨fun hor => ?_, .inr⟩
        rcases hor with rfl | hold
        · exact h.full_iff.mp hfull j hi
        · exact hold
      rw [hsame]
      exact hfull

/-- A full epoch holds the block, filled up with zeros. -/
theorem buf_of_full (h : Takes data r) (hfull : ∀ i < r.count, r.flags.testBit i = true) :
    r.buf = padded (fragCount data.length * fragBytes) 0 data := by
  have hbuf : (List.range (fragCount data.length)).flatMap (chunk fragBytes · r.buf) = r.buf :=
    flatMap_chunk (by rw [h.length, h.count])
  have hpadded : (List.range (fragCount data.length)).flatMap
      (chunk fragBytes · (padded (fragCount data.length * fragBytes) 0 data)) =
        padded (fragCount data.length * fragBytes) 0 data := flatMap_chunk length_padded
  rw [← hbuf, ← hpadded, List.flatMap_def, List.flatMap_def]
  congr 1
  apply List.map_congr_left
  intro i hi
  have hlt : i < fragCount data.length := List.mem_range.mp hi
  rw [chunk_padded hlt]
  exact (h.flags i (hfull i (by rw [h.count]; exact hlt))).2

end Takes

/-! ## The stages of a block -/

/-- What a slot may be that is in flight at a stage: of an earlier block, and then no INIT, or an
INIT of this block, or a fragment of it. -/
def Says (data : Bytes) : Nat → Bytes → Prop
  | 0, raw => ∀ count owner, heard raw ≠ some (.init count owner)
  | 1, raw => heard raw = none ∨ ∃ owner, heard raw = some (.init (fragCount data.length) owner)
  | _, raw =>
    heard raw = none ∨ ∃ i < fragCount data.length, heard raw = some (.block i (piece data i))

/-- The epoch of one that has come to a stage: it has none of this block, it has the epoch but no
fragment, it has some fragments. -/
def At (data : Bytes) : Nat → RecvBlock → Prop
  | 0, r => r.receiving = false ∨ r.done = true
  | 1, r => Takes data r ∧ r.flags = 0
  | _, r => Takes data r

theorem At.takes {data : Bytes} {stage : Nat} {r : RecvBlock} (h : At data stage r)
    (hstage : 1 ≤ stage) : Takes data r := by
  match stage, h with
  | 1, h => exact h.1
  | stage + 2, h => exact h

theorem Says.of_none {data : Bytes} {stage : Nat} {raw : Bytes} (h : heard raw = none) :
    Says data stage raw := by
  match stage with
  | 0 =>
    intro count owner
    rw [h]
    nofun
  | 1 => exact .inl h
  | stage + 2 => exact .inl h

theorem Says.congr {data : Bytes} {stage : Nat} {raw raw' : Bytes} (h : Says data stage raw)
    (heq : heard raw' = heard raw) : Says data stage raw' := by
  match stage, h with
  | 0, h =>
    intro count owner
    rw [heq]
    exact h count owner
  | 1, h => exact h.imp heq.trans fun ⟨owner, howner⟩ => ⟨owner, heq.trans howner⟩
  | stage + 2, h => exact h.imp heq.trans fun ⟨i, hi, hblock⟩ => ⟨i, hi, heq.trans hblock⟩

theorem Says.of_init {data : Bytes} {stage count owner : Nat} {raw : Bytes}
    (h : Says data stage raw) (hraw : heard raw = some (.init count owner)) :
    stage = 1 ∧ count = fragCount data.length := by
  match stage, h with
  | 0, h => exact absurd hraw (h count owner)
  | 1, h =>
    rcases h with hnone | ⟨owner', hinit⟩
    · rw [hraw] at hnone
      cases hnone
    · rw [hraw] at hinit
      cases hinit
      exact ⟨rfl, rfl⟩
  | stage + 2, h =>
    rcases h with hnone | ⟨i, -, hblock⟩
    · rw [hraw] at hnone
      cases hnone
    · rw [hraw] at hblock
      cases hblock

theorem Says.of_block {data : Bytes} {stage i : Nat} {frag raw : Bytes}
    (h : Says data stage raw) (hraw : heard raw = some (.block i frag)) :
    stage = 0 ∨ 2 ≤ stage ∧ i < fragCount data.length ∧ frag = piece data i := by
  match stage, h with
  | 0, h => exact .inl rfl
  | 1, h =>
    rcases h with hnone | ⟨owner', hinit⟩
    · rw [hraw] at hnone
      cases hnone
    · rw [hraw] at hinit
      cases hinit
  | stage + 2, h =>
    rcases h with hnone | ⟨j, hj, hblock⟩
    · rw [hraw] at hnone
      cases hnone
    · rw [hraw] at hblock
      cases hblock
      exact .inr ⟨by omega, hj, rfl⟩

/-- Where the sender is: it has begun no block, it calls, or it has been heard. -/
inductive Sends (data : Bytes) (peer1 : RecvBlock) (peerAt : Nat) : Nat → Option BlockSender → Prop
  | none : Sends data peer1 peerAt 0 none
  | calls {s : BlockSender} (sound : s.Sound) (of : s.data = data) (state : s.state = .init) :
      Sends data peer1 peerAt 1 (some s)
  | streams {s : BlockSender} (sound : s.Sound) (of : s.data = data) (state : s.state ≠ .init)
      (armed : 1 ≤ peerAt)
      (full : s.state = .done → ∀ i < fragCount data.length, peer1.flags.testBit i = true) :
      Sends data peer1 peerAt 2 (some s)

/-- The state of the link while a block is sent: how far the host and the reflection have come, and
the stages of what is in flight. -/
structure Staging (w : Link) (data : Bytes) (peerAt hostAt sentAt : Nat)
    (echo forward : List (Nat × Bytes)) : Prop where
  small : data.length ≤ 384
  sender : Sends data w.peer1 peerAt sentAt w.sender
  forward_eq : w.forward = forward.map Prod.snd
  echo_eq : w.echo = echo.map Prod.snd
  ahead : Staged hostAt sentAt forward
  back : Staged peerAt hostAt echo
  whole : ∀ x ∈ echo ++ forward, x.2.length = commSlotLength
  means : ∀ x ∈ echo ++ forward, Says data x.1 x.2
  echoed : ∀ x ∈ echo, 1 ≤ x.1 → ∀ i frag, heard x.2 = some (.block i frag) →
    w.host.flags.testBit i = true
  host : At data hostAt w.host
  peer : At data peerAt w.peer1
  waiting : peerAt = 0 → w.peer1.receiving = false
  reflected : 1 ≤ peerAt → ∀ i, w.peer1.flags.testBit i = true → w.host.flags.testBit i = true

def Link.Inv (w : Link) : Prop :=
  ∃ data peerAt hostAt sentAt echo forward, Staging w data peerAt hostAt sentAt echo forward

/-! ## What a move keeps -/

/-- What hearing a slot does to one that has come to a stage. -/
structure Hears (data : Bytes) (stage before after : Nat) (r r' : RecvBlock) (raw : Bytes) :
    Prop where
  up : before ≤ after
  le : after ≤ stage
  means : Says data after raw
  at_after : At data after r'
  kept : 1 ≤ before → ∀ i, r.flags.testBit i = true → r'.flags.testBit i = true
  written : 1 ≤ after → ∀ i frag, heard raw = some (.block i frag) → r'.flags.testBit i = true
  only : 1 ≤ after → ∀ i, r'.flags.testBit i = true →
    1 ≤ before ∧ r.flags.testBit i = true ∨ ∃ frag, heard raw = some (.block i frag)
  waiting : after = 0 → r.receiving = false → r'.receiving = false

/-- A slot in flight brings one to its stage, or is not heard. Fragments only come to one that has
come to the INIT. -/
theorem At.hears {data : Bytes} {stage before : Nat} {r : RecvBlock} {raw : Bytes}
    (h : At data before r) (hmeans : Says data stage raw) (hle : before ≤ stage)
    (harmed : 2 ≤ stage → 1 ≤ before) :
    ∃ after, Hears data stage before after r (r.hear raw) raw := by
  cases hheard : heard raw with
  | none =>
    have hhear : r.hear raw = r := by
      rw [RecvBlock.hear_eq, hheard]
      rfl
    rw [hhear]
    exact ⟨before, {
      up := Nat.le_refl _
      le := hle
      means := .of_none hheard
      at_after := h
      kept := fun _ _ hi => hi
      written := fun _ i frag hblock => by
        rw [hheard] at hblock
        cases hblock
      only := fun hpos i hi => .inl ⟨hpos, hi⟩
      waiting := fun _ hreceiving => hreceiving }⟩
  | some slot =>
    have hhear : r.hear raw = r.feed slot := by
      rw [RecvBlock.hear_eq, hheard]
      rfl
    rw [hhear]
    cases slot with
    | init count owner =>
      obtain ⟨rfl, rfl⟩ := hmeans.of_init hheard
      have hnew : At data 1 (r.onInit (fragCount data.length) (some owner)) ∧
          (1 ≤ before → r.onInit (fragCount data.length) (some owner) = r) := by
        match before, h with
        | 0, h => exact ⟨Takes.onInit_fresh h, nofun⟩
        | 1, h =>
          have hsame := @Takes.onInit_again data r h.1 h.2 (some owner)
          exact ⟨hsame.symm ▸ h, fun _ => hsame⟩
        | before + 2, h => omega
      exact ⟨1, {
        up := hle
        le := Nat.le_refl 1
        means := hmeans
        at_after := hnew.1
        kept := fun hpos i hi => by
          rw [RecvBlock.feed, hnew.2 hpos]
          exact hi
        written := fun _ i frag hblock => by
          rw [hheard] at hblock
          cases hblock
        only := fun _ i hi => by
          rw [RecvBlock.feed, hnew.1.2, Nat.zero_testBit] at hi
          cases hi
        waiting := nofun }⟩
    | block i frag =>
      rcases hmeans.of_block hheard with rfl | ⟨htwo, hi, rfl⟩
      · -- Of an earlier block: it is not received, or the epoch was full before.
        obtain rfl : before = 0 := Nat.le_zero.mp hle
        have hnew : At data 0 (r.onBlock i frag) ∧
            (r.receiving = false → (r.onBlock i frag).receiving = false) := by
          unfold RecvBlock.onBlock
          split
          · exact ⟨h, id⟩
          · refine ⟨h.imp id fun hdone => ?_, id⟩
            simp only
            split
            · rfl
            · exact hdone
        exact ⟨0, {
          up := Nat.le_refl 0
          le := Nat.le_refl 0
          means := hmeans
          at_after := hnew.1
          kept := nofun
          written := nofun
          only := nofun
          waiting := fun _ => hnew.2 }⟩
      · obtain ⟨htakes, hbits⟩ := (h.takes (harmed htwo)).onBlock hi
        exact ⟨stage, {
          up := hle
          le := Nat.le_refl stage
          means := hmeans
          at_after := by
            obtain ⟨more, rfl⟩ := Nat.exists_eq_add_of_le' htwo
            exact htakes
          kept := fun _ j hj => (hbits j).mpr (.inr hj)
          written := fun _ j frag hblock => by
            rw [hheard] at hblock
            cases hblock
            exact (hbits i).mpr (.inl rfl)
          only := fun _ j hj => by
            rcases (hbits j).mp hj with rfl | hold
            · exact .inr ⟨_, hheard⟩
            · exact .inl ⟨harmed htwo, hold⟩
          waiting := fun hzero => by omega }⟩
    | req reqtype =>
      unfold heard at hheard
      split at hheard <;> cases hheard
    | other op =>
      unfold heard at hheard
      split at hheard <;> cases hheard

namespace Staging

variable {w : Link} {data : Bytes} {peerAt hostAt sentAt : Nat} {echo forward : List (Nat × Bytes)}

theorem full_of_done (h : Staging w data peerAt hostAt sentAt echo forward)
    {s : BlockSender} (hs : w.sender = some s) (hdone : s.state = .done) :
    s.Sound ∧ s.data = data ∧ sentAt = 2 ∧ 2 ≤ peerAt ∧ Takes data w.host ∧
      ∀ i < fragCount data.length, w.host.flags.testBit i = true := by
  have hsender := h.sender
  rw [hs] at hsender
  cases hsender with
  | calls sound of state =>
    rw [hdone] at state
    cases state
  | streams sound of state armed full =>
    have hbits := full hdone
    have htwo : 2 ≤ peerAt := by
      by_contra hless
      have hone : peerAt = 1 := by omega
      have hpeer := h.peer
      rw [hone] at hpeer
      have hbit := hbits 0 (BlockSender.fragCount_pos _)
      rw [hpeer.2, Nat.zero_testBit] at hbit
      cases hbit
    have hends := h.back.ends
    exact ⟨sound, of, rfl, htwo, h.host.takes (by omega),
      fun i hi => h.reflected armed i (hbits i hi)⟩

/-- The sender streams only after its INIT was reflected. -/
theorem armed_of_two (h : Staging w data peerAt hostAt sentAt echo forward) (htwo : 2 ≤ sentAt) :
    1 ≤ peerAt := by
  have hsender := h.sender
  generalize w.sender = sender at hsender
  cases hsender with
  | none => omega
  | calls sound of state => omega
  | streams sound of state armed full => exact armed

/-- A block is begun: all that is in flight is of earlier ones. -/
theorem begin (h : Staging w data peerAt hostAt sentAt echo forward) (hfree : w.free = true)
    {data' : Bytes} {owner : Nat} (hsmall : data'.length ≤ 384) :
    Link.Inv { w with sender := some (.new data' owner false), peer1 := {} } := by
  have hold : (∀ x ∈ echo ++ forward, ∀ count owner, heard x.2 ≠ some (.init count owner)) ∧
      (w.host.receiving = false ∨ w.host.done = true) := by
    cases hs : w.sender with
    | none =>
      have hsender := h.sender
      rw [hs] at hsender
      cases hsender
      have hhostAt : hostAt = 0 := Nat.le_zero.mp h.ahead.ends
      have hhost := h.host
      rw [hhostAt] at hhost
      refine ⟨fun x hx count owner hinit => ?_, hhost⟩
      have hstage := ((h.means x hx).of_init hinit).1
      rcases List.mem_append.mp hx with hx | hx
      · have hle := h.back.high x hx
        omega
      · have hle := h.ahead.high x hx
        omega
    | some s =>
      have hdone : s.state = .done := by
        rw [Link.free, hs] at hfree
        exact of_decide_eq_true hfree
      obtain ⟨-, -, -, htwo, htakes, hbits⟩ := h.full_of_done hs hdone
      have hfull : w.host.done = true := by
        rw [htakes.done, htakes.full_iff, htakes.count]
        exact hbits
      refine ⟨fun x hx count owner hinit => ?_, .inr hfull⟩
      have hstage := ((h.means x hx).of_init hinit).1
      have hends := h.back.ends
      rcases List.mem_append.mp hx with hx | hx
      · have hle := h.back.low x hx
        omega
      · have hle := h.ahead.low x hx
        omega
  have hzero : ∀ xs : List (Nat × Bytes), (xs.map fun x => (0, x.2)).map Prod.snd =
      xs.map Prod.snd := by
    intro xs
    rw [List.map_map]
    rfl
  have hmem : ∀ xs : List (Nat × Bytes), ∀ x ∈ xs.map (fun x => ((0 : Nat), x.2)),
      x.1 = 0 ∧ ∃ y ∈ xs, y.2 = x.2 := by
    intro xs x hx
    obtain ⟨y, hy, rfl⟩ := List.mem_map.mp hx
    exact ⟨rfl, y, hy, rfl⟩
  have hboth : ∀ x ∈ echo.map (fun x => ((0 : Nat), x.2)) ++ forward.map (fun x => (0, x.2)),
      x.1 = 0 ∧ ∃ y ∈ echo ++ forward, y.2 = x.2 := by
    intro x hx
    rw [← List.map_append] at hx
    exact hmem _ x hx
  exact ⟨data', 0, 0, 1, _, _, {
    small := hsmall
    sender := .calls .new rfl rfl
    forward_eq := h.forward_eq.trans (hzero _).symm
    echo_eq := h.echo_eq.trans (hzero _).symm
    ahead := .const (by decide) fun x hx => (hmem _ x hx).1
    back := .const (Nat.le_refl 0) fun x hx => (hmem _ x hx).1
    whole := fun x hx => by
      obtain ⟨-, y, hy, hyx⟩ := hboth x hx
      rw [← hyx]
      exact h.whole y hy
    means := fun x hx => by
      obtain ⟨hx0, y, hy, hyx⟩ := hboth x hx
      rw [hx0, ← hyx]
      exact hold.1 y hy
    echoed := fun x hx hpos => by
      have hx0 := (hmem _ x hx).1
      omega
    host := hold.2
    peer := .inl rfl
    waiting := fun _ => rfl
    reflected := nofun }⟩

/-- A slot is sent at the stage the sender has come to. -/
theorem send (h : Staging w data peerAt hostAt sentAt echo forward) {raw : Bytes}
    (hwhole : raw.length = commSlotLength) (hmeans : Says data sentAt raw) :
    Staging { w with forward := w.forward ++ [raw] } data peerAt hostAt sentAt echo
      (forward ++ [(sentAt, raw)]) where
  small := h.small
  sender := h.sender
  forward_eq := by
    rw [List.map_append, ← h.forward_eq]
    rfl
  echo_eq := h.echo_eq
  ahead := h.ahead.send raw
  back := h.back
  whole x hx := by
    rw [← List.append_assoc] at hx
    rcases List.mem_append.mp hx with hx | hx
    · exact h.whole x hx
    · rw [List.mem_singleton.mp hx]
      exact hwhole
  means x hx := by
    rw [← List.append_assoc] at hx
    rcases List.mem_append.mp hx with hx | hx
    · exact h.means x hx
    · rw [List.mem_singleton.mp hx]
      exact hmeans
  echoed := h.echoed
  host := h.host
  peer := h.peer
  waiting := h.waiting
  reflected := h.reflected

/-- The sender goes on. -/
theorem advance (h : Staging w data peerAt hostAt sentAt echo forward) {s : BlockSender}
    {sentAt' : Nat} (hle : sentAt ≤ sentAt') (hsends : Sends data w.peer1 peerAt sentAt' (some s)) :
    Staging { w with sender := some s } data peerAt hostAt sentAt' echo forward :=
  { h with sender := hsends, ahead := h.ahead.raise hle }

theorem fragCount_le {n : Nat} (h : n ≤ 384) : fragCount n ≤ 32 := by
  rw [fragCount, fragBytes]
  omega

theorem tick (h : Staging w data peerAt hostAt sentAt echo forward) {s : BlockSender}
    (hs : w.sender = some s) {tag : Nat} (htag : tag < 8) :
    Link.Inv { w with
      sender := some (s.tick (some w.peer1)).1
      forward := w.forward ++ [build tag (s.tick (some w.peer1)).2] } := by
  have hshort := fragCount_le h.small
  have hsender := h.sender
  rw [hs] at hsender
  have hsound : s.Sound ∧ s.data = data := by
    cases hsender with
    | calls sound of state => exact ⟨sound, of⟩
    | streams sound of state armed full => exact ⟨sound, of⟩
  obtain ⟨hsound, hof⟩ := hsound
  have hcount : s.count = fragCount data.length := hof ▸ hsound.count
  have hticked := @BlockSender.Sound.ticked s w.peer1 hsound
  generalize s.tick (some w.peer1) = r at hticked
  cases hticked with
  | @calls s' keeps before after =>
    have hone : sentAt = 1 := by
      cases hsender with
      | calls sound of state => rfl
      | streams sound of state armed full => exact absurd before state
    subst hone
    have hnext := h.advance (Nat.le_refl 1) (.calls keeps.sound (keeps.data.trans hof) after)
    refine ⟨_, _, _, _, _, _, hnext.send length_build (.inr ⟨ownerRaw s.owner, ?_⟩)⟩
    rw [heard_initWords htag (by omega), hcount]
  | @sends s' index keeps before undone after lt =>
    have hinit : s'.state ≠ .init ∧ s'.state ≠ .done := by
      rcases after with hstate | hstate
      · rw [hstate]
        exact ⟨nofun, nofun⟩
      · rw [hstate]
        exact ⟨nofun, nofun⟩
    have harmed : sentAt ≤ 2 ∧ 1 ≤ peerAt := by
      cases hsender with
      | calls sound of state =>
        refine ⟨by decide, ?_⟩
        by_contra hzero
        have hwaiting := h.waiting (by omega)
        rw [(before state).1] at hwaiting
        cases hwaiting
      | streams sound of state armed full => exact ⟨Nat.le_refl 2, armed⟩
    have hnext := h.advance harmed.1 (.streams keeps.sound (keeps.data.trans hof) hinit.1 harmed.2
      fun hdone => absurd hdone hinit.2)
    refine ⟨_, _, _, _, _, _, hnext.send length_build (.inr ⟨index, hcount ▸ lt, ?_⟩)⟩
    rw [heard_sendBlockWords htag (by omega), BlockSender.chunk, hof]
    rfl
  | @ends s' keeps before full after =>
    have hstreams : sentAt = 2 ∧ 1 ≤ peerAt ∧
        (s.state = .done → ∀ i < fragCount data.length, w.peer1.flags.testBit i = true) := by
      cases hsender with
      | calls sound of state =>
        rw [state] at before
        rcases before with hbefore | hbefore <;> cases hbefore
      | streams sound of state armed full => exact ⟨rfl, armed, full⟩
    obtain ⟨htwo, harmed, hdone⟩ := hstreams
    subst htwo
    have hinit : s'.state ≠ .init := by
      rw [after]
      nofun
    have hbits : ∀ i < fragCount data.length, w.peer1.flags.testBit i = true := by
      rcases before with hhold | hbefore
      · have htakes := h.peer.takes harmed
        have hfull := htakes.full_iff.mp (by rw [htakes.count, ← hcount]; exact full hhold)
        rw [htakes.count] at hfull
        exact hfull
      · exact hdone hbefore
    have hnext := h.advance (Nat.le_refl 2)
      (.streams keeps.sound (keeps.data.trans hof) hinit harmed fun _ => hbits)
    have hidle : heard (build tag idleWords) = none := heard_of_quiet build_idle
    exact ⟨_, _, _, _, _, _, hnext.send length_build (.of_none hidle)⟩

theorem lose (h : Staging w data peerAt hostAt sentAt echo forward) {i : Nat} :
    Link.Inv { w with forward := w.forward.eraseIdx i } := by
  have hlost : (w.forward.eraseIdx i).Sublist (forward.map Prod.snd) := by
    rw [← h.forward_eq]
    exact List.eraseIdx_sublist _ i
  obtain ⟨forward', hsub, heq⟩ := exists_lost hlost
  have hmem : ∀ x ∈ echo ++ forward', x ∈ echo ++ forward := fun x hx =>
    (hsub.append_left echo).subset hx
  exact ⟨data, peerAt, hostAt, sentAt, echo, forward', { h with
    forward_eq := heq
    ahead := h.ahead.sublist hsub
    whole := fun x hx => h.whole x (hmem x hx)
    means := fun x hx => h.means x (hmem x hx) }⟩

theorem loseEcho (h : Staging w data peerAt hostAt sentAt echo forward) {i : Nat} :
    Link.Inv { w with echo := w.echo.eraseIdx i } := by
  have hlost : (w.echo.eraseIdx i).Sublist (echo.map Prod.snd) := by
    rw [← h.echo_eq]
    exact List.eraseIdx_sublist _ i
  obtain ⟨echo', hsub, heq⟩ := exists_lost hlost
  have hmem : ∀ x ∈ echo' ++ forward, x ∈ echo ++ forward := fun x hx =>
    (hsub.append_right forward).subset hx
  exact ⟨data, peerAt, hostAt, sentAt, echo', forward, { h with
    echo_eq := heq
    back := h.back.sublist hsub
    whole := fun x hx => h.whole x (hmem x hx)
    means := fun x hx => h.means x (hmem x hx)
    echoed := fun x hx => h.echoed x (hsub.subset hx) }⟩

/-- The host takes the oldest slot and reflects it. -/
theorem receive (h : Staging w data peerAt hostAt sentAt echo forward) {raw : Bytes}
    {rest : List Bytes} (hw : w.forward = raw :: rest) {strip : Bool} :
    Link.Inv { w with
      host := w.host.hear raw
      forward := rest
      echo := w.echo ++ [if strip then parentReflectChild raw else raw] } := by
  cases forward with
  | nil =>
    rw [h.forward_eq] at hw
    cases hw
  | cons x forward =>
    obtain ⟨stage, slot⟩ := x
    obtain ⟨rfl, rfl⟩ := List.cons.inj (h.forward_eq.symm.trans hw)
    have hmem : (stage, slot) ∈ echo ++ (stage, slot) :: forward :=
      List.mem_append_right _ List.mem_cons_self
    have hwhole : slot.length = commSlotLength := h.whole _ hmem
    have hmeans : Says data stage slot := h.means _ hmem
    generalize hreflected : (if strip then parentReflectChild slot else slot) = reflected
    have hsame : heard reflected = heard slot ∧ reflected.length = commSlotLength := by
      rw [← hreflected]
      split
      · exact ⟨heard_reflect hwhole, length_reflect.trans hwhole⟩
      · exact ⟨rfl, hwhole⟩
    have hstage : hostAt ≤ stage := h.ahead.low _ List.mem_cons_self
    have hsent : stage ≤ sentAt := h.ahead.high _ List.mem_cons_self
    obtain ⟨hostAt', hhears⟩ := h.host.hears hmeans hstage fun htwo =>
      (h.armed_of_two (htwo.trans hsent)).trans h.back.ends
    refine ⟨data, peerAt, hostAt', sentAt, echo ++ [(hostAt', reflected)], forward, {
      small := h.small
      sender := h.sender
      forward_eq := rfl
      echo_eq := by
        rw [List.map_append, ← h.echo_eq]
        rfl
      ahead := h.ahead.take hhears.le
      back := (h.back.raise hhears.up).send reflected
      whole := fun y hy => ?_
      means := fun y hy => ?_
      echoed := fun y hy hpos i frag hblock => ?_
      host := hhears.at_after
      peer := h.peer
      waiting := h.waiting
      reflected := fun hpos i hi =>
        hhears.kept (hpos.trans h.back.ends) i (h.reflected hpos i hi) }⟩
    · rw [List.append_assoc] at hy
      rcases List.mem_append.mp hy with hy | hy
      · exact h.whole y (List.mem_append_left _ hy)
      · rcases List.mem_cons.mp hy with rfl | hy
        · exact hsame.2
        · exact h.whole y (List.mem_append_right _ (List.mem_cons_of_mem _ hy))
    · rw [List.append_assoc] at hy
      rcases List.mem_append.mp hy with hy | hy
      · exact h.means y (List.mem_append_left _ hy)
      · rcases List.mem_cons.mp hy with rfl | hy
        · exact hhears.means.congr hsame.1
        · exact h.means y (List.mem_append_right _ (List.mem_cons_of_mem _ hy))
    · rcases List.mem_append.mp hy with hy | hy
      · exact hhears.kept (hpos.trans (h.back.high y hy)) i (h.echoed y hy hpos i frag hblock)
      · rw [List.mem_singleton.mp hy] at hpos hblock
        exact hhears.written hpos i frag (hsame.1.symm.trans hblock)

/-- The sender hears the oldest slot that is reflected. -/
theorem hear (h : Staging w data peerAt hostAt sentAt echo forward) {raw : Bytes}
    {rest : List Bytes} (hw : w.echo = raw :: rest) :
    Link.Inv { w with peer1 := w.peer1.hear raw, echo := rest } := by
  cases echo with
  | nil =>
    rw [h.echo_eq] at hw
    cases hw
  | cons x echo =>
    obtain ⟨stage, slot⟩ := x
    obtain ⟨rfl, rfl⟩ := List.cons.inj (h.echo_eq.symm.trans hw)
    have hmeans : Says data stage slot := h.means _ List.mem_cons_self
    have hstage : peerAt ≤ stage := h.back.low _ List.mem_cons_self
    have hsent : stage ≤ sentAt := (h.back.high _ List.mem_cons_self).trans h.ahead.ends
    obtain ⟨peerAt', hhears⟩ := h.peer.hears hmeans hstage fun htwo =>
      h.armed_of_two (htwo.trans hsent)
    have hsender : Sends data (w.peer1.hear slot) peerAt' sentAt w.sender := by
      have hsends := h.sender
      generalize w.sender = sender at hsends
      cases hsends with
      | none => exact .none
      | calls sound of state => exact .calls sound of state
      | streams sound of state armed full =>
        exact .streams sound of state (armed.trans hhears.up) fun hdone i hi =>
          hhears.kept armed i (full hdone i hi)
    exact ⟨data, peerAt', hostAt, sentAt, echo, forward, {
      small := h.small
      sender := hsender
      forward_eq := h.forward_eq
      echo_eq := rfl
      ahead := h.ahead
      back := h.back.take hhears.le
      whole := fun y hy => h.whole y (List.mem_cons_of_mem _ hy)
      means := fun y hy => h.means y (List.mem_cons_of_mem _ hy)
      echoed := fun y hy => h.echoed y (List.mem_cons_of_mem _ hy)
      host := h.host
      peer := hhears.at_after
      waiting := fun hzero => hhears.waiting hzero
        (h.waiting (Nat.le_zero.mp (hzero ▸ hhears.up)))
      reflected := fun hpos i hi => by
        rcases hhears.only hpos i hi with ⟨hbefore, hold⟩ | ⟨frag, hblock⟩
        · exact h.reflected hbefore i hold
        · exact h.echoed _ List.mem_cons_self (hpos.trans hhears.le) i frag hblock }⟩

end Staging

/-! ## A block is confirmed -/

theorem Link.inv_init : Link.Inv {} :=
  ⟨[], 0, 0, 0, [], [], {
    small := Nat.zero_le _
    sender := .none
    forward_eq := rfl
    echo_eq := rfl
    ahead := .nil (Nat.le_refl 0)
    back := .nil (Nat.le_refl 0)
    whole := nofun
    means := nofun
    echoed := nofun
    host := .inl rfl
    peer := .inl rfl
    waiting := fun _ => rfl
    reflected := nofun }⟩

theorem Link.step_inv {w w' : Link} {move : Move} (h : w.Inv) (hstep : w.step move = some w') :
    w'.Inv := by
  obtain ⟨data, peerAt, hostAt, sentAt, echo, forward, hstaging⟩ := h
  cases move with
  | begin data' owner =>
    rw [Link.step] at hstep
    split at hstep
    · rename_i hblock
      cases hstep
      exact hstaging.begin hblock.2.2 hblock.2.1
    · cases hstep
  | tick tag =>
    rw [Link.step] at hstep
    split at hstep
    · cases hstep
    · rename_i s hs
      split at hstep
      · rename_i htag
        cases hstep
        exact hstaging.tick hs htag
      · cases hstep
  | other raw =>
    rw [Link.step] at hstep
    split at hstep
    · rename_i hquiet
      cases hstep
      exact ⟨_, _, _, _, _, _, hstaging.send hquiet.1 (.of_none (heard_of_quiet hquiet))⟩
    · cases hstep
  | lose i =>
    cases hstep
    exact hstaging.lose
  | receive strip =>
    rw [Link.step] at hstep
    split at hstep
    · cases hstep
    · rename_i raw rest hforward
      cases hstep
      exact hstaging.receive hforward
  | loseEcho i =>
    cases hstep
    exact hstaging.loseEcho
  | hear =>
    rw [Link.step] at hstep
    split at hstep
    · cases hstep
    · rename_i raw rest hecho
      cases hstep
      exact hstaging.hear hecho

theorem reachable_inv {w : Link} (h : linkSystem.Reachable System.Free w) : w.Inv := by
  refine h.invariant ?_ ?_
  · rintro w rfl
    exact Link.inv_init
  · intro w move w' hinv _ hnext
    exact Link.step_inv hinv hnext

/-- A sender that is done was confirmed: the host's block is complete, and is the block that the
sender sent, filled up with zeros to whole fragments. -/
theorem done_confirmed {w : Link} (h : linkSystem.Reachable System.Free w) {s : BlockSender}
    (hs : w.sender = some s) (hdone : s.state = .done) :
    w.host.done = true ∧ w.host.count = fragCount s.data.length ∧
      w.host.buf = padded (fragCount s.data.length * fragBytes) 0 s.data := by
  obtain ⟨data, peerAt, hostAt, sentAt, echo, forward, hstaging⟩ := reachable_inv h
  obtain ⟨-, rfl, -, -, htakes, hbits⟩ := hstaging.full_of_done hs hdone
  rw [← htakes.count] at hbits
  exact ⟨htakes.done.mpr (htakes.full_iff.mpr hbits), htakes.count, htakes.buf_of_full hbits⟩

/-- A block of one byte is confirmed while the reflection of its last fragment is in flight twice,
and then another of the same size. -/
def twoBlocks : List Move :=
  [.begin [1] 1, .tick 0, .tick 1, .receive false, .hear, .lose 0, .tick 2, .tick 3, .receive true,
    .receive false, .hear, .tick 4, .begin [2] 1, .tick 5, .hear, .receive true, .receive true,
    .hear, .hear, .tick 6, .tick 7, .lose 0, .receive true, .hear, .tick 0]

/-- The host holds the second block. -/
theorem done_confirmed_twice : ∃ w s, linkSystem.Reachable System.Free w ∧ w.sender = some s ∧
    s.data = [2] ∧ w.host.done = true ∧ w.host.buf = 2 :: List.replicate 11 0 := by
  have hplay : ∃ w s, System.play Link.step System.Free {} twoBlocks = some w ∧
      w.sender = some s ∧ s.state = .done ∧ s.data = [2] := ⟨_, _, rfl, rfl, rfl, rfl⟩
  obtain ⟨w, s, hplay, hs, hdone, hdata⟩ := hplay
  have hreachable : linkSystem.Reachable System.Free w :=
    (System.Reachable.init rfl).run (System.run_of_play hplay)
  obtain ⟨hhost, -, hbuf⟩ := done_confirmed hreachable hs hdone
  rw [hdata] at hbuf
  exact ⟨w, s, hreachable, hs, hdata, hhost, hbuf⟩

end SwitchTrade.Rfu

import Mathlib.Data.List.Dedup
import Mathlib.Data.List.Induction
import Mathlib.Data.List.Perm.Subperm

/-!
# The barrier responder

`BarrierResponder` of `bridge/frlgsim/barrier.py`: the child's half of the standby and close-link
barriers. A standby round is completed by the echo of our own count, by the host going on to the
next count, or by the host falling silent; a round is of the count that the host broadcast
(`roundOf`).

The close is meant to be the end, but `initiate` and a standby of the host both leave it. Where they
do not happen in the close (`Reopens`), the close is the end, the count only goes up before it, and
no count of the host is counted twice (`disciplined_iff`).
-/

namespace SwitchTrade.Rfu

/-- `READY_EXIT_STANDBY`. -/
def readyExitStandby : Nat := 0x6600

/-- `READY_CLOSE_LINK`. -/
def readyCloseLink : Nat := 0x5F00

/-- `INITIATE_TIMEOUT`. -/
def initiateTimeout : Nat := 120

/-- `IDLE_TIMEOUT`. -/
def idleTimeout : Nat := 90

/-- `exit_standby_words`. -/
def exitStandbyWords (count : Nat) : List Nat := [readyExitStandby, count &&& 0xFFFF, 0, 0, 0, 0, 0]

/-- `close_link_words`. -/
def closeLinkWords (count : Nat) : List Nat := [readyCloseLink, count &&& 0xFFFF, 0, 0, 0, 0, 0]

inductive BarrierMode where
  | idle
  | standby
  | close
  deriving DecidableEq, Repr

/-- What `on_in_slot` reads of a parsed slot. -/
structure InSlot where
  op : Option Nat
  count : Option Nat
  deriving DecidableEq, Repr

structure BarrierResponder where
  mode : BarrierMode := .idle
  initiated : Bool := false
  hostCount : Option Nat := none
  localCount : Nat := 0
  sinceHost : Nat := 0
  sinceInitiate : Nat := 0
  rounds : Nat := 0
  maxEmits : Option Nat := none
  burstFor : Option Nat := none
  burstN : Nat := 0
  deriving DecidableEq, Repr

namespace BarrierResponder

/-- `reset_to_idle`. -/
def resetToIdle (b : BarrierResponder) : BarrierResponder :=
  if b.mode = .standby then
    { b with mode := .idle, initiated := false, sinceInitiate := 0, burstFor := none }
  else b

/-- `initiate`; every kind but `CLOSE` is a standby. -/
def initiate (b : BarrierResponder) (kind : BarrierMode) : BarrierResponder :=
  if kind = .close then
    if b.mode ≠ .close then
      { b with mode := .close, initiated := true, sinceHost := 0, sinceInitiate := 0 }
    else b
  else if b.mode = .standby then b
  else
    { b with
      mode := .standby
      initiated := true
      hostCount := none
      sinceHost := 0
      sinceInitiate := 0
      burstFor := none }

/-- `_on_host_standby`. -/
def onHostStandby (b : BarrierResponder) (count : Nat) : BarrierResponder × Bool :=
  let prevHost := b.hostCount
  let b := { b with sinceHost := 0, hostCount := some count }
  if b.initiated && b.mode = .standby then
    if count = b.localCount then
      ({ b with
        localCount := b.localCount + 1
        rounds := b.rounds + 1
        mode := .idle
        initiated := false
        sinceInitiate := 0 }, true)
    else (b, false)
  else if count < b.localCount then (b, false)
  else
    let b :=
      if b.mode ≠ .standby then { b with mode := .standby, initiated := false }
      else if prevHost.isSome && prevHost ≠ some count then { b with rounds := b.rounds + 1 }
      else b
    ({ b with localCount := count, sinceInitiate := 0 }, false)

/-- `_on_host_close`. -/
def onHostClose (b : BarrierResponder) (count : Nat) : BarrierResponder :=
  let b := { b with sinceHost := 0, hostCount := some count, localCount := count }
  if b.mode ≠ .close then { b with mode := .close, initiated := false } else b

/-- `on_in_slot`. -/
def onInSlot (b : BarrierResponder) (parsed : Option InSlot) : BarrierResponder × Bool :=
  match parsed with
  | none => (b, false)
  | some slot =>
    if slot.op = some readyExitStandby then b.onHostStandby (slot.count.getD 0)
    else if slot.op = some readyCloseLink then (b.onHostClose (slot.count.getD 0), false)
    else (b, false)

/-- `observe_frame`. -/
def observeFrame (b : BarrierResponder) (sawBarrier : Bool) : BarrierResponder :=
  if b.mode ≠ .standby then b
  else if sawBarrier then { b with sinceHost := 0, sinceInitiate := 0 }
  else
    let b := { b with sinceHost := b.sinceHost + 1 }
    if b.initiated then
      let b := { b with sinceInitiate := b.sinceInitiate + 1 }
      if initiateTimeout < b.sinceInitiate then { b with mode := .idle, initiated := false } else b
    else if idleTimeout < b.sinceHost then
      { b with localCount := b.localCount + 1, rounds := b.rounds + 1, mode := .idle }
    else b

/-- `want_emit`. -/
def wantEmit (b : BarrierResponder) : BarrierResponder × Option (List Nat) :=
  let words (b : BarrierResponder) :=
    if b.mode = .standby then exitStandbyWords b.localCount else closeLinkWords b.localCount
  if b.mode = .idle then (b, none)
  else
    match b.maxEmits with
    | none => (b, some (words b))
    | some maxEmits =>
      let b :=
        if b.burstFor ≠ some b.localCount then
          { b with burstFor := some b.localCount, burstN := 0 }
        else b
      if maxEmits ≤ b.burstN then (b, none)
      else
        let b := { b with burstN := b.burstN + 1 }
        (b, some (words b))

/-! ## Runs -/

inductive Call where
  | initiate (kind : BarrierMode)
  | onInSlot (parsed : Option InSlot)
  | observeFrame (sawBarrier : Bool)
  | resetToIdle
  | wantEmit
  deriving DecidableEq, Repr

def apply (b : BarrierResponder) : Call → BarrierResponder
  | .initiate kind => b.initiate kind
  | .onInSlot parsed => (b.onInSlot parsed).1
  | .observeFrame sawBarrier => b.observeFrame sawBarrier
  | .resetToIdle => b.resetToIdle
  | .wantEmit => b.wantEmit.1

/-- The responder after some calls; `max_emits` is set before the first. -/
def run (maxEmits : Option Nat) (calls : List Call) : BarrierResponder :=
  calls.foldl apply { maxEmits := maxEmits }

/-- The count of a standby slot of the host. -/
def hostCountOf : Call → Option Nat
  | .onInSlot (some slot) =>
    if slot.op = some readyExitStandby then some (slot.count.getD 0) else none
  | _ => none

/-- The counts of the standby slots of the host, in order. -/
def hostCounts (calls : List Call) : List Nat := calls.filterMap hostCountOf

/-- The count whose round a call completes: its echo, the count the host goes on from, or the count
the host has last broadcast. -/
def roundOf (b : BarrierResponder) : Call → Option Nat
  | .onInSlot (some slot) =>
    if slot.op = some readyExitStandby then
      let count := slot.count.getD 0
      if b.initiated && b.mode = .standby then
        if count = b.localCount then some count else none
      else if count < b.localCount then none
      else if b.mode = .standby && b.hostCount ≠ some count then b.hostCount
      else none
    else none
  | .observeFrame sawBarrier =>
    if b.mode = .standby && !sawBarrier && !b.initiated && idleTimeout < b.sinceHost + 1 then
      b.hostCount
    else none
  | _ => none

/-- The counts of the rounds that were completed, in order. -/
def completed (b : BarrierResponder) : List Call → List Nat
  | [] => []
  | call :: calls => (b.roundOf call).toList ++ (b.apply call).completed calls

/-- A call that leaves the close: the start of a standby, or a standby of the host that is not
behind our count. -/
def Reopens (b : BarrierResponder) (call : Call) : Prop :=
  b.mode = .close ∧
    ((∃ kind, call = .initiate kind ∧ kind ≠ .close) ∨
      ∃ count, hostCountOf call = some count ∧ b.localCount ≤ count)

/-- What is asked of the responder over a run. -/
structure Disciplined (maxEmits : Option Nat) (calls : List Call) : Prop where
  terminal : ∀ pre mid post, calls = pre ++ mid ++ post → (run maxEmits pre).mode = .close →
    (run maxEmits (pre ++ mid)).mode = .close
  climbs : ∀ pre call post, calls = pre ++ call :: post →
    (∀ before, before <+: pre ++ [call] → (run maxEmits before).mode ≠ .close) →
      (run maxEmits pre).localCount ≤ (run maxEmits (pre ++ [call])).localCount
  held : ∀ pre saw post, calls = pre ++ .observeFrame saw :: post →
    (run maxEmits pre).mode = .standby → (run maxEmits pre).initiated = true →
      (run maxEmits (pre ++ [.observeFrame saw])).localCount = (run maxEmits pre).localCount
  counted : ∀ pre post, calls = pre ++ post → (hostCounts pre).Pairwise (· ≤ ·) →
    let rounds := completed { maxEmits := maxEmits } pre
    (run maxEmits pre).rounds = rounds.length ∧ rounds.Nodup ∧ rounds ⊆ hostCounts pre ∧
      (run maxEmits pre).rounds ≤ (hostCounts pre).dedup.length

/-! ## What a call does -/

/-- What the barriers are about: the rest are watchdogs and the emission. -/
structure View where
  mode : BarrierMode
  initiated : Bool
  hostCount : Option Nat
  localCount : Nat
  rounds : Nat

def view (b : BarrierResponder) : View :=
  ⟨b.mode, b.initiated, b.hostCount, b.localCount, b.rounds⟩

/-- What a call can do, and the round it completes. -/
inductive Effect (v : View) (call : Call) : View → Option Nat → Prop
  | stays (silent : hostCountOf call = none) (calm : ∀ kind, call = .initiate kind →
      kind = .close ∧ v.mode = .close ∨ kind ≠ .close ∧ v.mode = .standby) : Effect v call v none
  | drops (standby : v.mode = .standby) (silent : hostCountOf call = none) :
      Effect v call { v with mode := .idle, initiated := false } none
  | starts {kind : BarrierMode} (is : call = .initiate kind) (ne : kind ≠ .close)
      (before : v.mode ≠ .standby) :
      Effect v call { v with mode := .standby, initiated := true, hostCount := none } none
  | closes (silent : hostCountOf call = none) (before : v.mode ≠ .close) :
      Effect v call { v with mode := .close, initiated := true } none
  | hostCloses {slot : InSlot} (is : call = .onInSlot (some slot))
      (silent : hostCountOf call = none) (count : Nat) (initiated : Bool) : Effect v call
        { v with mode := .close, initiated, hostCount := some count, localCount := count } none
  | waits {count : Nat} (is : hostCountOf call = some count) (standby : v.mode = .standby)
      (initiated : v.initiated = true) : Effect v call { v with hostCount := some count } none
  | ignores {count : Nat} (is : hostCountOf call = some count) (behind : count < v.localCount)
      (reactive : v.mode = .standby → v.initiated = false) :
      Effect v call { v with hostCount := some count } none
  | echoes (is : hostCountOf call = some v.localCount) (standby : v.mode = .standby) :
      Effect v call ⟨.idle, false, some v.localCount, v.localCount + 1, v.rounds + 1⟩
        (some v.localCount)
  | mirrors {count : Nat} (is : hostCountOf call = some count) (le : v.localCount ≤ count)
      (before : v.mode ≠ .standby) :
      Effect v call ⟨.standby, false, some count, count, v.rounds⟩ none
  | advances {count prev : Nat} (is : hostCountOf call = some count) (le : v.localCount ≤ count)
      (standby : v.mode = .standby) (reactive : v.initiated = false)
      (was : v.hostCount = some prev) (ne : prev ≠ count) :
      Effect v call ⟨.standby, false, some count, count, v.rounds + 1⟩ (some prev)
  | repeats {count : Nat} (is : hostCountOf call = some count) (le : v.localCount ≤ count)
      (standby : v.mode = .standby) (reactive : v.initiated = false) :
      Effect v call ⟨.standby, false, some count, count, v.rounds⟩ none
  | silence (silent : hostCountOf call = none) (standby : v.mode = .standby)
      (reactive : v.initiated = false) :
      Effect v call
        { v with mode := .idle, localCount := v.localCount + 1, rounds := v.rounds + 1 }
        v.hostCount

section

variable {b : BarrierResponder}

theorem effect_initiate (kind : BarrierMode) :
    Effect b.view (.initiate kind) (b.initiate kind).view none := by
  unfold initiate
  split
  · rename_i hkind
    split
    · rename_i hmode
      exact .closes rfl hmode
    · rename_i hmode
      refine .stays rfl fun kind' heq => ?_
      cases heq
      exact .inl ⟨hkind, not_not.mp hmode⟩
  · rename_i hkind
    split
    · rename_i hmode
      refine .stays rfl fun kind' heq => ?_
      cases heq
      exact .inr ⟨hkind, hmode⟩
    · rename_i hmode
      exact .starts rfl hkind hmode

theorem effect_resetToIdle : Effect b.view .resetToIdle b.resetToIdle.view none := by
  unfold resetToIdle
  split
  · rename_i hmode
    exact .drops hmode rfl
  · exact .stays rfl nofun

theorem effect_observeFrame (saw : Bool) :
    Effect b.view (.observeFrame saw) (b.observeFrame saw).view
      (b.roundOf (.observeFrame saw)) := by
  obtain ⟨mode, initiated, hostCount, localCount, sinceHost, sinceInitiate, rounds⟩ := b
  cases mode with
  | idle => exact .stays rfl nofun
  | close => exact .stays rfl nofun
  | standby =>
    cases saw with
    | true => exact .stays rfl nofun
    | false =>
      cases initiated with
      | true =>
        by_cases hwatchdog : initiateTimeout < sinceInitiate + 1
        · simp only [observeFrame, roundOf, hwatchdog]
          exact .drops rfl rfl
        · simp only [observeFrame, roundOf, hwatchdog]
          exact .stays rfl nofun
      | false =>
        by_cases hwatchdog : idleTimeout < sinceHost + 1
        · simp only [observeFrame, roundOf, hwatchdog]
          exact .silence rfl rfl rfl
        · simp only [observeFrame, roundOf, hwatchdog]
          exact .stays rfl nofun

theorem effect_wantEmit : Effect b.view .wantEmit b.wantEmit.1.view none := by
  have hview : b.wantEmit.1.view = b.view := by
    unfold wantEmit
    simp only
    split
    · rfl
    · split
      · rfl
      · split <;> split <;> rfl
  rw [hview]
  exact .stays rfl nofun

/-- What a standby of the host does when we are in none. -/
theorem effect_outside {call : Call} {count : Nat} (h : hostCountOf call = some count)
    (hmode : b.mode ≠ .standby) :
    Effect b.view call (b.onHostStandby count).1.view none := by
  by_cases hbehind : count < b.localCount
  · simp only [onHostStandby, hmode, hbehind, decide_false, Bool.and_false, Bool.false_eq_true,
      if_false, if_true]
    exact .ignores h hbehind fun hstandby => absurd hstandby hmode
  · simp only [onHostStandby, hmode, hbehind, decide_false, Bool.and_false, Bool.false_eq_true,
      if_false, ne_eq, not_false_eq_true, if_true]
    exact .mirrors h (Nat.le_of_not_lt hbehind) hmode

/-- What a standby of the host does. -/
theorem effect_onHostStandby {call : Call} {count : Nat} (h : hostCountOf call = some count) :
    Effect b.view call (b.onHostStandby count).1.view
      (if b.initiated && b.mode = .standby then
        if count = b.localCount then some count else none
      else if count < b.localCount then none
      else if b.mode = .standby && b.hostCount ≠ some count then b.hostCount
      else none) := by
  by_cases hmode : b.mode = .standby
  case neg =>
    have houtside := effect_outside h hmode
    simpa [hmode] using houtside
  obtain ⟨mode, initiated, hostCount, localCount, sinceHost, sinceInitiate, rounds⟩ := b
  cases hmode
  cases initiated with
  | true =>
    by_cases heq : count = localCount
    · subst heq
      simp only [onHostStandby, decide_true, Bool.and_true, if_true]
      exact .echoes h rfl
    · simp only [onHostStandby, heq, decide_true, Bool.and_true, if_true, if_false]
      exact .waits h rfl rfl
  | false =>
    by_cases hbehind : count < localCount
    · simp only [onHostStandby, hbehind, Bool.false_and, Bool.false_eq_true, if_true, if_false]
      exact .ignores h hbehind fun _ => rfl
    · have hle := Nat.le_of_not_lt hbehind
      cases hostCount with
      | none =>
        simp only [onHostStandby, hbehind, Bool.false_and, Bool.false_eq_true, if_false, ite_self,
          not_true, ne_eq, Option.isSome_none]
        exact .repeats h hle rfl rfl
      | some prev =>
        by_cases hsame : prev = count
        · simp only [onHostStandby, hbehind, Bool.false_and, Bool.false_eq_true, if_false, hsame,
            not_true, ne_eq, decide_false, Bool.and_false]
          exact .repeats h hle rfl rfl
        · simp only [onHostStandby, hbehind, Bool.false_eq_true, if_false, hsame, not_true, ne_eq,
            Option.some.injEq, not_false_eq_true, decide_true, Bool.and_true, Option.isSome_some,
            if_true]
          exact .advances h hle rfl rfl rfl hsame

theorem effect_onInSlot (parsed : Option InSlot) :
    Effect b.view (.onInSlot parsed) (b.onInSlot parsed).1.view
      (b.roundOf (.onInSlot parsed)) := by
  cases parsed with
  | none => exact .stays rfl nofun
  | some slot =>
    by_cases hstandby : slot.op = some readyExitStandby
    · have his : hostCountOf (.onInSlot (some slot)) = some (slot.count.getD 0) := if_pos hstandby
      have heffect := @effect_onHostStandby b _ _ his
      simp only [onInSlot, roundOf, hstandby, if_true]
      exact heffect
    · have his : hostCountOf (.onInSlot (some slot)) = none := if_neg hstandby
      simp only [onInSlot, roundOf, hstandby, if_false]
      by_cases hclose : slot.op = some readyCloseLink
      · rw [if_pos hclose]
        unfold onHostClose
        simp only
        split
        · exact .hostCloses rfl his _ _
        · rename_i hmode
          have hcloses := @Effect.hostCloses b.view _ slot rfl his (slot.count.getD 0) b.initiated
          rw [← not_not.mp hmode] at hcloses
          exact hcloses
      · rw [if_neg hclose]
        exact .stays his nofun

end

theorem effect (b : BarrierResponder) (call : Call) :
    Effect b.view call (b.apply call).view (b.roundOf call) := by
  cases call with
  | initiate kind => exact effect_initiate kind
  | onInSlot parsed => exact effect_onInSlot parsed
  | observeFrame saw => exact effect_observeFrame saw
  | resetToIdle => exact effect_resetToIdle
  | wantEmit => exact effect_wantEmit

/-! ## Over a run -/

/-- The responder after calls by which the counts `heard` were heard and the rounds `done`
completed. -/
structure Counted (v : View) (heard done : List Nat) : Prop where
  rounds : v.rounds = done.length
  nodup : done.Nodup
  subset : done ⊆ heard
  below : v.mode ≠ .close → ∀ count ∈ done, count < v.localCount
  mirrored : v.mode = .standby → v.initiated = false →
    v.hostCount = some v.localCount ∧ v.localCount ∈ heard

namespace Counted

variable {v v' : View} {call : Call} {heard done : List Nat} {completes : Option Nat}

theorem fresh : Counted ⟨.idle, false, none, 0, 0⟩ [] [] where
  rounds := rfl
  nodup := .nil
  subset := nofun
  below := nofun
  mirrored := nofun

/-- A round of our own count that the host has broadcast is a new one. -/
theorem add_round (h : Counted v heard done) (hopen : v.mode ≠ .close) (more : List Nat)
    (hheard : v.localCount ∈ heard ++ more) :
    (done ++ [v.localCount]).Nodup ∧ done ++ [v.localCount] ⊆ heard ++ more ∧
      (done ++ [v.localCount]).length = v.rounds + 1 := by
  refine ⟨?_, ?_, ?_⟩
  · refine List.nodup_append.mpr ⟨h.nodup, List.nodup_singleton _, fun x hx y hy => ?_⟩
    have hlt := h.below hopen x hx
    rw [List.mem_singleton.mp hy]
    omega
  · intro x hx
    rcases List.mem_append.mp hx with hx | hx
    · exact List.mem_append_left _ (h.subset hx)
    · rw [List.mem_singleton.mp hx]
      exact hheard
  · rw [List.length_append, h.rounds]
    rfl

theorem step (h : Counted v heard done) (heffect : Effect v call v' completes)
    (hsorted : (heard ++ (hostCountOf call).toList).Pairwise (· ≤ ·))
    (hclose : v.mode = .close → v'.mode = .close) :
    Counted v' (heard ++ (hostCountOf call).toList) (done ++ completes.toList) := by
  have hsame : done ⊆ heard ++ (hostCountOf call).toList :=
    fun x hx => List.mem_append_left _ (h.subset hx)
  cases heffect with
  | stays silent calm =>
    rw [silent, Option.toList_none, List.append_nil, List.append_nil]
    exact h
  | drops standby silent =>
    rw [silent, Option.toList_none, List.append_nil, List.append_nil]
    exact ⟨h.rounds, h.nodup, h.subset, fun _ => h.below (by rw [standby]; nofun), nofun⟩
  | starts is ne before =>
    have hsilent : hostCountOf call = none := by
      rw [is]
      rfl
    rw [hsilent, Option.toList_none, List.append_nil, List.append_nil]
    refine ⟨h.rounds, h.nodup, h.subset, fun _ => h.below fun hmode => ?_, nofun⟩
    cases hclose hmode
  | closes silent before =>
    rw [silent, Option.toList_none, List.append_nil, List.append_nil]
    exact ⟨h.rounds, h.nodup, h.subset, fun hopen => absurd rfl hopen, nofun⟩
  | hostCloses is silent count initiated =>
    rw [silent, Option.toList_none, List.append_nil, List.append_nil]
    exact ⟨h.rounds, h.nodup, h.subset, fun hopen => absurd rfl hopen, nofun⟩
  | waits is standby initiated =>
    rw [Option.toList_none, List.append_nil]
    refine ⟨h.rounds, h.nodup, hsame, h.below, fun _ hreactive => ?_⟩
    have hreactive : v.initiated = false := hreactive
    rw [initiated] at hreactive
    cases hreactive
  | @ignores count is behind reactive =>
    rw [Option.toList_none, List.append_nil]
    refine ⟨h.rounds, h.nodup, hsame, h.below, fun hstandby hreactive => ?_⟩
    -- The host has broadcast our count before, so what comes after is not behind it.
    obtain ⟨-, hmem⟩ := h.mirrored hstandby hreactive
    rw [is] at hsorted
    have hle := (List.pairwise_append.mp hsorted).2.2 _ hmem count (List.mem_singleton.mpr rfl)
    omega
  | echoes is standby =>
    have hopen : v.mode ≠ .close := by
      rw [standby]
      nofun
    rw [is]
    obtain ⟨hnodup, hsub, hlength⟩ := h.add_round hopen [v.localCount]
      (List.mem_append_right _ (List.mem_singleton.mpr rfl))
    refine ⟨hlength.symm, hnodup, hsub, fun _ count hmem => ?_, nofun⟩
    rcases List.mem_append.mp hmem with hmem | hmem
    · exact Nat.lt_succ_of_lt (h.below hopen count hmem)
    · rw [List.mem_singleton.mp hmem]
      exact Nat.lt_succ_self _
  | @mirrors count is le before =>
    rw [Option.toList_none, List.append_nil]
    refine ⟨h.rounds, h.nodup, hsame, fun _ x hx => ?_, fun _ _ => ⟨rfl, ?_⟩⟩
    · have hopen : v.mode ≠ .close := by
        intro hmode
        cases hclose hmode
      exact Nat.lt_of_lt_of_le (h.below hopen x hx) le
    · rw [is]
      exact List.mem_append_right _ (List.mem_singleton.mpr rfl)
  | @advances count prev is le standby reactive was ne =>
    have hopen : v.mode ≠ .close := by
      rw [standby]
      nofun
    obtain ⟨hmirrored, hmem⟩ := h.mirrored standby reactive
    obtain rfl : prev = v.localCount := Option.some.inj (was.symm.trans hmirrored)
    obtain ⟨hnodup, hsub, hlength⟩ := h.add_round hopen (hostCountOf call).toList
      (List.mem_append_left _ hmem)
    have hlt : v.localCount < count := Nat.lt_of_le_of_ne le ne
    refine ⟨hlength.symm, hnodup, hsub, fun _ x hx => ?_, fun _ _ => ⟨rfl, ?_⟩⟩
    · rcases List.mem_append.mp hx with hx | hx
      · exact Nat.lt_trans (h.below hopen x hx) hlt
      · rw [List.mem_singleton.mp hx]
        exact hlt
    · rw [is]
      exact List.mem_append_right _ (List.mem_singleton.mpr rfl)
  | @repeats count is le standby reactive =>
    have hopen : v.mode ≠ .close := by
      rw [standby]
      nofun
    rw [Option.toList_none, List.append_nil]
    refine ⟨h.rounds, h.nodup, hsame, fun _ x hx => ?_, fun _ _ => ⟨rfl, ?_⟩⟩
    · exact Nat.lt_of_lt_of_le (h.below hopen x hx) le
    · rw [is]
      exact List.mem_append_right _ (List.mem_singleton.mpr rfl)
  | silence silent standby reactive =>
    have hopen : v.mode ≠ .close := by
      rw [standby]
      nofun
    obtain ⟨hmirrored, hmem⟩ := h.mirrored standby reactive
    obtain ⟨hnodup, hsub, hlength⟩ := h.add_round hopen (hostCountOf call).toList
      (List.mem_append_left _ hmem)
    rw [hmirrored]
    refine ⟨hlength.symm, hnodup, hsub, fun _ x hx => ?_, nofun⟩
    rcases List.mem_append.mp hx with hx | hx
    · exact Nat.lt_succ_of_lt (h.below hopen x hx)
    · rw [List.mem_singleton.mp hx]
      exact Nat.lt_succ_self _

end Counted

section

variable {b : BarrierResponder} {call : Call} {maxEmits : Option Nat} {calls : List Call}

/-- A call leaves the close exactly if it reopens. -/
theorem apply_close_iff (hclose : b.mode = .close) :
    (b.apply call).mode = .close ↔ ¬b.Reopens call := by
  have hview : b.view.mode = .close := hclose
  have hmode : (b.apply call).mode = (b.apply call).view.mode := rfl
  rw [hmode]
  have heffect := effect b call
  generalize (b.apply call).view = v' at heffect
  generalize b.roundOf call = completes at heffect
  have hreopens : b.Reopens call ↔ (∃ kind, call = .initiate kind ∧ kind ≠ .close) ∨
      ∃ count, hostCountOf call = some count ∧ b.localCount ≤ count := and_iff_right hclose
  rw [hreopens]
  have hstandby : b.view.mode ≠ .standby := by
    rw [hview]
    nofun
  cases heffect with
  | stays silent calm =>
    refine iff_of_true hview ?_
    rintro (⟨kind, hkind, hne⟩ | ⟨count, hcount, -⟩)
    · rcases calm kind hkind with ⟨heq, -⟩ | ⟨-, hmode⟩
      · exact hne heq
      · exact hstandby hmode
    · rw [silent] at hcount
      cases hcount
  | drops standby silent => exact absurd standby hstandby
  | starts is ne before => exact iff_of_false nofun fun hnot => hnot (.inl ⟨_, is, ne⟩)
  | closes silent before => exact absurd hview before
  | hostCloses is silent count initiated =>
    refine iff_of_true rfl ?_
    rintro (⟨kind, rfl, hne⟩ | ⟨count, hcount, -⟩)
    · cases is
    · rw [silent] at hcount
      cases hcount
  | waits is standby initiated => exact absurd standby hstandby
  | @ignores count is behind reactive =>
    refine iff_of_true hview ?_
    rintro (⟨kind, rfl, hne⟩ | ⟨count', hcount, hle⟩)
    · cases is
    · obtain rfl : count = count' := Option.some.inj (is.symm.trans hcount)
      have hbehind : count < b.localCount := behind
      omega
  | echoes is standby => exact absurd standby hstandby
  | mirrors is le before => exact iff_of_false nofun fun hnot => hnot (.inr ⟨_, is, le⟩)
  | advances is le standby reactive was ne => exact absurd standby hstandby
  | repeats is le standby reactive => exact absurd standby hstandby
  | silence silent standby reactive => exact absurd standby hstandby

/-- Short of the close the count does not go down. -/
theorem localCount_le (h : (b.apply call).mode ≠ .close) :
    b.localCount ≤ (b.apply call).localCount := by
  have hview : (b.apply call).view.mode ≠ .close := h
  have hcount : b.view.localCount ≤ (b.apply call).view.localCount := by
    have heffect := effect b call
    generalize (b.apply call).view = v' at heffect hview
    generalize b.roundOf call = completes at heffect
    cases heffect with
    | hostCloses is silent count initiated => exact absurd rfl hview
    | echoes is standby => exact Nat.le_succ _
    | mirrors is le before => exact le
    | advances is le standby reactive was ne => exact le
    | repeats is le standby reactive => exact le
    | silence silent standby reactive => exact Nat.le_succ _
    | _ => exact Nat.le_refl _
  exact hcount

/-- A frame does not move the count of a standby that we initiated, whether or not its watchdog
gives up. -/
theorem localCount_held {saw : Bool} (hinitiated : b.initiated = true) :
    (b.apply (.observeFrame saw)).localCount = b.localCount := by
  have hcount : (b.apply (.observeFrame saw)).view.localCount = b.view.localCount := by
    have heffect := effect b (.observeFrame saw)
    generalize (b.apply (.observeFrame saw)).view = v' at heffect
    generalize b.roundOf (.observeFrame saw) = completes at heffect
    have hours : b.view.initiated = true := hinitiated
    cases heffect with
    | silence silent standby reactive =>
      rw [reactive] at hours
      cases hours
    | hostCloses is silent count initiated => cases is
    | echoes is standby => cases is
    | mirrors is le before => cases is
    | advances is le standby reactive was ne => cases is
    | repeats is le standby reactive => cases is
    | _ => rfl
  exact hcount

theorem run_snoc : run maxEmits (calls ++ [call]) = (run maxEmits calls).apply call := by
  rw [run, List.foldl_append]
  rfl

theorem hostCounts_snoc :
    hostCounts (calls ++ [call]) = hostCounts calls ++ (hostCountOf call).toList := by
  rw [hostCounts, List.filterMap_append]
  cases hcount : hostCountOf call with
  | none => rw [List.filterMap_cons_none hcount]; rfl
  | some count => rw [List.filterMap_cons_some hcount]; rfl

theorem completed_append {more : List Call} :
    b.completed (calls ++ more) = b.completed calls ++ (calls.foldl apply b).completed more := by
  induction calls generalizing b with
  | nil => rfl
  | cons call calls ih =>
    rw [List.cons_append, completed, ih, completed, List.append_assoc]
    rfl

/-- The condition over a run: no call of it reopens. -/
def Closed (maxEmits : Option Nat) (calls : List Call) : Prop :=
  ∀ pre call post, calls = pre ++ call :: post → ¬(run maxEmits pre).Reopens call

theorem Closed.counted (h : Closed maxEmits calls)
    (hsorted : (hostCounts calls).Pairwise (· ≤ ·)) :
    Counted (run maxEmits calls).view (hostCounts calls)
      (completed { maxEmits := maxEmits } calls) := by
  induction calls using List.reverseRecOn with
  | nil => exact .fresh
  | append_singleton calls call ih =>
    rw [hostCounts_snoc] at hsorted
    have hbefore : Closed maxEmits calls := by
      intro pre before post heq
      apply h pre before (post ++ [call])
      rw [heq, List.append_assoc]
      rfl
    have hcounted := ih hbefore (List.pairwise_append.mp hsorted).1
    have hstep := hcounted.step (effect _ call) hsorted fun hclose =>
      (apply_close_iff hclose).mpr (h calls call [] rfl)
    rw [run_snoc, hostCounts_snoc, completed_append]
    have hlast : (calls.foldl apply { maxEmits := maxEmits }).completed [call] =
        ((run maxEmits calls).roundOf call).toList := List.append_nil _
    rw [hlast]
    exact hstep

/-- The close is the end, the count only goes up before it and stays where a watchdog gives up, and
no count of the host is counted twice, exactly if no call reopens the close. -/
theorem disciplined_iff (maxEmits : Option Nat) (calls : List Call) :
    Disciplined maxEmits calls ↔ Closed maxEmits calls := by
  constructor
  · rintro h pre call post rfl hreopens
    have hterminal := h.terminal pre [call] post (by rw [List.append_assoc]; rfl) hreopens.1
    rw [run_snoc] at hterminal
    exact (apply_close_iff hreopens.1).mp hterminal hreopens
  · intro h
    have hpre : ∀ pre post, calls = pre ++ post → Closed maxEmits pre := by
      rintro pre post rfl before call after rfl
      apply h before call (after ++ post)
      rw [List.append_assoc]
      rfl
    refine ⟨?_, ?_, ?_, ?_⟩
    · intro pre mid post heq hclose
      induction mid using List.reverseRecOn generalizing post with
      | nil =>
        rw [List.append_nil]
        exact hclose
      | append_singleton mid call ih =>
        have hmid : calls = pre ++ mid ++ call :: post := by
          rw [heq, ← List.append_assoc, List.append_assoc _ [call] post]
          rfl
        have hbefore := ih (call :: post) hmid
        rw [← List.append_assoc, run_snoc]
        exact (apply_close_iff hbefore).mpr (h (pre ++ mid) call post hmid)
    · intro pre call post heq hopen
      have hpre := hopen pre ⟨[call], rfl⟩
      have hafter := hopen (pre ++ [call]) ⟨[], List.append_nil _⟩
      rw [run_snoc] at hafter ⊢
      exact localCount_le hafter
    · intro pre saw post heq _ hinitiated
      rw [run_snoc]
      exact localCount_held hinitiated
    · intro pre post heq hsorted
      have hcounted := (hpre pre post heq).counted hsorted
      refine ⟨hcounted.rounds, hcounted.nodup, hcounted.subset, ?_⟩
      have hrounds : (run maxEmits pre).rounds = _ := hcounted.rounds
      rw [hrounds]
      have hsub : completed { maxEmits := maxEmits } pre ⊆ (hostCounts pre).dedup :=
        fun x hx => List.mem_dedup.mpr (hcounted.subset hx)
      exact (hcounted.nodup.subperm hsub).length_le

end

/-- A standby of the host after its close, and our own start of one, leave the close; and a count of
the host that its close has taken back is counted a second time. -/
theorem close_is_left :
    let standby count := Call.onInSlot (some ⟨some readyExitStandby, some count⟩)
    let closeLink := Call.onInSlot (some ⟨some readyCloseLink, some 0⟩)
    let silent := List.replicate 91 (Call.observeFrame false)
    (run none [closeLink]).mode = .close ∧ (run none [closeLink, standby 5]).mode = .standby ∧
      (run none [closeLink, .initiate .standby]).mode = .standby ∧
        (run none (standby 5 :: silent ++ closeLink :: standby 5 :: silent)).rounds = 2 ∧
          hostCounts (standby 5 :: silent ++ closeLink :: standby 5 :: silent) = [5, 5] ∧
            ¬∀ maxEmits calls, Disciplined maxEmits calls := by
  refine ⟨by decide, by decide, by decide, by decide +kernel, by decide +kernel, fun hall => ?_⟩
  have hterminal := (hall none [.initiate .close, .initiate .standby]).terminal
    [.initiate .close] [.initiate .standby] [] rfl (by decide)
  exact absurd hterminal (by decide)

end BarrierResponder

end SwitchTrade.Rfu

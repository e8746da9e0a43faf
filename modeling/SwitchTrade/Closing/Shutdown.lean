import SwitchTrade.Closing.Control

/-!
# What the shutdown leaves

Each step of the shutdown records failures of its own gate, with a bounded message, and a
gate is passed exactly if its steps recorded none. The codes are the stage's own, but for
one: the error code of the bridge's drain is passed on as it came.
-/

namespace SwitchTrade.Closing

/-- The failures one step may record: of one gate, with bounded messages, and no more than
`count`. -/
structure Recorded (gate : String) (count : Nat) (failures : List Failure) : Prop where
  gate_eq : ∀ f ∈ failures, f.gate = gate
  bounded : ∀ f ∈ failures, f.message.length ≤ 500
  few : failures.length ≤ count

namespace Recorded

variable {gate : String} {m n : Nat} {xs ys : List Failure}

theorem nil : Recorded gate n [] where
  gate_eq := fun _ hf => by cases hf
  bounded := fun _ hf => by cases hf
  few := Nat.zero_le _

theorem single (code message : String) : Recorded gate 1 [failure code gate message] where
  gate_eq := by
    intro f hf
    rw [List.mem_singleton.mp hf]
    rfl
  bounded := by
    intro f hf
    rw [List.mem_singleton.mp hf]
    show (String.ofList (message.toList.take 500)).length ≤ 500
    rw [String.length_ofList, List.length_take]
    omega
  few := Nat.le_refl _

theorem append (hx : Recorded gate m xs) (hy : Recorded gate n ys) :
    Recorded gate (m + n) (xs ++ ys) where
  gate_eq := by
    intro f hf
    rcases List.mem_append.mp hf with hf | hf
    · exact hx.gate_eq f hf
    · exact hy.gate_eq f hf
  bounded := by
    intro f hf
    rcases List.mem_append.mp hf with hf | hf
    · exact hx.bounded f hf
    · exact hy.bounded f hf
  few := by
    have := hx.few
    have := hy.few
    rw [List.length_append]
    omega

theorem mono (h : Recorded gate m xs) (hle : m ≤ n) : Recorded gate n xs :=
  { h with few := h.few.trans hle }

/-- Whether a gate has a failure among those of one gate. -/
theorem any_gate (h : Recorded gate m xs) (other : String) :
    (xs.any fun f => f.gate = other) = (decide (gate = other) && !xs.isEmpty) := by
  cases xs with
  | nil => simp
  | cons f fs =>
    by_cases hgate : gate = other
    · rw [List.any_cons, h.gate_eq f List.mem_cons_self]
      simp [hgate]
    · have hnone : ((f :: fs).any fun f => f.gate = other) = false := by
        rw [List.any_eq_false]
        intro g hg
        rw [h.gate_eq g hg]
        simpa using hgate
      rw [hnone]
      simp [hgate]

end Recorded

/-- The codes of the stage's own failures and of the hooks' failures are those of the
control side's contract. -/
def Coded (failures : List Failure) : Prop := ∀ f ∈ failures, controlCode f.code = true

theorem coded_nil : Coded [] := fun _ hf => by cases hf

theorem coded_single {code gate message : String} :
    Coded [failure code gate message] ↔ controlCode code = true := by
  constructor
  · intro h
    exact h _ List.mem_cons_self
  · intro h f hf
    rw [List.mem_singleton.mp hf]
    exact h

theorem coded_append {xs ys : List Failure} : Coded (xs ++ ys) ↔ Coded xs ∧ Coded ys := by
  constructor
  · intro h
    exact ⟨fun f hf => h f (List.mem_append_left _ hf),
      fun f hf => h f (List.mem_append_right _ hf)⟩
  · rintro ⟨hx, hy⟩ f hf
    rcases List.mem_append.mp hf with hf | hf
    · exact hx f hf
    · exact hy f hf

/-! ## The steps -/

theorem closeTail_spec {bound : Nat} {simulation : Option Simulation} {observed : Bool}
    {failures : List Failure} (h : closeTail bound simulation = some (observed, failures)) :
    Recorded "D2_GAME_CLOSE_TAIL" 1 failures ∧ Coded failures ∧
      (observed = true ↔ failures = []) := by
  cases simulation with
  | none =>
    cases h
    exact ⟨.nil, coded_nil, by simp⟩
  | some simulation =>
    obtain ⟨raised, -, h⟩ := Option.map_eq_some_iff.mp h
    cases raised with
    | some error =>
      cases h
      exact ⟨.single _ _, coded_single.mpr (by decide), by simp⟩
    | none =>
      by_cases hd : simulation.disconnected
      · simp only [hd] at h
        cases h
        exact ⟨.nil, coded_nil, by simp⟩
      · simp only [hd] at h
        cases h
        exact ⟨.single _ _, coded_single.mpr (by decide), by simp⟩

theorem closed_spec (code gate : String) (hcode : controlCode code = true)
    (resource : Option (Option String)) :
    Recorded gate 1 (closed code gate resource).2 ∧ Coded (closed code gate resource).2 ∧
      ((closed code gate resource).1 = true ↔ (closed code gate resource).2 = []) := by
  match resource with
  | none => exact ⟨.nil, coded_nil, by simp [closed]⟩
  | some none => exact ⟨.nil, coded_nil, by simp [closed]⟩
  | some (some error) => exact ⟨.single _ _, coded_single.mpr hcode, by simp [closed]⟩

def Drain.InRange (d : Drain) : Prop :=
  (0 ≤ d.pendingLocalFrames ∧ d.pendingLocalFrames ≤ 256) ∧
    (0 ≤ d.flushedLocalFrames ∧ d.flushedLocalFrames ≤ 256) ∧
    (0 ≤ d.discardedLocalFrames ∧ d.discardedLocalFrames ≤ 256) ∧
    (0 ≤ d.discardedRemoteFrames ∧ d.discardedRemoteFrames ≤ 256)

/-- What the drain of the bridge has to give for its report to be taken: where it returns
four counts, they are in range, and its error code, if any, has capital letters only. -/
def DrainContract (bridge : Option Bridge) : Prop :=
  ∀ b ∈ bridge, ∀ result, b.finishDrain = .ok result → ∀ drain, result.counts = .ok drain →
    drain.InRange ∧ ∀ code ∈ result.errorCode, controlCode code = true

theorem drainBridge_recorded (bridge : Option Bridge) :
    Recorded "D3_BRIDGE_DRAIN" 2 (drainBridge bridge).2.2 := by
  unfold drainBridge
  split
  · exact .nil
  · split
    · exact (Recorded.single _ _).mono (by omega)
    · rename_i result hresult
      split
      · exact (Recorded.single _ _).mono (by omega)
      · apply Recorded.append (m := 1) (n := 1)
        · split
          · exact .nil
          · exact .single _ _
        · cases result.errorCode with
          | none => exact .nil
          | some code => exact .single _ _

/-- Without a failure the admission has stopped. -/
theorem drainBridge_stopped {bridge : Option Bridge} (h : (drainBridge bridge).2.2 = []) :
    (drainBridge bridge).1 = true := by
  cases bridge with
  | none => rfl
  | some b =>
    unfold drainBridge at h ⊢
    cases hresult : b.finishDrain with
    | error e =>
      simp only [hresult] at h
      cases h
    | ok result =>
      cases hdrain : result.counts with
      | error e =>
        simp only [hresult, hdrain] at h
        cases h
      | ok drain =>
        simp only [hresult, hdrain] at h
        rw [List.append_eq_nil_iff] at h
        simp only [hresult, hdrain]
        by_contra hstopped
        rw [if_neg hstopped] at h
        cases h.1

theorem drainBridge_contract (bridge : Option Bridge) :
    ((drainBridge bridge).2.1.InRange ∧ Coded (drainBridge bridge).2.2) ↔
      DrainContract bridge := by
  have hnone : noDrain.InRange := by
    refine ⟨?_, ?_, ?_, ?_⟩ <;> decide
  unfold drainBridge DrainContract
  split
  · exact ⟨fun _ b hb => (by cases hb), fun _ => ⟨hnone, coded_nil⟩⟩
  · rename_i b
    split
    · rename_i error herror
      refine ⟨fun _ b' hb' result hresult => ?_, fun _ => ⟨hnone, coded_single.mpr (by decide)⟩⟩
      cases hb'
      rw [herror] at hresult
      cases hresult
    · rename_i result hresult
      split
      · rename_i error herror
        refine ⟨fun _ b' hb' result' hresult' drain hdrain => ?_,
          fun _ => ⟨hnone, coded_single.mpr (by decide)⟩⟩
        cases hb'
        rw [hresult] at hresult'
        cases hresult'
        rw [herror] at hdrain
        cases hdrain
      · rename_i drain hdrain
        have hactive : Coded (if result.admissionStopped then []
            else [failure "D_BRIDGE_ADMISSION_ACTIVE" "D3_BRIDGE_DRAIN"
              "C2 bridge still accepts RFU after drain"]) := by
          split
          · exact coded_nil
          · exact coded_single.mpr (by decide)
        have hcodes : Coded (result.errorCode.toList.map fun code =>
            failure code "D3_BRIDGE_DRAIN" "C2 bridge could not drain cleanly") ↔
              ∀ code ∈ result.errorCode, controlCode code = true := by
          cases result.errorCode with
          | none => exact ⟨fun _ code hcode => (by cases hcode), fun _ => coded_nil⟩
          | some code =>
            rw [Option.toList_some, List.map_singleton, coded_single]
            constructor
            · intro h code' hcode'
              cases hcode'
              exact h
            · intro h
              exact h code rfl
        constructor
        · rintro ⟨hrange, hcoded⟩ b' hb' result' hresult' drain' hdrain'
          cases hb'
          rw [hresult] at hresult'
          cases hresult'
          rw [hdrain] at hdrain'
          cases hdrain'
          exact ⟨hrange, hcodes.mp (coded_append.mp hcoded).2⟩
        · intro h
          obtain ⟨hrange, hcode⟩ := h b rfl result hresult drain hdrain
          exact ⟨hrange, coded_append.mpr ⟨hactive, hcodes.mpr hcode⟩⟩

/-! ## The whole shutdown -/

/-- The last gate without a failure, from the failures of the three gates. -/
theorem lastPassedGate_append {d2 d3 d4 : List Failure} {k m n : Nat}
    (h2 : Recorded "D2_GAME_CLOSE_TAIL" k d2) (h3 : Recorded "D3_BRIDGE_DRAIN" m d3)
    (h4 : Recorded "D4_LDN_TEARDOWN" n d4) :
    lastPassedGate (d2 ++ d3 ++ d4) =
      ((if d2.isEmpty then ["D2_GAME_CLOSE_TAIL"] else []) ++
        (if d3.isEmpty then ["D3_BRIDGE_DRAIN"] else []) ++
        (if d4.isEmpty then ["D4_LDN_TEARDOWN"] else [])).getLast? := by
  have hany : ∀ gate, ((d2 ++ d3 ++ d4).any fun f => f.gate = gate) =
      ((decide ("D2_GAME_CLOSE_TAIL" = gate) && !d2.isEmpty ||
        decide ("D3_BRIDGE_DRAIN" = gate) && !d3.isEmpty) ||
        decide ("D4_LDN_TEARDOWN" = gate) && !d4.isEmpty) := by
    intro gate
    rw [List.any_append, List.any_append, h2.any_gate, h3.any_gate, h4.any_gate]
  rw [lastPassedGate]
  simp only [hany]
  cases d2.isEmpty <;> cases d3.isEmpty <;> cases d4.isEmpty <;> decide

theorem isEmpty_eq {xs : List Failure} {b : Bool} (h : b = true ↔ xs = []) : xs.isEmpty = b := by
  rw [Bool.eq_iff_iff, List.isEmpty_iff, h]

/-- What a finished shutdown left: few failures, of the three gates and with bounded
messages; codes and counts within the contract exactly if the drain of the bridge kept to
it; and the last gate without a failure is the last one that was passed. -/
structure Accounted (hooks : Hooks) (s : Shutdown) : Prop where
  gates_eq : ∀ f ∈ s.failures, f.gate ∈ gates
  bounded : ∀ f ∈ s.failures, f.message.length ≤ 500
  few : s.failures.length ≤ 16
  contract : (s.drain.InRange ∧ Coded s.failures) ↔ DrainContract hooks.bridge
  last : lastPassedGate s.failures = s.passed.getLast?

theorem d3Failures_recorded (hooks : Hooks) : Recorded "D3_BRIDGE_DRAIN" 5 (d3Failures hooks) :=
  (((drainBridge_recorded hooks.bridge).append (closed_spec _ _ (by decide) _).1).append
    (closed_spec _ _ (by decide) _).1).append (closed_spec _ _ (by decide) _).1

/-- D3 is passed if nothing of it failed: then the admission and the transport stopped. -/
theorem d3_passed (hooks : Hooks) : ((d3Failures hooks).isEmpty && (drainBridge hooks.bridge).1 &&
    (stopBridgeTransport hooks).1) = (d3Failures hooks).isEmpty := by
  cases hempty : (d3Failures hooks).isEmpty with
  | false => rfl
  | true =>
    rw [List.isEmpty_iff, d3Failures] at hempty
    simp only [List.append_eq_nil_iff] at hempty
    obtain ⟨⟨⟨hdrain, -⟩, -⟩, htransport⟩ := hempty
    have hexited : (stopBridgeTransport hooks).1 = true :=
      (closed_spec _ _ (by decide) _).2.2.mpr htransport
    rw [drainBridge_stopped hdrain, hexited]
    rfl

theorem coded_d3Failures (hooks : Hooks) :
    Coded (d3Failures hooks) ↔ Coded (drainBridge hooks.bridge).2.2 := by
  rw [d3Failures, coded_append, coded_append, coded_append]
  constructor
  · rintro ⟨⟨⟨hdrain, -⟩, -⟩, -⟩
    exact hdrain
  · intro hdrain
    exact ⟨⟨⟨hdrain, (closed_spec _ _ (by decide) _).2.1⟩, (closed_spec _ _ (by decide) _).2.1⟩,
      (closed_spec _ _ (by decide) _).2.1⟩

theorem shutdown_accounted {bound : Nat} {hooks : Hooks} {s : Shutdown}
    (h : shutdown hooks bound = some s) : Accounted hooks s := by
  obtain ⟨⟨observed, d2⟩, htail, rfl⟩ := Option.map_eq_some_iff.mp h
  obtain ⟨h2, hc2, hobserved⟩ := closeTail_spec htail
  have h3 := d3Failures_recorded hooks
  have hteardown : Recorded "D4_LDN_TEARDOWN" 1 (teardown hooks).2 ∧
      Coded (teardown hooks).2 ∧ ((teardown hooks).1 = true ↔ (teardown hooks).2 = []) :=
    closed_spec _ _ (by decide) _
  obtain ⟨h4, hc4, hreleased⟩ := hteardown
  have hmem : ∀ f ∈ (finish hooks (observed, d2)).failures,
      f ∈ d2 ∨ f ∈ d3Failures hooks ∨ f ∈ (teardown hooks).2 := by
    intro f hf
    rcases List.mem_append.mp hf with hf | hf
    · rcases List.mem_append.mp hf with hf | hf
      · exact .inl hf
      · exact .inr (.inl hf)
    · exact .inr (.inr hf)
  constructor
  · intro f hf
    rcases hmem f hf with hf | hf | hf
    · rw [h2.gate_eq f hf]
      decide
    · rw [h3.gate_eq f hf]
      decide
    · rw [h4.gate_eq f hf]
      decide
  · intro f hf
    rcases hmem f hf with hf | hf | hf
    · exact h2.bounded f hf
    · exact h3.bounded f hf
    · exact h4.bounded f hf
  · have hfew2 := h2.few
    have hfew3 := h3.few
    have hfew4 := h4.few
    show (d2 ++ d3Failures hooks ++ (teardown hooks).2).length ≤ 16
    rw [List.length_append, List.length_append]
    omega
  · rw [← drainBridge_contract]
    show _ ∧ Coded (d2 ++ d3Failures hooks ++ (teardown hooks).2) ↔ _
    rw [coded_append, coded_append, coded_d3Failures]
    constructor
    · rintro ⟨hrange, ⟨-, hcode⟩, -⟩
      exact ⟨hrange, hcode⟩
    · rintro ⟨hrange, hcode⟩
      exact ⟨hrange, ⟨hc2, hcode⟩, hc4⟩
  · show lastPassedGate (d2 ++ d3Failures hooks ++ (teardown hooks).2) = _
    rw [lastPassedGate_append h2 h3 h4, isEmpty_eq hobserved, isEmpty_eq hreleased, finish,
      d3_passed]

end SwitchTrade.Closing

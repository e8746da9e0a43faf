import SwitchTrade.Bridge.Fifo

/-!
# From C1 to C2 on seat B

`CStage.receive_advertisement_payload` and, once it has returned, `C2Bridge.pump` read the
same `_inbox` of the client, each through `poll`, which takes at most 32 frames one by one
while the client thread goes on placing others. `receive_advertisement_payload` returns from
inside the batch in which it finds the `ADVERTISEMENT`; what the batch holds behind it is
lost. The runs are those of one connection: a new one empties the queue.

`placed` and `handed` are not in the code: the frames the client thread placed, and those
`poll` returned to `pump`.
-/

namespace SwitchTrade.Bridge

open Tunnel Transition

def pollLimit : Nat := 32

/-- Who polls: the loop of `receive_advertisement_payload`, nobody once it raised, or `pump`. -/
inductive Stage where
  | receiving | failed | bridging
  deriving DecidableEq, Repr

/-- The queue between the client thread and its readers; `batch` is what the `poll` under
way has taken. -/
structure Handoff where
  inbox : List Envelope
  batch : List Envelope
  stage : Stage
  placed : List Envelope
  handed : List Envelope
  deriving DecidableEq, Repr

inductive Turn where
  | place (e : Envelope)
  | get
  | giveUp
  deriving DecidableEq, Repr

namespace Handoff

def empty : Handoff := ⟨[], [], .receiving, [], []⟩

/-- What `poll` returns, and what its reader does with it. -/
def returned (h : Handoff) : Handoff :=
  match h.stage with
  | .receiving =>
    { h with
      batch := []
      stage := if h.batch.any (·.kind = .advertisement) then .bridging else .receiving }
  | .failed => { h with batch := [] }
  | .bridging => { h with batch := [], handed := h.handed ++ h.batch }

/-- One round of the loop of `poll`: a `get_nowait`, or the end of the batch. -/
def get (h : Handoff) : Handoff :=
  if h.batch.length < pollLimit then
    match h.inbox with
    | [] => h.returned
    | e :: rest => { h with inbox := rest, batch := h.batch ++ [e] }
  else h.returned

/-- `capacity` is the bound of the queue. -/
def step (capacity : Nat) (h : Handoff) : Turn → Option Handoff
  | .place e =>
    if h.inbox.length < capacity then
      some { h with inbox := h.inbox ++ [e], placed := h.placed ++ [e] }
    else none
  | .get => if h.stage = .failed then none else some h.get
  | .giveUp =>
    if h.stage = .receiving ∧ h.batch = [] then some { h with stage := .failed } else none

end Handoff

def handoff (capacity : Nat) : System Handoff Turn := .ofStep (· = .empty) (Handoff.step capacity)

/-! ## What the handoff promises -/

def behindAdvertisement (frames : List Envelope) : List Envelope :=
  (frames.dropWhile (·.kind ≠ .advertisement)).tail

/-- The `SIDE_READY` and `RFU` frames of a list. -/
def forBridge (frames : List Envelope) : List Envelope :=
  frames.filter fun e => e.kind = .sideReady ∨ e.kind = .rfu

/-- The bridge's frames come in the order they were placed in, and all of them come once
`pump` has polled long enough, whatever the client thread places meanwhile. -/
structure Handoff.HandsOver (capacity : Nat) (h : Handoff) : Prop where
  inOrder : forBridge h.handed <+: forBridge (behindAdvertisement h.placed)
  eventually : ∃ rounds, ∀ turns h',
    System.play (Handoff.step capacity) System.Free h turns = some h' →
    rounds ≤ turns.count .get →
    forBridge (behindAdvertisement h.placed) <+: forBridge h'.handed

/-- Whether the next round ends the batch. -/
def Handoff.ends (h : Handoff) : Prop := pollLimit ≤ h.batch.length ∨ h.inbox = []

/-- The batch in which `receive_advertisement_payload` finds the `ADVERTISEMENT` holds no
frame of the bridge behind it. -/
def Handoff.Clean (h : Handoff) : Turn → Prop
  | .get => h.stage = .receiving → h.ends → forBridge (behindAdvertisement h.batch) = []
  | _ => True

@[simp] theorem forBridge_append (xs ys : List Envelope) :
    forBridge (xs ++ ys) = forBridge xs ++ forBridge ys :=
  List.filter_append ..

theorem forBridge_prefix {xs ys : List Envelope} (h : xs <+: ys) :
    forBridge xs <+: forBridge ys :=
  h.filter _

theorem behindAdvertisement_eq {before behind : List Envelope} {adv : Envelope}
    (hbefore : ∀ e ∈ before, e.kind ≠ .advertisement) (hadv : adv.kind = .advertisement) :
    behindAdvertisement (before ++ adv :: behind) = behind := by
  have hdrop : (before ++ adv :: behind).dropWhile (·.kind ≠ .advertisement) = adv :: behind := by
    rw [List.dropWhile_append_of_pos (fun e he => decide_eq_true (hbefore e he))]
    exact List.dropWhile_cons_of_neg (by simp [hadv])
  rw [behindAdvertisement, hdrop, List.tail_cons]

/-- A batch with an `ADVERTISEMENT`, split at the first one. -/
theorem split_at_advertisement {frames : List Envelope}
    (h : frames.any (·.kind = .advertisement) = true) :
    ∃ before adv, frames = before ++ adv :: behindAdvertisement frames ∧
      (∀ e ∈ before, e.kind ≠ .advertisement) ∧ adv.kind = .advertisement := by
  induction frames with
  | nil => cases h
  | cons e frames ih =>
    by_cases hkind : e.kind = .advertisement
    · refine ⟨[], e, ?_, nofun, hkind⟩
      have hsplit : behindAdvertisement ([] ++ e :: frames) = frames :=
        behindAdvertisement_eq nofun hkind
      rw [List.nil_append] at hsplit
      rw [hsplit, List.nil_append]
    · have hlater : frames.any (·.kind = .advertisement) = true := by
        simpa [hkind] using h
      obtain ⟨before, adv, hframes, hbefore, hadv⟩ := ih hlater
      refine ⟨e :: before, adv, ?_, ?_, hadv⟩
      · have hsame : behindAdvertisement (e :: frames) = behindAdvertisement frames := by
          rw [behindAdvertisement, List.dropWhile_cons_of_pos (by simpa using hkind)]
          rfl
        rw [hsame, List.cons_append, ← hframes]
      · intro f hf
        rcases List.mem_cons.mp hf with rfl | hf
        · exact hkind
        · exact hbefore f hf

/-! ## Where the placed frames are -/

namespace Handoff

variable {capacity : Nat} {h h' : Handoff}

/-- The frames behind the `ADVERTISEMENT` that `receive_advertisement_payload` had not read. -/
def left (h : Handoff) : List Envelope := h.handed ++ h.batch ++ h.inbox

/-- Until the bridge runs the loop has read no `ADVERTISEMENT`; then only frames that are not
for the bridge are missing behind the first one. -/
def Kept (h : Handoff) : Prop :=
  match h.stage with
  | .receiving => ∃ dropped, h.placed = dropped ++ (h.batch ++ h.inbox) ∧ h.handed = [] ∧
      ∀ e ∈ dropped, e.kind ≠ .advertisement
  | .failed => True
  | .bridging => ∃ before adv behind, h.placed = before ++ adv :: (behind ++ h.left) ∧
      (∀ e ∈ before, e.kind ≠ .advertisement) ∧ adv.kind = .advertisement ∧ forBridge behind = []

theorem Kept.place (hk : h.Kept) (e : Envelope) :
    Kept { h with inbox := h.inbox ++ [e], placed := h.placed ++ [e] } := by
  unfold Kept at hk ⊢
  cases hstage : h.stage with
  | receiving =>
    simp only [hstage] at hk ⊢
    obtain ⟨dropped, hplaced, hhanded, hdropped⟩ := hk
    exact ⟨dropped, by simp [hplaced], hhanded, hdropped⟩
  | failed => trivial
  | bridging =>
    simp only [hstage] at hk ⊢
    obtain ⟨before, adv, behind, hplaced, hbefore, hadv, hbehind⟩ := hk
    exact ⟨before, adv, behind, by simp [hplaced, left], hbefore, hadv, hbehind⟩

theorem Kept.returned (hk : h.Kept)
    (hclean : h.stage = .receiving → forBridge (behindAdvertisement h.batch) = []) :
    h.returned.Kept := by
  unfold Handoff.returned
  cases hstage : h.stage with
  | receiving =>
    simp only [Kept, hstage] at hk
    obtain ⟨dropped, hplaced, hhanded, hdropped⟩ := hk
    dsimp only
    by_cases hfound : h.batch.any (·.kind = .advertisement) = true
    · obtain ⟨before, adv, hbatch, hbefore, hadv⟩ := split_at_advertisement hfound
      rw [if_pos hfound]
      refine ⟨dropped ++ before, adv, behindAdvertisement h.batch, ?_, ?_, hadv, hclean hstage⟩
      · show h.placed = _ ++ adv :: (_ ++ (h.handed ++ [] ++ h.inbox))
        rw [hplaced, hhanded]
        conv_lhs => rw [hbatch]
        simp
      · intro e he
        rcases List.mem_append.mp he with he | he
        · exact hdropped e he
        · exact hbefore e he
    · rw [if_neg hfound]
      refine ⟨dropped ++ h.batch, by simp [hplaced], hhanded, ?_⟩
      intro e he
      rcases List.mem_append.mp he with he | he
      · exact hdropped e he
      · intro hkind
        exact hfound (List.any_eq_true.mpr ⟨e, he, by simp [hkind]⟩)
  | failed => simp [Kept]
  | bridging =>
    simp only [Kept, hstage] at hk ⊢
    obtain ⟨before, adv, behind, hplaced, hbefore, hadv, hbehind⟩ := hk
    exact ⟨before, adv, behind, by simp [hplaced, left], hbefore, hadv, hbehind⟩

theorem Kept.get (hk : h.Kept) (hclean : h.Clean .get) : h.get.Kept := by
  unfold Handoff.get
  split
  · rename_i hroom
    split
    · rename_i hempty
      exact hk.returned fun hstage => hclean hstage (.inr hempty)
    · rename_i e rest hinbox
      unfold Kept at hk ⊢
      cases hstage : h.stage with
      | receiving =>
        simp only [hstage] at hk ⊢
        obtain ⟨dropped, hplaced, hhanded, hdropped⟩ := hk
        exact ⟨dropped, by simp [hplaced, hinbox], hhanded, hdropped⟩
      | failed => trivial
      | bridging =>
        simp only [hstage] at hk ⊢
        obtain ⟨before, adv, behind, hplaced, hbefore, hadv, hbehind⟩ := hk
        exact ⟨before, adv, behind, by simp [hplaced, left, hinbox], hbefore, hadv, hbehind⟩
  · rename_i hfull
    exact hk.returned fun hstage => hclean hstage (.inl (Nat.le_of_not_lt hfull))

theorem Kept.step {turn : Turn} (hk : h.Kept) (hclean : h.Clean turn)
    (hstep : h.step capacity turn = some h') : h'.Kept := by
  cases turn with
  | place e =>
    unfold Handoff.step at hstep
    dsimp only at hstep
    split at hstep
    · cases hstep
      exact hk.place e
    · cases hstep
  | get =>
    unfold Handoff.step at hstep
    dsimp only at hstep
    split at hstep
    · cases hstep
    · cases hstep
      exact hk.get hclean
  | giveUp =>
    unfold Handoff.step at hstep
    dsimp only at hstep
    split at hstep
    · cases hstep
      trivial
    · cases hstep

theorem Kept.behind (hk : h.Kept) (hstage : h.stage = .bridging) :
    forBridge (behindAdvertisement h.placed) = forBridge h.left := by
  simp only [Kept, hstage] at hk
  obtain ⟨before, adv, behind, hplaced, hbefore, hadv, hbehind⟩ := hk
  rw [hplaced, behindAdvertisement_eq hbefore hadv, forBridge_append, hbehind, List.nil_append]

/-! ## How long the bridge has to poll -/

/-- Rounds of `poll` that hand over every frame of `old`: 33 for each frame that is still in
the queue, and the rest of the batch under way. -/
def owed (old : List Envelope) (h : Handoff) : Nat :=
  if old.length ≤ h.handed.length then 0
  else
    33 * (old.length - (h.handed.length + h.batch.length)) +
      if h.batch.length = 0 then 0 else 33 - h.batch.length

/-- The bridge runs, the frames of `old` are the first it is handed. -/
structure Serves (old : List Envelope) (h : Handoff) : Prop where
  stage : h.stage = .bridging
  batch : h.batch.length ≤ pollLimit
  old : old <+: h.left

theorem Serves.place {old : List Envelope} (hs : h.Serves old) (e : Envelope) :
    Serves old { h with inbox := h.inbox ++ [e], placed := h.placed ++ [e] } := by
  refine ⟨hs.stage, hs.batch, hs.old.trans ?_⟩
  show h.left <+: h.handed ++ h.batch ++ (h.inbox ++ [e])
  rw [← List.append_assoc]
  exact List.prefix_append _ _

theorem Serves.returned {old : List Envelope} (hs : h.Serves old)
    (hends : h.ends) : h.returned.Serves old ∧ h.returned.owed old ≤ h.owed old - 1 := by
  have hreturned : h.returned = { h with batch := [], handed := h.handed ++ h.batch } := by
    simp only [Handoff.returned, hs.stage]
  rw [hreturned]
  refine ⟨⟨hs.stage, Nat.zero_le _, ?_⟩, ?_⟩
  · simpa [left] using hs.old
  · have hbatch := hs.batch
    have hlength := hs.old.length_le
    have hempty : h.batch.length = 0 → h.inbox.length = 0 := by
      -- an empty batch ends only where the queue is empty
      intro hnone
      rcases hends with hfull | hempty
      · simp [hnone, pollLimit] at hfull
      · simp [hempty]
    simp only [left, pollLimit, List.length_append] at hbatch hlength
    simp only [owed, List.length_append, List.length_nil, if_true]
    split
    · omega
    · split
      · omega
      · split
        · omega
        · omega

theorem Serves.get {old : List Envelope} (hs : h.Serves old) :
    h.get.Serves old ∧ h.get.owed old ≤ h.owed old - 1 := by
  unfold Handoff.get
  split
  · rename_i hroom
    split
    · rename_i hempty
      exact hs.returned (.inr hempty)
    · rename_i e rest hinbox
      refine ⟨⟨hs.stage, ?_, ?_⟩, ?_⟩
      · show (h.batch ++ [e]).length ≤ pollLimit
        rw [List.length_append, List.length_singleton]
        exact hroom
      · simpa [left, hinbox] using hs.old
      · simp only [pollLimit] at hroom
        simp only [owed, List.length_append, List.length_singleton]
        split
        · omega
        · split
          · omega
          · split
            · omega
            · omega
  · rename_i hfull
    exact hs.returned (.inl (Nat.le_of_not_lt hfull))

theorem Serves.step {old : List Envelope} {turn : Turn} (hs : h.Serves old)
    (hstep : h.step capacity turn = some h') :
    h'.Serves old ∧ h'.owed old ≤ h.owed old - [turn].count .get := by
  cases turn with
  | place e =>
    unfold Handoff.step at hstep
    dsimp only at hstep
    split at hstep
    · cases hstep
      exact ⟨hs.place e, Nat.le_refl _⟩
    · cases hstep
  | get =>
    unfold Handoff.step at hstep
    dsimp only at hstep
    rw [if_neg (by simp [hs.stage])] at hstep
    cases hstep
    exact hs.get
  | giveUp =>
    unfold Handoff.step at hstep
    dsimp only at hstep
    rw [if_neg (by simp [hs.stage])] at hstep
    cases hstep

theorem Serves.run {old : List Envelope} {turns : List Turn} (hs : h.Serves old)
    (hplay : System.play (Handoff.step capacity) System.Free h turns = some h') :
    h'.Serves old ∧ h'.owed old ≤ h.owed old - turns.count .get := by
  induction turns generalizing h with
  | nil =>
    cases hplay
    exact ⟨hs, Nat.le_refl _⟩
  | cons turn turns ih =>
    obtain ⟨-, h₁, hstep, hplay⟩ := System.play_cons.mp hplay
    obtain ⟨hs₁, hless⟩ := hs.step hstep
    obtain ⟨hs', hrest⟩ := ih hs₁ hplay
    refine ⟨hs', ?_⟩
    have hcount : (turn :: turns).count .get = [turn].count .get + turns.count .get := by
      rw [← List.singleton_append, List.count_append]
    omega

theorem step_batch {turn : Turn} (hbatch : h.batch.length ≤ pollLimit)
    (hstep : h.step capacity turn = some h') : h'.batch.length ≤ pollLimit := by
  have hreturned : h.returned.batch = [] := by
    unfold returned
    split <;> rfl
  unfold Handoff.step at hstep
  cases turn with
  | place e =>
    dsimp only at hstep
    split at hstep
    · cases hstep
      exact hbatch
    · cases hstep
  | get =>
    dsimp only at hstep
    split at hstep
    · cases hstep
    · cases hstep
      unfold Handoff.get
      split
      · rename_i hroom
        split
        · rw [hreturned]
          exact Nat.zero_le _
        · show (h.batch ++ [_]).length ≤ pollLimit
          rw [List.length_append, List.length_singleton]
          exact hroom
      · rw [hreturned]
        exact Nat.zero_le _
  | giveUp =>
    dsimp only at hstep
    split at hstep
    · cases hstep
      exact hbatch
    · cases hstep

theorem Serves.all_handed {old : List Envelope} (hs : h.Serves old) (hpaid : h.owed old = 0) :
    old <+: h.handed := by
  have hlength : old.length ≤ h.handed.length := by
    have hbatch := hs.batch
    simp only [pollLimit] at hbatch
    simp only [owed] at hpaid
    split at hpaid
    · assumption
    · split at hpaid
      · omega
      · omega
  have hold := hs.old
  rw [left, List.append_assoc] at hold
  exact List.prefix_of_prefix_length_le hold (List.prefix_append _ _) hlength

end Handoff

/-- In every run that keeps to `Clean`, once the bridge runs it is handed every `SIDE_READY`
and `RFU` frame placed behind the `ADVERTISEMENT`, in order. -/
theorem handoff_complete {capacity : Nat} {h : Handoff}
    (hrun : (handoff capacity).Reachable Handoff.Clean h) (hstage : h.stage = .bridging) :
    h.HandsOver capacity := by
  have hinv : h.Kept ∧ h.batch.length ≤ pollLimit := by
    refine System.Reachable.invariant (P := fun h => h.Kept ∧ h.batch.length ≤ pollLimit)
      ?_ ?_ hrun
    · rintro h rfl
      exact ⟨⟨[], rfl, rfl, nofun⟩, Nat.zero_le _⟩
    · rintro h turn h' ⟨hk, hbatch⟩ hclean hstep
      exact ⟨hk.step hclean hstep, Handoff.step_batch hbatch hstep⟩
  obtain ⟨hk, hbatch⟩ := hinv
  have hbehind := hk.behind hstage
  refine ⟨?_, h.owed h.left, fun turns h' hplay hrounds => ?_⟩
  · rw [hbehind, Handoff.left, List.append_assoc]
    exact forBridge_prefix (List.prefix_append _ _)
  · have hserves : h.Serves h.left := ⟨hstage, hbatch, List.prefix_rfl⟩
    obtain ⟨hserves', hpaid⟩ := hserves.run hplay
    rw [hbehind]
    exact forBridge_prefix (hserves'.all_handed (by omega))

theorem reachable_handoff {capacity : Nat} {G : Handoff → Turn → Prop}
    [∀ h turn, Decidable (G h turn)] {turns : List Turn} {h : Handoff}
    (hplay : System.play (Handoff.step capacity) G .empty turns = some h) :
    (handoff capacity).Reachable G h :=
  ⟨.empty, rfl, System.run_of_play hplay⟩

instance (h : Handoff) : Decidable h.ends :=
  inferInstanceAs (Decidable (pollLimit ≤ h.batch.length ∨ h.inbox = []))

instance (h : Handoff) : (turn : Turn) → Decidable (h.Clean turn)
  | .get =>
    inferInstanceAs (Decidable
      (h.stage = .receiving → h.ends → forBridge (behindAdvertisement h.batch) = []))
  | .place _ | .giveUp => .isTrue trivial

/-! Seat A's `ADVERTISEMENT` and its `SIDE_READY` arrive one right after the other. -/

def peerAdvertisement : Envelope := fromPeer 3 .advertisement (ascii "pia")

theorem handoff_complete_apart :
    ∃ h, System.play (Handoff.step 32) Handoff.Clean .empty
        [.place peerAdvertisement, .get, .get, .place peerSideReady] = some h ∧
      h.inbox = [peerSideReady] ∧ h.HandsOver 32 := by
  obtain ⟨h, hplay, hready⟩ := (Option.any_eq_true _ _).mp
    (show (System.play (Handoff.step 32) Handoff.Clean .empty
      [.place peerAdvertisement, .get, .get, .place peerSideReady]).any
        fun h => h.stage = .bridging ∧ h.inbox = [peerSideReady] by decide +kernel)
  obtain ⟨hstage, hinbox⟩ := of_decide_eq_true hready
  exact ⟨h, hplay, hinbox, handoff_complete (reachable_handoff hplay) hstage⟩

/-- Both are in the batch in which the loop finds the `ADVERTISEMENT`. -/
theorem same_batch_loses_readiness :
    ¬ ∀ (capacity : Nat) (h : Handoff), (handoff capacity).Reachable System.Free h →
      h.stage = .bridging → h.HandsOver capacity := by
  intro hclaim
  obtain ⟨h, hplay, hlost⟩ := (Option.any_eq_true _ _).mp
    (show (System.play (Handoff.step 32) System.Free .empty
      [.place peerAdvertisement, .place peerSideReady, .get, .get, .get]).any
        fun h => h = ⟨[], [], .bridging, [peerAdvertisement, peerSideReady], []⟩ by decide +kernel)
  obtain rfl := of_decide_eq_true hlost
  obtain ⟨-, rounds, heventually⟩ := hclaim 32 _ (reachable_handoff hplay) rfl
  have hstays : ∀ n, System.play (Handoff.step 32) System.Free
      ⟨[], [], .bridging, [peerAdvertisement, peerSideReady], []⟩ (List.replicate n .get) =
        some ⟨[], [], .bridging, [peerAdvertisement, peerSideReady], []⟩ := by
    intro n
    induction n with
    | zero => rfl
    | succ n ih =>
      rw [List.replicate_succ]
      exact System.play_cons.mpr ⟨trivial, _, rfl, ih⟩
  have hfollows := heventually _ _ (hstays rounds) (by simp)
  have hbehind : forBridge (behindAdvertisement [peerAdvertisement, peerSideReady]) =
      [peerSideReady] := rfl
  rw [hbehind] at hfollows
  exact absurd hfollows.length_le (by decide)

end SwitchTrade.Bridge

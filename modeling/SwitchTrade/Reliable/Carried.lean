import SwitchTrade.Reliable.Outbound
import SwitchTrade.Reliable.SelectiveRepeat

/-!
# What the link carries of the remote stream

The backlog holds envelopes of one connection, the one whose number the simulation read last,
as long as no poll takes an envelope of a younger one (`Unraced`). `Sound` is the invariant of
such runs: what was queued, dropped and waits of a connection is what the backlog took of it,
in order, and a connection of which something was dropped is over.
-/

namespace SwitchTrade.Reliable

open Transition

universe u v

variable {Time : Type u}

/-! ## The load of the link -/

namespace ReliableLink

variable {Payload : Type v} {link : ReliableLink Time Payload}

theorem inflight_eq_keys : link.inflight = link.unacked.keys.length := by
  rw [inflight, Dict.keys, List.length_map]

theorem inflight_queue_le {inner : Payload} {flags : UInt8} {now : Time} :
    (link.queue inner flags now).1.inflight ≤ link.inflight + 1 := by
  rw [inflight_eq_keys, inflight_eq_keys]
  show (link.unacked.set link.outSeq _).keys.length ≤ _
  cases hget : link.unacked.get? link.outSeq with
  | none =>
    rw [Dict.keys_set_of_none hget, List.length_append]
    exact Nat.le_refl _
  | some entry =>
    rw [Dict.keys_set_of_some hget]
    exact Nat.le_succ _

/-- The link holds no more than another one, and has the same bound. -/
structure Lighter (link' link : ReliableLink Time Payload) : Prop where
  inflight : link'.inflight ≤ link.inflight
  maxInflight : link'.maxInflight = link.maxInflight

theorem Lighter.refl : Lighter link link := ⟨Nat.le_refl _, rfl⟩

theorem Lighter.trans {link' link'' : ReliableLink Time Payload} (h : Lighter link'' link')
    (h' : Lighter link' link) : Lighter link'' link :=
  ⟨h.inflight.trans h'.inflight, h.maxInflight.trans h'.maxInflight⟩

variable [Clock Time]

theorem dueRetransmits_lighter {now : Time} {limit : Option Int} :
    Lighter (link.dueRetransmits now limit).1 link := by
  refine (@dueRetransmits_spec _ _ _ (Lighter · link) link now limit ?_ .refl).1
  intro link' seq entry resends h hget
  refine ⟨?_, h.maxInflight⟩
  rw [inflight_eq_keys]
  show (link'.unacked.set seq _).keys.length ≤ _
  rw [Dict.keys_set_of_some hget, ← inflight_eq_keys]
  exact h.inflight

omit [Clock Time] in
theorem free_lighter (turns : Nat) : Lighter (free turns link) link := by
  induction turns generalizing link with
  | zero => exact .refl
  | succ turns ih =>
    unfold free
    split
    · rename_i entry hget
      split
      · refine ih.trans ⟨?_, rfl⟩
        exact (Dict.length_erase_lt hget).le
      · exact .refl
    · exact .refl

omit [Clock Time] in
theorem trackGap_lighter (ackId : BitVec 16) (mask : Nat) :
    Lighter (link.trackGap ackId mask) link := by
  unfold trackGap
  split
  · split
    · split
      · exact ⟨Nat.le_refl _, rfl⟩
      · exact ⟨Nat.le_refl _, rfl⟩
    · exact ⟨Nat.le_refl _, rfl⟩
  · exact ⟨Nat.le_refl _, rfl⟩

theorem onAck_lighter (ackId : Option (BitVec 16)) (mask : List UInt8) (now : Option Time) :
    Lighter (link.onAck ackId mask now) link := by
  cases ackId with
  | none => exact .refl
  | some ackId =>
    refine ((trackGap_lighter ackId _).trans (free_lighter _)).trans ⟨?_, rfl⟩
    rw [inflight_eq_keys, inflight_eq_keys]
    exact (congrArg List.length (Dict.keys_mapValues _ _)).le

omit [Clock Time] in
theorem advance_lighter (turns : Nat) : Lighter (advance turns link) link := by
  induction turns generalizing link with
  | zero => exact .refl
  | succ turns ih =>
    unfold advance
    split
    · exact ih.trans ⟨Nat.le_refl _, rfl⟩
    · exact .refl

omit [Clock Time] in
theorem noteReceived_lighter (seq : BitVec 16) : Lighter (link.noteReceived seq) link := by
  unfold noteReceived
  split
  · exact (advance_lighter _).trans ⟨Nat.le_refl _, rfl⟩
  · split
    · exact ⟨Nat.le_refl _, rfl⟩
    · exact .refl

end ReliableLink

/-! ## The two loops -/

/-- The AppData envelopes of one connection. -/
def carried (generation : Nat) (l : List Received) : List Received :=
  l.filter fun e => e.1 = generation && e.2.appData

@[simp] theorem carried_append (generation : Nat) (l l' : List Received) :
    carried generation (l ++ l') = carried generation l ++ carried generation l' :=
  List.filter_append ..

theorem carried_eq_nil {generation : Nat} {l : List Received}
    (h : ∀ e ∈ l, e.1 ≠ generation) : carried generation l = [] := by
  rw [carried, List.filter_eq_nil_iff]
  intro e he hc
  rw [Bool.and_eq_true, decide_eq_true_eq] at hc
  exact h e he hc.1

section

variable {backlog frames : List Received} {closed : Bool}

/-- The loop puts what it takes at the end of the backlog. -/
theorem drainLoop_backlog :
    (drainLoop backlog closed frames).backlog =
      backlog ++ (drainLoop backlog closed frames).taken := by
  induction frames generalizing backlog closed with
  | nil => exact (List.append_nil _).symm
  | cons e rest ih =>
    unfold drainLoop
    split
    · exact ih
    · exact ih
    · split
      · exact (List.append_nil _).symm
      · simp only
        rw [ih, List.append_assoc]
        rfl

/-- Unless the loop raises, it takes every RFU envelope. -/
theorem drainLoop_taken (h : (drainLoop backlog closed frames).refused = []) :
    (drainLoop backlog closed frames).taken = frames.filter fun e => e.2.kind = .rfu := by
  induction frames generalizing backlog closed with
  | nil => rfl
  | cons e rest ih =>
    cases hkind : e.2.kind with
    | peerClose =>
      simp only [drainLoop, hkind] at h ⊢
      rw [List.filter_cons_of_neg (by simp [hkind])]
      exact ih h
    | other =>
      simp only [drainLoop, hkind] at h ⊢
      rw [List.filter_cons_of_neg (by simp [hkind])]
      exact ih h
    | rfu =>
      simp only [drainLoop, hkind] at h ⊢
      split at h
      · cases h
      · rename_i hfits
        rw [if_neg hfits, List.filter_cons_of_pos (by simp [hkind])]
        exact congrArg (e :: ·) (ih h)

theorem drainLoop_subset : (drainLoop backlog closed frames).taken ⊆ frames := by
  induction frames generalizing backlog closed with
  | nil => exact List.Subset.refl _
  | cons e rest ih =>
    unfold drainLoop
    split
    · exact List.subset_cons_of_subset e ih
    · exact List.subset_cons_of_subset e ih
    · split
      · exact List.nil_subset _
      · exact List.cons_subset_cons e ih

end

section

variable {now : Time} {rel : ReliableLink Time (List UInt8)} {batch : List BatchFrame}
  {backlog : List Received}

/-- What is queued was at the head of the data in the backlog. -/
theorem moveLoop_queued :
    (moveLoop now rel batch backlog).queued ++
        (moveLoop now rel batch backlog).backlog.filter (·.2.appData) =
      backlog.filter (·.2.appData) := by
  induction backlog generalizing rel batch with
  | nil => rfl
  | cons e rest ih =>
    unfold moveLoop
    split
    · rfl
    · by_cases happ : e.2.appData = true
      · rw [if_pos happ, List.filter_cons_of_pos (by exact happ)]
        exact congrArg (e :: ·) ih
      · rw [if_neg happ, List.filter_cons_of_neg (by exact happ)]
        exact ih

theorem moveLoop_sublist :
    ((moveLoop now rel batch backlog).queued ++
      (moveLoop now rel batch backlog).backlog).Sublist backlog := by
  induction backlog generalizing rel batch with
  | nil => exact .slnil
  | cons e rest ih =>
    unfold moveLoop
    split
    · exact .refl _
    · split
      · exact ih.cons_cons e
      · exact ih.cons e

/-- The window of the link is never overfull. -/
theorem moveLoop_inflight (h : rel.inflight ≤ rel.maxInflight) :
    (moveLoop now rel batch backlog).rel.inflight ≤ rel.maxInflight ∧
      (moveLoop now rel batch backlog).rel.maxInflight = rel.maxInflight := by
  induction backlog generalizing rel batch with
  | nil => exact ⟨h, rfl⟩
  | cons e rest ih =>
    unfold moveLoop
    split
    · exact ⟨h, rfl⟩
    · rename_i hfree
      split
      · have hroom : rel.inflight < rel.maxInflight := by omega
        exact ih (ReliableLink.inflight_queue_le.trans hroom)
      · exact ih h

/-- Moving a frame from the backlog to the link keeps what is carried. -/
theorem carried_moveLoop (generation : Nat) :
    carried generation (moveLoop now rel batch backlog).queued ++
        carried generation (moveLoop now rel batch backlog).backlog =
      carried generation backlog := by
  have hfilter : ∀ l : List Received,
      carried generation l = (l.filter (·.2.appData)).filter (·.1 = generation) := by
    intro l
    rw [carried, List.filter_filter]
  have happ : (moveLoop now rel batch backlog).queued.filter (·.2.appData) =
      (moveLoop now rel batch backlog).queued := by
    rw [List.filter_eq_self]
    intro e he
    have hmem : e ∈ backlog.filter (·.2.appData) := by
      rw [← moveLoop_queued]
      exact List.mem_append_left _ he
    exact (List.mem_filter.mp hmem).2
  rw [hfilter, hfilter, hfilter, happ, ← List.filter_append, moveLoop_queued]

end

/-! ## The stream -/

namespace Outbound

/-- No poll takes an envelope of a connection that began after its tick read
`connection_generation`. -/
def Unraced (w : Outbound Time) : OutboundLabel Time → Prop
  | .take => w.tunnel.generation = w.sender.tunnelGeneration
  | _ => True

/-- What the simulation holds of the tunnel's envelopes. -/
def held (w : Outbound Time) : List Received :=
  match w.progress with
  | .polling frames => w.sender.pendingRemote ++ frames
  | _ => w.sender.pendingRemote

/-- The connections of which something was dropped, against how far the tick has come. -/
def Settled (w : Outbound Time) : Prop :=
  match w.progress with
  | .looked => ∀ e ∈ w.dropped, e.1 < w.tunnel.generation
  | .polling _ => ∀ e ∈ w.dropped, e.1 < w.sender.tunnelGeneration
  | _ => w.sender.pendingRemote = [] ∨ ∀ e ∈ w.dropped, e.1 < w.sender.tunnelGeneration

/-- The link carries, in order, what the backlog took of each connection, up to what still
waits or was dropped; and what was dropped was of a connection that is over. -/
structure Carries (w : Outbound Time) : Prop where
  stream : ∀ generation, carried generation w.queued ++
    (carried generation w.dropped ++ carried generation w.sender.pendingRemote) =
      carried generation w.taken
  ordered : (w.queued ++ w.sender.pendingRemote).Sublist w.taken
  dropped : ∀ e ∈ w.dropped, e.1 < w.tunnel.generation ∨
    e.1 = w.tunnel.generation ∧ w.tunnel.phase = .over
  taken : w.refused = [] → w.taken = w.polled.filter fun e => e.2.kind = .rfu
  window : w.sender.rel.inflight ≤ w.sender.rel.maxInflight

structure Sound (w : Outbound Time) : Prop extends Carries w where
  own : w.tunnel.Own
  behind : w.sender.tunnelGeneration ≤ w.tunnel.generation
  held : ∀ e ∈ w.held, e.1 = w.sender.tunnelGeneration
  opening : w.tunnel.phase = .opening → ∀ e ∈ w.held, e.1 < w.tunnel.generation
  settled : w.Settled

namespace Sound

variable {w : Outbound Time}

theorem fresh {parent : Bool} {knobs : Knobs Time} {tunnel : Tunnel} (h : tunnel.Own) :
    Sound (.fresh parent knobs tunnel) where
  stream _ := rfl
  ordered := .slnil
  dropped _ he := absurd he List.not_mem_nil
  taken _ := rfl
  window := Nat.zero_le _
  own := h
  behind := Nat.le_refl _
  held _ he := absurd he List.not_mem_nil
  opening _ _ he := absurd he List.not_mem_nil
  settled := .inl rfl

/-- Outside of a poll, what is held is the backlog. -/
theorem pending_held {e : Received} (he : e ∈ w.sender.pendingRemote) : e ∈ w.held := by
  unfold Outbound.held
  split
  · exact List.mem_append_left _ he
  · exact he

/-- The tunnel moves on: to a younger connection, or with the one it has. -/
theorem tunnel (h : Sound w) {t : Tunnel} (hown : t.Own)
    (hnext : w.tunnel.generation < t.generation ∨
      t.generation = w.tunnel.generation ∧ (t.phase = .opening → w.tunnel.phase = .opening) ∧
        (w.tunnel.phase = .over → t.phase = .over)) :
    Sound { w with tunnel := t } where
  stream := h.stream
  ordered := h.ordered
  dropped := by
    intro e he
    rcases hnext with hlt | ⟨heq, -, hover⟩
    · rcases h.dropped e he with hd | ⟨hd, -⟩
      · exact .inl (hd.trans hlt)
      · exact .inl (hd.trans_lt hlt)
    · rcases h.dropped e he with hd | ⟨hd, hphase⟩
      · exact .inl (hd.trans_eq heq.symm)
      · exact .inr ⟨hd.trans heq.symm, hover hphase⟩
  taken := h.taken
  window := h.window
  own := hown
  behind := by
    have := h.behind
    show w.sender.tunnelGeneration ≤ t.generation
    omega
  held := h.held
  opening := by
    intro hphase e he
    rcases hnext with hlt | ⟨heq, hopening, -⟩
    · have hbehind := h.behind
      have htag := h.held e he
      show e.1 < t.generation
      omega
    · exact (h.opening (hopening hphase) e he).trans_eq heq.symm
  settled := by
    have hle : w.tunnel.generation ≤ t.generation := by omega
    have hs := h.settled
    unfold Settled at hs ⊢
    simp only
    split
    · rename_i hprogress
      rw [hprogress] at hs
      intro e he
      exact (hs e he).trans_le hle
    · rename_i frames hprogress
      rw [hprogress] at hs
      exact hs
    · rename_i hlooked hpolling
      split at hs
      · rename_i hprogress
        exact absurd hprogress hlooked
      · rename_i frames hprogress
        exact absurd hprogress (hpolling frames)
      · exact hs

/-- Only `arrive` adds to the inbox, and on the connection that is up. -/
theorem event (h : Sound w) {event : TunnelEvent} {t : Tunnel}
    (ht : w.tunnel.event event = some t) : Sound { w with tunnel := t } := by
  cases event with
  | renew =>
    cases ht
    exact h.tunnel ⟨nofun, fun _ => rfl⟩ (.inl (Nat.lt_succ_self _))
  | up =>
    simp only [Tunnel.event, Option.ite_none_right_eq_some, Option.some.injEq] at ht
    obtain ⟨hphase, rfl⟩ := ht
    refine h.tunnel ⟨h.own.tags, nofun⟩ (.inr ⟨rfl, nofun, ?_⟩)
    intro hover
    rw [hphase] at hover
    cases hover
  | arrive envelope =>
    simp only [Tunnel.event, Option.ite_none_right_eq_some, Option.some.injEq] at ht
    obtain ⟨hphase, rfl⟩ := ht
    refine h.tunnel ⟨?_, fun hopening => ?_⟩ (.inr ⟨rfl, id, id⟩)
    · intro e he
      rcases List.mem_append.mp he with he | he
      · exact h.own.tags e he
      · rw [List.mem_singleton.mp he]
    · rw [show w.tunnel.phase = .opening from hopening] at hphase
      cases hphase
  | down =>
    cases ht
    exact h.tunnel ⟨h.own.tags, nofun⟩ (.inr ⟨rfl, nofun, fun _ => rfl⟩)
  | discard =>
    simp only [Tunnel.event, Option.ite_none_left_eq_some, Option.some.injEq] at ht
    obtain ⟨-, rfl⟩ := ht
    exact h.tunnel ⟨nofun, fun _ => rfl⟩ (.inr ⟨rfl, id, id⟩)

/-- The backlog is cleared once its connection is over. -/
theorem clear (h : Sound w) (hover : ∀ e ∈ w.sender.pendingRemote,
    e.1 < w.tunnel.generation ∨ e.1 = w.tunnel.generation ∧ w.tunnel.phase = .over) :
    Carries w.clear where
  stream generation := by
    show carried generation w.queued ++ (carried generation (w.dropped ++ w.sender.pendingRemote) ++
      []) = carried generation w.taken
    rw [← h.stream generation, carried_append, List.append_nil]
  ordered := by
    refine List.Sublist.trans ?_ h.ordered
    exact List.Sublist.append_left (List.nil_sublist _) _
  dropped e he := (List.mem_append.mp he).elim (h.dropped e) (hover e)
  taken := h.taken
  window := h.window

theorem look (h : Sound w) (hopen : w.tunnel.connected = true) :
    Sound { w with
      sender := { w.sender with tick := w.sender.tick + 1 }
      progress := .looked } where
  stream := h.stream
  ordered := h.ordered
  dropped := h.dropped
  taken := h.taken
  window := h.window
  own := h.own
  behind := h.behind
  held _ he := h.held _ (pending_held he)
  opening hphase _ he := h.opening hphase _ (pending_held he)
  settled := by
    intro e he
    rcases h.dropped e he with hd | ⟨-, hphase⟩
    · exact hd
    · have hup : w.tunnel.phase = .open := of_decide_eq_true hopen
      rw [hup] at hphase
      cases hphase

theorem lookClosed (h : Sound w) (hclosed : w.tunnel.connected = false) :
    Sound { { w with sender := { w.sender with tick := w.sender.tick + 1 } }.clear with
      progress := .drained } := by
  have hnot : w.tunnel.phase ≠ .open := of_decide_eq_false hclosed
  have hclear : Carries w.clear := by
    apply h.clear
    intro e he
    have htag := h.held e (pending_held he)
    have hbehind := h.behind
    cases hphase : w.tunnel.phase with
    | opening => exact .inl (h.opening hphase e (pending_held he))
    | «open» => exact absurd hphase hnot
    | «over» =>
      rcases Nat.lt_or_ge e.1 w.tunnel.generation with hlt | hge
      · exact .inl hlt
      · exact .inr ⟨by omega, rfl⟩
  exact {
    stream := hclear.stream
    ordered := hclear.ordered
    dropped := hclear.dropped
    taken := hclear.taken
    window := hclear.window
    own := h.own
    behind := h.behind
    held := fun _ he => absurd he List.not_mem_nil
    opening := fun _ _ he => absurd he List.not_mem_nil
    settled := .inl rfl }

theorem compareSame (h : Sound w) (hlooked : w.progress = .looked)
    (hsame : w.tunnel.generation = w.sender.tunnelGeneration) :
    Sound { w with progress := .polling [] } where
  stream := h.stream
  ordered := h.ordered
  dropped := h.dropped
  taken := h.taken
  window := h.window
  own := h.own
  behind := h.behind
  held e he := h.held e (pending_held (by simpa [Outbound.held] using he))
  opening hphase e he := h.opening hphase e (pending_held (by simpa [Outbound.held] using he))
  settled := by
    have hs := h.settled
    rw [Settled, hlooked] at hs
    intro e he
    exact (hs e he).trans_eq hsame

/-- A new generation leaves nothing of the old one behind. -/
theorem compareOther (h : Sound w) (hlooked : w.progress = .looked)
    (hother : w.tunnel.generation ≠ w.sender.tunnelGeneration) :
    Sound { w.clear with
      sender := { w.clear.sender with tunnelGeneration := w.tunnel.generation }
      progress := .polling [] } := by
  have hbehind := h.behind
  have hpending : ∀ e ∈ w.sender.pendingRemote, e.1 < w.tunnel.generation := by
    intro e he
    have htag := h.held e (pending_held he)
    omega
  have hclear : Carries w.clear := h.clear fun e he => .inl (hpending e he)
  exact {
    stream := hclear.stream
    ordered := hclear.ordered
    dropped := hclear.dropped
    taken := hclear.taken
    window := hclear.window
    own := h.own
    behind := Nat.le_refl _
    held := fun _ he => absurd he List.not_mem_nil
    opening := fun _ _ he => absurd he List.not_mem_nil
    settled := by
      have hs := h.settled
      rw [Settled, hlooked] at hs
      intro e he
      exact (List.mem_append.mp he).elim (hs e) (hpending e) }

theorem take (h : Sound w) {frames rest : List Received} {e : Received}
    (hpolling : w.progress = .polling frames) (hinbox : w.tunnel.inbox = e :: rest)
    (hsame : w.tunnel.generation = w.sender.tunnelGeneration) :
    Sound { w with
      tunnel := { w.tunnel with inbox := rest }, progress := .polling (frames ++ [e]) } where
  stream := h.stream
  ordered := h.ordered
  dropped := h.dropped
  taken := h.taken
  window := h.window
  own := by
    constructor
    · intro e' he'
      exact h.own.tags e' (hinbox ▸ List.mem_cons_of_mem e he')
    · intro hphase
      have hnil := h.own.opening hphase
      rw [hinbox] at hnil
      cases hnil
  behind := h.behind
  held e' he' := by
    rcases List.mem_append.mp he' with hp | hf
    · exact h.held e' (pending_held hp)
    · rcases List.mem_append.mp hf with hf | he
      · apply h.held e'
        rw [Outbound.held, hpolling]
        exact List.mem_append_right _ hf
      · rw [List.mem_singleton.mp he]
        exact (h.own.tags e (hinbox ▸ List.mem_cons_self)).trans hsame
  opening hphase := by
    have hnil := h.own.opening hphase
    rw [hinbox] at hnil
    cases hnil
  settled := by
    have hs := h.settled
    rw [Settled, hpolling] at hs
    exact hs

theorem pollRaises (h : Sound w) (hpolling : w.progress = .polling []) :
    Sound { w with progress := .idle } where
  stream := h.stream
  ordered := h.ordered
  dropped := h.dropped
  taken := h.taken
  window := h.window
  own := h.own
  behind := h.behind
  held _ he := h.held _ (pending_held he)
  opening hphase _ he := h.opening hphase _ (pending_held he)
  settled := by
    have hs := h.settled
    rw [Settled, hpolling] at hs
    exact .inr hs

/-- The frames that a poll took are handed over in their order. -/
theorem receive (h : Sound w) {frames : List Received} (hpolling : w.progress = .polling frames) :
    Sound (w.receive frames) := by
  have hs : ∀ e ∈ w.dropped, e.1 < w.sender.tunnelGeneration := by
    have hs := h.settled
    rwa [Settled, hpolling] at hs
  have hheld : w.held = w.sender.pendingRemote ++ frames := by
    rw [Outbound.held, hpolling]
  have hback := @drainLoop_backlog w.sender.pendingRemote frames w.sender.hostDisconnected
  have hsub := @drainLoop_subset w.sender.pendingRemote frames w.sender.hostDisconnected
  have hin : ∀ e ∈ (w.receive frames).held, e ∈ w.held := by
    intro e he
    have hmem :
        e ∈ (drainLoop w.sender.pendingRemote w.sender.hostDisconnected frames).backlog := by
      unfold Outbound.held Outbound.receive at he
      simp only at he
      split at he
      · rename_i frames' hprogress
        split at hprogress <;> cases hprogress
      · exact he
    rw [hback] at hmem
    rw [hheld]
    exact (List.mem_append.mp hmem).elim (List.mem_append_left _)
      fun ht => List.mem_append_right _ (hsub ht)
  exact {
    stream := by
      intro generation
      show carried generation w.queued ++ (carried generation w.dropped ++
        carried generation (drainLoop _ _ frames).backlog) =
          carried generation (w.taken ++ (drainLoop _ _ frames).taken)
      rw [hback, carried_append, carried_append, ← h.stream generation]
      simp only [List.append_assoc]
    ordered := by
      show (w.queued ++ (drainLoop _ _ frames).backlog).Sublist
        (w.taken ++ (drainLoop _ _ frames).taken)
      rw [hback, ← List.append_assoc]
      exact h.ordered.append (.refl _)
    dropped := h.dropped
    taken := by
      intro hrefused
      obtain ⟨hbefore, hnow⟩ := List.append_eq_nil_iff.mp hrefused
      show w.taken ++ (drainLoop _ _ frames).taken = (w.polled ++ frames).filter _
      rw [List.filter_append, h.taken hbefore, drainLoop_taken hnow]
    window := h.window
    own := h.own
    behind := h.behind
    held := fun e he => h.held e (hin e he)
    opening := fun hphase e he => h.opening hphase e (hin e he)
    settled := by
      unfold Settled Outbound.receive
      simp only
      split
      · rename_i hprogress
        split at hprogress <;> cases hprogress
      · exact hs
      · exact .inr hs }

/-- `drive` queues from the head of the backlog. -/
theorem drive [Clock Time] (h : Sound w) (hdrained : w.progress = .drained) (now : Time) :
    Sound (w.drive now) := by
  have hs : w.sender.pendingRemote = [] ∨ ∀ e ∈ w.dropped, e.1 < w.sender.tunnelGeneration := by
    have hs := h.settled
    rwa [Settled, hdrained] at hs
  have hheld : w.held = w.sender.pendingRemote := by
    rw [Outbound.held, hdrained]
  have hlight := @ReliableLink.dueRetransmits_lighter _ _ w.sender.rel _ now
    (some (retransmitLimit w.sender.parent))
  unfold Outbound.drive
  simp only
  generalize w.sender.rel.dueRetransmits now (some (retransmitLimit w.sender.parent)) = due
    at hlight
  generalize hbatch : ((due.2.take reliableBatchMax).map fun frame => (some frame.1, frame.2) :
    List BatchFrame) = batch
  have hsub := @moveLoop_sublist _ now due.1 batch w.sender.pendingRemote
  have hin : ∀ e ∈ (moveLoop now due.1 batch w.sender.pendingRemote).backlog, e ∈ w.held := by
    intro e he
    rw [hheld]
    exact hsub.subset (List.mem_append_right _ he)
  have hwindow := @moveLoop_inflight _ now due.1 batch w.sender.pendingRemote (by
    rw [hlight.maxInflight]
    exact hlight.inflight.trans h.window)
  exact {
    stream := by
      intro generation
      have hcarried := @carried_moveLoop _ now due.1 batch w.sender.pendingRemote generation
      have hstream := h.stream generation
      rw [← hcarried] at hstream
      show carried generation (w.queued ++ _) ++ (carried generation w.dropped ++ _) = _
      rw [← hstream, carried_append, List.append_assoc]
      congr 1
      -- What is queued now is of a connection of which nothing was dropped.
      by_cases hgeneration : generation = w.sender.tunnelGeneration
      · rcases hs with hnil | hs
        · rw [hnil]
          simp [moveLoop, carried]
        · have hnone : carried generation w.dropped = [] := by
            apply carried_eq_nil
            intro e he
            have := hs e he
            omega
          rw [hnone]
          rfl
      · have hnone :
            carried generation (moveLoop now due.1 batch w.sender.pendingRemote).queued = [] := by
          apply carried_eq_nil
          intro e he
          have hmem := hsub.subset (List.mem_append_left _ he)
          rw [h.held e (hheld ▸ hmem)]
          exact Ne.symm hgeneration
        rw [hnone]
        rfl
    ordered := by
      show ((w.queued ++ _) ++ _).Sublist w.taken
      rw [List.append_assoc]
      exact (List.Sublist.append_left hsub _).trans h.ordered
    dropped := h.dropped
    taken := h.taken
    window := hwindow.1.trans_eq hwindow.2.symm
    own := h.own
    behind := h.behind
    held := fun e he => h.held e (hin e he)
    opening := fun hphase e he => h.opening hphase e (hin e he)
    settled := by
      rcases hs with hnil | hs
      · refine .inl ?_
        show (moveLoop _ _ _ _).backlog = []
        rw [hnil]
        rfl
      · exact .inr hs }

theorem link (h : Sound w) {rel : ReliableLink Time (List UInt8)} {ackOwed : Bool}
    {t : Outbound Time} (hrel : ReliableLink.Lighter rel w.sender.rel)
    (ht : w.link rel ackOwed = some t) : Sound t := by
  simp only [Outbound.link, Option.ite_none_right_eq_some, Option.some.injEq] at ht
  obtain ⟨hidle, rfl⟩ := ht
  have hs := h.settled
  rw [Settled, hidle] at hs
  exact {
    stream := h.stream
    ordered := h.ordered
    dropped := h.dropped
    taken := h.taken
    window := (hrel.inflight.trans h.window).trans_eq hrel.maxInflight.symm
    own := h.own
    behind := h.behind
    held := fun _ he => h.held _ (pending_held (by simpa [Outbound.held, hidle] using he))
    opening := fun hphase _ he =>
      h.opening hphase _ (pending_held (by simpa [Outbound.held, hidle] using he))
    settled := by
      rw [Settled, hidle]
      exact hs }

/-- One case per step. -/
theorem step [Clock Time] (h : Sound w) {label : OutboundLabel Time} {t : Outbound Time}
    (hunraced : w.Unraced label) (ht : w.step label = some t) : Sound t := by
  cases label with
  | tunnel event =>
    obtain ⟨tunnel, htunnel, rfl⟩ := Option.map_eq_some_iff.mp ht
    exact h.event htunnel
  | look =>
    simp only [Outbound.step, Option.ite_none_right_eq_some] at ht
    obtain ⟨-, ht⟩ := ht
    split at ht <;> rename_i hconnected
    · cases ht
      exact h.look hconnected
    · cases ht
      exact h.lookClosed (Bool.not_eq_true _ ▸ hconnected)
  | compare =>
    simp only [Outbound.step, Option.ite_none_right_eq_some] at ht
    obtain ⟨hlooked, ht⟩ := ht
    split at ht <;> rename_i hgeneration
    · cases ht
      exact h.compareOther hlooked hgeneration
    · cases ht
      exact h.compareSame hlooked (not_not.mp hgeneration)
  | take =>
    simp only [Outbound.step] at ht
    split at ht
    · rename_i frames e rest hprogress hinbox
      cases ht
      exact h.take hprogress hinbox hunraced
    · cases ht
  | pollRaises =>
    simp only [Outbound.step] at ht
    split at ht
    · rename_i hprogress
      cases ht
      exact h.pollRaises hprogress
    · cases ht
  | receive =>
    simp only [Outbound.step] at ht
    split at ht
    · rename_i frames hprogress
      cases ht
      exact h.receive hprogress
    · cases ht
  | drive now =>
    simp only [Outbound.step, Option.ite_none_right_eq_some, Option.some.injEq] at ht
    obtain ⟨hdrained, rfl⟩ := ht
    exact h.drive hdrained now
  | ack ackId mask now => exact h.link (ReliableLink.onAck_lighter _ _ _) ht
  | data seq => exact h.link (ReliableLink.noteReceived_lighter _) ht
  | rttSample sample =>
    have hrel : ReliableLink.Lighter
        { w.sender.rel with rtt := ReliableLink.addRttSample w.sender.rel.rtt sample }
        w.sender.rel := ⟨Nat.le_refl _, rfl⟩
    exact h.link hrel ht

end Sound

/-- In every run in which no poll takes an envelope of a connection younger than the number its
tick read, the link carries the stream. -/
theorem outbound_stream_carried [Clock Time] {parent : Bool} {knobs : Knobs Time}
    {w : Outbound Time} (h : (outbound parent knobs).Reachable Unraced w) : w.Carries := by
  refine (h.invariant ?_ ?_ : Sound w).toCarries
  · rintro _ ⟨tunnel, hown, rfl⟩
    exact .fresh hown
  · intro s label t hs hunraced ht
    exact hs.step hunraced ht

instance (w : Outbound Time) (label : OutboundLabel Time) : Decidable (w.Unraced label) := by
  cases label <;> unfold Unraced <;> infer_instance

/-- The tunnel has another connection before the tick reads its number: what came in on it is
queued, but for one envelope that waits for the next tick. -/
def renewedRun : List (OutboundLabel Int) :=
  [.tunnel .renew, .tunnel .up, .look, .compare] ++
    List.replicate 10 (.tunnel (.arrive ⟨.rfu, 1, [7]⟩)) ++ List.replicate 10 .take ++
      [.receive, .drive 0, .look, .compare]

theorem outbound_stream_carried_renewed :
    ∃ w, System.play Outbound.step Unraced (.fresh false exampleKnobs ⟨.open, 1, []⟩) renewedRun =
        some w ∧
      w.queued.length = 9 ∧ w.sender.pendingRemote.length = 1 ∧ w.Carries := by
  have hplay : ∃ w, System.play Outbound.step Unraced (.fresh false exampleKnobs ⟨.open, 1, []⟩)
      renewedRun = some w ∧ w.queued.length = 9 ∧ w.sender.pendingRemote.length = 1 :=
    ⟨_, rfl, rfl, rfl⟩
  obtain ⟨w, hw, hqueued, hpending⟩ := hplay
  have hown : Tunnel.Own ⟨.open, 1, []⟩ := ⟨nofun, nofun⟩
  have hreach : (outbound false exampleKnobs).Reachable Unraced w :=
    ⟨_, ⟨_, hown, rfl⟩, System.run_of_play hw⟩
  exact ⟨w, hw, hqueued, hpending, outbound_stream_carried hreach⟩

/-- The tunnel has another connection after the tick read the number of the one before. -/
def racedRun : List (OutboundLabel Int) :=
  [.look, .compare, .tunnel .renew, .tunnel .up] ++
    List.replicate 10 (.tunnel (.arrive ⟨.rfu, 1, [7]⟩)) ++ List.replicate 10 .take ++
      [.receive, .drive 0, .look, .compare]

/-- An envelope that was polled on the connection there is, which is up, is dropped. -/
theorem outbound_drops_what_the_open_connection_brought :
    ∃ w, (outbound false exampleKnobs).Reachable System.Free w ∧ w.refused = [] ∧
      w.tunnel.connected = true ∧ w.sender.tunnelGeneration = w.tunnel.generation ∧
      w.sender.pendingRemote = [] ∧
      (∃ e ∈ w.dropped, e.1 = w.tunnel.generation ∧ e.2.kind = .rfu ∧ e.2.appData = true) ∧
      carried w.tunnel.generation w.queued ≠ carried w.tunnel.generation w.polled := by
  have hplay : ∃ w, System.play Outbound.step System.Free
      (.fresh false exampleKnobs ⟨.open, 1, []⟩) racedRun = some w ∧ w.refused = [] ∧
        w.tunnel = ⟨.open, 2, []⟩ ∧ w.sender.tunnelGeneration = 2 ∧ w.sender.pendingRemote = [] ∧
        w.dropped = [(2, ⟨.rfu, 1, [7]⟩)] ∧
        w.queued = List.replicate 9 (2, ⟨.rfu, 1, [7]⟩) ∧
        w.polled = List.replicate 10 (2, ⟨.rfu, 1, [7]⟩) :=
    ⟨_, rfl, rfl, rfl, rfl, rfl, rfl, rfl, rfl⟩
  obtain ⟨w, hw, hrefused, htunnel, hgeneration, hpending, hdropped, hqueued, hpolled⟩ := hplay
  have hown : Tunnel.Own ⟨.open, 1, []⟩ := ⟨nofun, nofun⟩
  refine ⟨w, ⟨_, ⟨_, hown, rfl⟩, System.run_of_play hw⟩, hrefused, ?_, ?_, hpending, ?_, ?_⟩
  · rw [htunnel]
    rfl
  · rw [hgeneration, htunnel]
  · refine ⟨(2, ⟨.rfu, 1, [7]⟩), ?_, ?_, rfl, rfl⟩
    · rw [hdropped]
      exact List.mem_singleton.mpr rfl
    · rw [htunnel]
  · rw [htunnel, hqueued, hpolled]
    decide

end Outbound

end SwitchTrade.Reliable

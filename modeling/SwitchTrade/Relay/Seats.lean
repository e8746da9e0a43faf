import SwitchTrade.Relay.Expiry
import SwitchTrade.Relay.Barrier
import SwitchTrade.Relay.Stream

/-!
# Seats, generations and expiry

The three parts of the bookkeeping, each with the condition it needs: a seat is occupied only
while its handler runs (`slotsRunning_step`), an empty seat that was taken before is awaited
(`awaited_step`), and expiry fails no attempt whose seat was taken again (`Counted`). A
generation counts how often its seat was taken, so a task that finds its own generation knows
that nobody came.
-/

namespace SwitchTrade.Relay

open Tunnel

variable {lib : Library} {attemptId : String} {w w' : World}

/-! ## A seat is occupied while its handler runs -/

/-- The connection holds no seat. -/
def HoldsNone (sessions : List V2Session) (c : ConnId) : Prop :=
  ∀ (i : SessionId) (s : V2Session) (seat : SourceSeat), sessions[i]? = some s →
    s.peers.get seat ≠ some c

namespace SlotsRunning

variable {sessions : List V2Session} {conns : List Conn} {i : SessionId} {s s' : V2Session}
  {c : ConnId} {conn : Conn}

/-- A session in which seats are given back. -/
theorem set (h : SlotsRunning sessions conns) (hs : sessions[i]? = some s)
    (hpeers : ∀ seat d, s'.peers.get seat = some d → s.peers.get seat = some d) :
    SlotsRunning (sessions.set i s') conns := by
  intro j x hx seat d hd
  by_cases hij : i = j
  · subst hij
    rw [List.getElem?_set_self (List.getElem?_eq_some_iff.mp hs).1] at hx
    cases hx
    exact h i s hs seat d (hpeers seat d hd)
  · rw [List.getElem?_set_ne hij] at hx
    exact h j x hx seat d hd

/-- A connection that goes on, or that holds no seat. -/
theorem modify (h : SlotsRunning sessions conns) {f : Conn → Conn}
    (hf : ∀ x, conns[c]? = some x → (f x).seat = x.seat ∧ (f x).session = x.session)
    (hrun : (∀ x, conns[c]? = some x → x.handler.running = true → (f x).handler.running = true) ∨
      HoldsNone sessions c) :
    SlotsRunning sessions (conns.modify c f) := by
  intro i s hs seat d hd
  obtain ⟨x, hx, rfl, rfl, hrunning⟩ := h i s hs seat d hd
  by_cases hcd : c = d
  · subst hcd
    obtain ⟨hseat, hsession⟩ := hf x hx
    rcases hrun with hrun | hnone
    · exact ⟨f x, by simp [hx], hseat, hsession, hrun x hx hrunning⟩
    · exact absurd hd (hnone _ s _ hs)
  · exact ⟨x, by rw [List.getElem?_modify_ne _ _ hcd, hx], rfl, rfl, hrunning⟩

/-- A connection to which a frame was sent. -/
theorem told (h : SlotsRunning sessions conns) {peer peer' : Conn} (hp : conns[c]? = some peer)
    (hsame : peer'.seat = peer.seat ∧ peer'.session = peer.session ∧
      peer'.handler = peer.handler) :
    SlotsRunning sessions (conns.modify c fun _ => peer') := by
  have heq : ∀ x, conns[c]? = some x → x = peer := by
    intro x hx
    exact Option.some.inj (hx.symm.trans hp)
  apply h.modify
  · intro x hx
    rw [heq x hx]
    exact ⟨hsame.1, hsame.2.1⟩
  · left
    intro x hx hrun
    rw [hsame.2.2, ← heq x hx]
    exact hrun

/-- A connection that does not hold its own seat holds none. -/
theorem not_holder (h : SlotsRunning sessions conns) (hc : conns[c]? = some conn)
    (hfree : ∀ s, sessions[conn.session]? = some s → s.peers.get conn.seat ≠ some c) :
    HoldsNone sessions c := by
  intro i s seat hs hd
  obtain ⟨x, hx, rfl, rfl, -⟩ := h i s hs seat c hd
  rw [hc, Option.some.injEq] at hx
  subst hx
  exact hfree s hs hd

/-- A handler that is not running holds no seat. -/
theorem not_holder_of_idle (h : SlotsRunning sessions conns) (hc : conns[c]? = some conn)
    (hidle : conn.handler.running = false) :
    HoldsNone sessions c := by
  intro i s seat hs hd
  obtain ⟨x, hx, -, -, hrunning⟩ := h i s hs seat c hd
  rw [hc, Option.some.injEq] at hx
  rw [hx, hrunning] at hidle
  cases hidle

/-- The connection takes its seat and runs on. -/
theorem take (h : SlotsRunning sessions conns) (hc : conns[c]? = some conn)
    (hs : sessions[conn.session]? = some s) (hidle : conn.handler.running = false)
    {f : Conn → Conn} (hf : (f conn).seat = conn.seat ∧ (f conn).session = conn.session ∧
      (f conn).handler.running = true) :
    SlotsRunning (sessions.set conn.session (s.take conn.seat c)) (conns.modify c f) := by
  have hnone := h.not_holder_of_idle hc hidle
  intro j x hx seat d hd
  have hold : (∃ y, sessions[j]? = some y ∧ y.peers.get seat = some d) ∨
      j = conn.session ∧ seat = conn.seat ∧ d = c := by
    by_cases hij : conn.session = j
    · subst hij
      rw [List.getElem?_set_self (List.getElem?_eq_some_iff.mp hs).1] at hx
      cases hx
      rcases SourceSeat.eq_or_peer conn.seat seat with rfl | rfl
      · rw [V2Session.take_peers, PerSeat.get_set, Option.some.injEq] at hd
        exact .inr ⟨rfl, rfl, hd.symm⟩
      · rw [V2Session.take_peers, PerSeat.get_set_peer] at hd
        exact .inl ⟨s, hs, hd⟩
    · rw [List.getElem?_set_ne hij] at hx
      exact .inl ⟨x, hx, hd⟩
  rcases hold with ⟨y, hy, hd⟩ | ⟨rfl, rfl, rfl⟩
  · obtain ⟨z, hz, rfl, rfl, hrunning⟩ := h j y hy seat d hd
    have hcd : c ≠ d := by
      rintro rfl
      exact hnone _ y _ hy hd
    exact ⟨z, by rw [List.getElem?_modify_ne _ _ hcd, hz], rfl, rfl, hrunning⟩
  · exact ⟨f conn, by simp [hc], hf⟩

theorem append_conn (h : SlotsRunning sessions conns) (x : Conn) :
    SlotsRunning sessions (conns ++ [x]) := by
  intro i s hs seat c hc
  obtain ⟨conn, hconn, rest⟩ := h i s hs seat c hc
  have hlt := (List.getElem?_eq_some_iff.mp hconn).1
  exact ⟨conn, by rw [List.getElem?_append_left hlt, hconn], rest⟩

theorem append_session (h : SlotsRunning sessions conns) (attemptId : String) :
    SlotsRunning (sessions ++ [.new attemptId]) conns := by
  intro i s hs seat c hc
  by_cases hlt : i < sessions.length
  · rw [List.getElem?_append_left hlt] at hs
    exact h i s hs seat c hc
  · rw [List.getElem?_append_right (Nat.le_of_not_lt hlt)] at hs
    have hnew : s = .new attemptId := by
      cases hk : i - sessions.length with
      | zero => simpa [hk] using hs.symm
      | succ k => simp [hk] at hs
    subst hnew
    have hnone : (V2Session.new attemptId).peers.get seat = none := PerSeat.get_both none seat
    rw [hnone] at hc
    cases hc

end SlotsRunning

/-- A send leaves the handler where it is. -/
theorem send_place (peer : Conn) (e : Envelope) (sent : Sent) :
    (peer.send e sent).1.seat = peer.seat ∧ (peer.send e sent).1.session = peer.session ∧
      (peer.send e sent).1.handler = peer.handler := by
  obtain ⟨broken, delivered, heq, -⟩ := send_same peer e sent
  rw [heq]
  exact ⟨rfl, rfl, rfl⟩

theorem same_peers {s s' : V2Session} (h : s'.peers = s.peers) :
    ∀ seat d, s'.peers.get seat = some d → s.peers.get seat = some d := by
  intro seat d hd
  rw [← h]
  exact hd

/-- A seat that is still held after others were given back. -/
theorem free_peers_le (s : V2Session) (seat : SourceSeat) :
    ∀ seat' d, (s.free seat).peers.get seat' = some d → s.peers.get seat' = some d := by
  intro seat' d hd
  rcases SourceSeat.eq_or_peer seat seat' with rfl | rfl
  · simp at hd
  · simpa using hd

theorem free_both_le (s : V2Session) (seat : SourceSeat) :
    ∀ seat' d, ((s.free seat).free seat.peer).peers.get seat' = some d →
      s.peers.get seat' = some d := by
  intro seat' d hd
  exact free_peers_le s seat seat' d (free_peers_le (s.free seat) seat.peer seat' d hd)

theorem SlotsRunning.evict (h : SlotsRunning w.sessions w.conns) (i : SessionId)
    (seat : SourceSeat) : SlotsRunning (w.evict i seat).sessions (w.evict i seat).conns := by
  unfold World.evict
  split
  · exact h
  · rename_i s hs
    split
    · exact h
    · rename_i p hp
      have hfree := h.set hs (free_peers_le s seat)
      exact hfree.modify (fun x _ => ⟨rfl, rfl⟩) (.inl fun x _ hrun => hrun)

/-- A handler gives its own seat back and ends. -/
theorem SlotsRunning.leave (h : SlotsRunning w.sessions w.conns) {c : ConnId} {conn : Conn}
    {s s' : V2Session} (hc : w.conns[c]? = some conn) (hs : w.sessions[conn.session]? = some s)
    (hpeers : ∀ seat d, s'.peers.get seat = some d → s.peers.get seat = some d)
    (hfree : s'.peers.get conn.seat ≠ some c) :
    SlotsRunning (w.sessions.set conn.session s')
      (w.conns.modify c fun x => { x with handler := .ended }) := by
  have hset := h.set hs hpeers
  refine hset.modify (fun x _ => ⟨rfl, rfl⟩) (.inr ?_)
  apply hset.not_holder hc
  intro t ht
  rw [List.getElem?_set_self (List.getElem?_eq_some_iff.mp hs).1, Option.some.injEq] at ht
  rw [← ht]
  exact hfree

/-- A handler that does not hold its seat ends. -/
theorem SlotsRunning.leaveLate (h : SlotsRunning w.sessions w.conns) {c : ConnId} {conn : Conn}
    {s : V2Session} (hc : w.conns[c]? = some conn) (hs : w.sessions[conn.session]? = some s)
    (hfree : s.peers.get conn.seat ≠ some c) :
    SlotsRunning w.sessions (w.conns.modify c fun x => { x with handler := .ended }) := by
  refine h.modify (fun x _ => ⟨rfl, rfl⟩) (.inr ?_)
  apply h.not_holder hc
  intro t ht
  rw [hs, Option.some.injEq] at ht
  rw [← ht]
  exact hfree

theorem slotsRunning_step {l : Label} (h : SlotsRunning w.sessions w.conns)
    (hguard : ReplaysCaught w l) (hstep : w.step lib attemptId l = some w') :
    SlotsRunning w'.sessions w'.conns := by
  have hkeep : ∀ {c : ConnId} {f : Conn → Conn}, (∀ x, (f x).seat = x.seat ∧
      (f x).session = x.session ∧ (f x).handler.running = true) →
      SlotsRunning w.sessions (w.conns.modify c f) := fun hf =>
    h.modify (fun x _ => ⟨(hf x).1, (hf x).2.1⟩) (.inl fun x _ _ => (hf x).2.2)
  cases step_section hstep with
  | arriveFound seat i found => exact h.append_conn _
  | arriveNew seat hnone => exact (h.append_session attemptId).append_conn _
  | taken replay hc hs arriving busy =>
    exact h.modify (fun x _ => ⟨rfl, rfl⟩)
      (.inr (h.not_holder_of_idle hc (by rw [arriving]; rfl)))
  | joined hc hs arriving free =>
    exact h.take hc hs (by rw [arriving]; rfl) ⟨rfl, rfl, rfl⟩
  | replayFailed count broken hc hs arriving free =>
    exact h.take hc hs (by rw [arriving]; rfl) ⟨rfl, rfl, rfl⟩
  | replayDied count hc hs arriving free =>
    rcases hguard with hnone | hearly
    · simp [World.joins, hc, hs, arriving, free] at hnone
    · cases hearly
  | vacated hc hs failed holder =>
    exact h.leave hc hs (free_peers_le _ _) (by simp)
  | vacatedLate hc hs failed evicted => exact h.leaveLate hc hs evicted
  | received hc receiving live identity => exact hkeep fun x => ⟨rfl, rfl, rfl⟩
  | rejected frame code hc receiving => exact hkeep fun x => ⟨rfl, rfl, rfl⟩
  | resetSeen hc receiving reset => exact hkeep fun x => ⟨rfl, rfl, rfl⟩
  | dropped hc receiving => exact hkeep fun x => ⟨rfl, rfl, rfl⟩
  | raised admitted sent hc hs holding raises =>
    have hset := h.set hs (same_peers (V2Session.handle_error_beside raises).peers)
    exact hset.modify (fun x _ => ⟨rfl, rfl⟩) (.inl fun x _ _ => rfl)
  | kept admitted sent hc hs holding passes alone =>
    have hset := h.set hs (same_peers (V2Session.handle_beside passes).peers)
    exact hset.modify (fun x _ => ⟨rfl, rfl⟩) (.inl fun x _ _ => rfl)
  | @forwarded c p conn peer s s' e admitted sent hc hs holding passes present hp =>
    have hset := h.set hs (same_peers (V2Session.handle_beside passes).peers)
    have hsent := hset.told hp (send_place peer e sent)
    exact hsent.modify (fun x _ => ⟨rfl, rfl⟩) (.inl fun x _ _ => by split <;> rfl)
  | leftLate sent hc hs leaving evicted => exact h.leaveLate hc hs evicted
  | leftFatalLate sent hc hs leaving evicted => exact h.leaveLate hc hs evicted
  | leftFatal sent hc hs leaving holder =>
    exact h.leave hc hs (free_peers_le _ _) (by simp)
  | leftUnregistered sent hc hs leaving holder gone =>
    exact h.leave hc hs (free_peers_le _ _) (by simp)
  | leftAlone sent hc hs leaving holder here alone =>
    exact h.leave hc hs (free_peers_le _ _) (by simp)
  | @leftSilent c p conn peer s sent hc hs leaving holder here present hp silent =>
    have hleft : SlotsRunning
        (w.sessions.set conn.session ((s.free conn.seat).forget.free conn.seat.peer))
        (w.conns.modify c fun x => { x with handler := .ended }) :=
      h.leave hc hs (free_both_le s conn.seat) (by simp)
    exact hleft.modify (fun x _ => ⟨rfl, rfl⟩) (.inl fun x _ hrun => hrun)
  | @leftRaised c p conn peer s epoch hc hs leaving holder here present hp spoke =>
    have hleft : SlotsRunning
        (w.sessions.set conn.session ((s.free conn.seat).forget.closed conn.seat))
        (w.conns.modify c fun x => { x with handler := .ended }) :=
      h.leave hc hs (free_peers_le s conn.seat) (by simp)
    exact hleft.told hp (send_place peer _ .raised)
  | @leftClosing c p conn peer s epoch sent hc hs leaving holder here present hp spoke =>
    have hleft : SlotsRunning
        (w.sessions.set conn.session
          (((s.free conn.seat).forget.closed conn.seat).free conn.seat.peer))
        (w.conns.modify c fun x => { x with handler := .ended }) :=
      h.leave hc hs (free_both_le s conn.seat) (by simp)
    exact hleft.told hp (send_place peer _ sent)
  | unregistered i made => exact h
  | @disconnected i s pending hs =>
    let v : World := { w with disconnecting := w.disconnecting.erase i }
    have hv : SlotsRunning v.sessions v.conns := h
    exact ((hv.evict i .memberA).evict i .memberB).set hs fun seat d hd => hd
  | @disconnectedNone i pending hs =>
    let v : World := { w with disconnecting := w.disconnecting.erase i }
    have hv : SlotsRunning v.sessions v.conns := h
    exact (hv.evict i .memberA).evict i .memberB

/-! ## An empty seat is awaited -/

namespace V2Session

variable {s s' : V2Session} {seat : SourceSeat} {admitted : Admitted} {e : Envelope}

theorem acceptFrame_generations (h : s.acceptFrame seat e = .ok s') :
    s'.generations = s.generations := by
  obtain ⟨gate, -, ⟨-, rfl⟩ | ⟨-, rfl⟩⟩ := acceptFrame_cases h <;> rfl

theorem checkFrame_generations (h : s.checkFrame lib attemptId seat admitted e = .ok s') :
    s'.generations = s.generations := by
  unfold checkFrame at h
  split at h
  · unfold checkAdvertisement at h
    split at h <;> cases h
    rfl
  · unfold checkSideReady at h
    split at h
    · cases h
    split at h
    · cases h
    split at h
    · cases h
    split at h <;> cases h
    rfl
  · split at h <;> cases h
    rfl
  · cases h
    rfl

theorem retainFrame_generations (h : s.retainFrame seat e = .ok s') :
    s'.generations = s.generations := by
  unfold retainFrame at h
  split at h
  · split at h <;> cases h
    rfl
  · cases h
    rfl

theorem handle_generations (h : s.handle lib attemptId seat admitted e = .ok s') :
    s'.generations = s.generations := by
  obtain ⟨s₁, s₂, h₁, h₂, h₃⟩ := handle_ok h
  rw [retainFrame_generations h₃, checkFrame_generations h₂, acceptFrame_generations h₁]

theorem handle_error_generations {error : FrameError}
    (h : s.handle lib attemptId seat admitted e = .error (error, s')) :
    s'.generations = s.generations := by
  rcases handle_error h with rfl | ⟨s₁, h₁, rfl | ⟨-, h₂⟩⟩
  · rfl
  · exact acceptFrame_generations h₁
  · rw [checkFrame_generations h₂, acceptFrame_generations h₁]

end V2Session

theorem evict_other {i j : SessionId} (h : i ≠ j) (seat : SourceSeat) :
    (w.evict i seat).sessions[j]? = w.sessions[j]? := by
  unfold World.evict
  split
  · rfl
  · split
    · rfl
    · exact List.getElem?_set_ne h

/-- The seat was empty in the same generation before. -/
def EmptyBefore (w : World) (i : SessionId) (seat : SourceSeat) (s' : V2Session) : Prop :=
  ∃ s, w.sessions[i]? = some s ∧ s.generations.get seat = s'.generations.get seat ∧
    s.peers.get seat = none

/-- A step that changes one session. -/
theorem emptyBefore_of_set {i j : SessionId} {s s₁ s' : V2Session} {seat : SourceSeat} {P : Prop}
    (hs : w.sessions[j]? = some s) (hs' : (w.sessions.set j s₁)[i]? = some s')
    (absent : s'.peers.get seat = none)
    (hchange : i = j → s' = s₁ → s₁.peers.get seat = none →
      (s.generations.get seat = s₁.generations.get seat ∧ s.peers.get seat = none) ∨ P) :
    EmptyBefore w i seat s' ∨ P := by
  by_cases hij : j = i
  · subst hij
    rw [List.getElem?_set_self (List.getElem?_eq_some_iff.mp hs).1] at hs'
    cases hs'
    rcases hchange rfl rfl absent with ⟨hgenerations, hpeers⟩ | hP
    · exact .inl ⟨s, hs, hgenerations, hpeers⟩
    · exact .inr hP
  · rw [List.getElem?_set_ne hij] at hs'
    exact .inl ⟨s', hs', rfl, absent⟩

theorem take_empty (s : V2Session) {seat seat' : SourceSeat} {c : ConnId}
    (h : (s.take seat c).peers.get seat' = none) :
    s.generations.get seat' = (s.take seat c).generations.get seat' ∧
      s.peers.get seat' = none := by
  rcases SourceSeat.eq_or_peer seat seat' with rfl | rfl
  · simp at h
  · exact ⟨(PerSeat.get_set_peer _ _ _).symm, by simpa using h⟩

/-- A cleanup that is not cut short makes a task for its seat, and for the other one. -/
theorem mem_scheduled {c : ConnId} {conn : Conn} {s : V2Session} {sent : Sent}
    (hc : w.conns[c]? = some conn) (hs : w.sessions[conn.session]? = some s)
    (leaving : conn.handler = .leaving none) (holder : s.peers.get conn.seat = some c)
    (here : w.registered = some conn.session) (caught : w.closeEscapes s conn.seat sent = false)
    {seat : SourceSeat} (hseat : seat = conn.seat ∨ (s.peers.get conn.seat.peer).isSome) :
    (conn.session, seat, s.generations.get seat) ∈ w.scheduled (.leave c sent) := by
  have heq : w.scheduled (.leave c sent) =
      if (s.peers.get conn.seat.peer).isSome then
        [(conn.session, conn.seat, s.generations.get conn.seat),
          (conn.session, conn.seat.peer, s.generations.get conn.seat.peer)]
      else [(conn.session, conn.seat, s.generations.get conn.seat)] := by
    simp [World.scheduled, World.expireTargets, hc, hs, leaving, holder, here, caught]
  rw [heq]
  rcases SourceSeat.eq_or_peer conn.seat seat with rfl | rfl
  · split <;> simp
  · have hpresent : (s.peers.get conn.seat.peer).isSome = true := by
      rcases hseat with hseat | hpresent
      · exact absurd hseat (SourceSeat.peer_ne _)
      · exact hpresent
    rw [if_pos hpresent]
    simp

/-- An empty seat of the registered session was empty before in its generation, or the step
makes a task for it. -/
theorem absent_step {l : Label} (hdetached : Detached w) (hguard : Rescheduled w l)
    (hstep : w.step lib attemptId l = some w') {i : SessionId} {s' : V2Session}
    {seat : SourceSeat} (here' : w'.registered = some i) (hs' : w'.sessions[i]? = some s')
    (been : 0 < s'.generations.get seat) (absent : s'.peers.get seat = none) :
    (w.registered = some i ∧ EmptyBefore w i seat s') ∨
      (i, seat, s'.generations.get seat) ∈ w.scheduled l := by
  have hsame : w.registered = some i → w.sessions[i]? = some s' →
      (w.registered = some i ∧ EmptyBefore w i seat s') ∨
        (i, seat, s'.generations.get seat) ∈ w.scheduled l := fun hr hs =>
    .inl ⟨hr, s', hs, rfl, absent⟩
  have hset : ∀ {j : SessionId} {s s₁ : V2Session}, w.registered = some i →
      w.sessions[j]? = some s → (w.sessions.set j s₁)[i]? = some s' →
      (i = j → s' = s₁ → s₁.peers.get seat = none →
        (s.generations.get seat = s₁.generations.get seat ∧ s.peers.get seat = none) ∨
          (i, seat, s'.generations.get seat) ∈ w.scheduled l) →
      (w.registered = some i ∧ EmptyBefore w i seat s') ∨
        (i, seat, s'.generations.get seat) ∈ w.scheduled l := by
    intro j s s₁ hr hs hs₁ hchange
    rcases emptyBefore_of_set hs hs₁ absent hchange with hbefore | hscheduled
    · exact .inl ⟨hr, hbefore⟩
    · exact .inr hscheduled
  cases step_section hstep with
  | arriveFound seat i found => exact hsame here' hs'
  | arriveNew seat hnone =>
    exfalso
    cases here'
    rw [List.getElem?_append_right (Nat.le_refl _), Nat.sub_self] at hs'
    cases hs'
    rw [show (V2Session.new attemptId).generations = .both 0 from rfl, PerSeat.get_both] at been
    omega
  | joined hc hs arriving free =>
    exact hset here' hs hs' fun _ _ h => .inl (take_empty _ h)
  | replayFailed count broken hc hs arriving free =>
    exact hset here' hs hs' fun _ _ h => .inl (take_empty _ h)
  | replayDied count hc hs arriving free =>
    exact hset here' hs hs' fun _ _ h => .inl (take_empty _ h)
  | vacated hc hs failed holder =>
    refine hset here' hs hs' fun hij _ _ => ?_
    subst hij
    exact absurd here' (hguard _ hc _ hs holder)
  | raised admitted sent hc hs holding raises =>
    refine hset here' hs hs' fun _ _ h => .inl ?_
    rw [(V2Session.handle_error_beside raises).peers] at h
    exact ⟨by rw [V2Session.handle_error_generations raises], h⟩
  | kept admitted sent hc hs holding passes alone =>
    refine hset here' hs hs' fun _ _ h => .inl ?_
    rw [(V2Session.handle_beside passes).peers] at h
    exact ⟨by rw [V2Session.handle_generations passes], h⟩
  | forwarded admitted sent hc hs holding passes present hp =>
    refine hset here' hs hs' fun _ _ h => .inl ?_
    rw [(V2Session.handle_beside passes).peers] at h
    exact ⟨by rw [V2Session.handle_generations passes], h⟩
  | leftFatalLate sent hc hs leaving evicted => cases here'
  | leftFatal sent hc hs leaving holder => cases here'
  | leftUnregistered sent hc hs leaving holder gone =>
    refine hset here' hs hs' fun hij _ _ => ?_
    subst hij
    exact absurd here' gone
  | @leftAlone c conn s sent hc hs leaving holder here alone =>
    have hcaught : w.closeEscapes s conn.seat sent = false := by
      unfold World.closeEscapes
      rw [alone]
    refine hset here' hs hs' fun hij heq h => ?_
    subst hij heq
    rcases SourceSeat.eq_or_peer conn.seat seat with rfl | rfl
    · exact .inr (mem_scheduled hc hs leaving holder here hcaught (.inl rfl))
    · exact .inl ⟨rfl, alone⟩
  | @leftSilent c p conn peer s sent hc hs leaving holder here present hp silent =>
    have hcaught : w.closeEscapes s conn.seat sent = false := by
      unfold World.closeEscapes
      simp only [present, silent, Option.isSome_none, Bool.and_false, Bool.false_and]
      split <;> rfl
    refine hset here' hs hs' fun hij heq h => .inr ?_
    subst hij heq
    exact mem_scheduled hc hs leaving holder here hcaught (.inr (by rw [present]; rfl))
  | leftRaised hc hs leaving holder here present hp spoke =>
    have hcaught := hguard _ hc _ hs holder here
    refine hset here' hs hs' fun hij heq h => .inr ?_
    subst hij heq
    exact mem_scheduled hc hs leaving holder here hcaught (.inr (by rw [present]; rfl))
  | leftClosing sent hc hs leaving holder here present hp spoke =>
    have hcaught := hguard _ hc _ hs holder here
    refine hset here' hs hs' fun hij heq h => .inr ?_
    subst hij heq
    exact mem_scheduled hc hs leaving holder here hcaught (.inr (by rw [present]; rfl))
  | unregistered i made => cases here'
  | @disconnected j s pending hs =>
    have hne : j ≠ i := by
      rintro rfl
      exact (hdetached j pending).1 (by simpa using here')
    rw [World.setSession_sessions, List.getElem?_set_ne hne, evict_other hne,
      evict_other hne] at hs'
    exact hsame (by simpa using here') hs'
  | @disconnectedNone j pending hs =>
    have hne : j ≠ i := by
      rintro rfl
      exact (hdetached j pending).1 (by simpa using here')
    rw [evict_other hne, evict_other hne] at hs'
    exact hsame (by simpa using here') hs'
  | _ => exact hsame here' hs'

theorem awaited_step {window : Nat} {t t' : Timed} {l : TimedLabel} (h : t.Awaited)
    (hdetached : Detached t.world) (hguard : OnRelay Rescheduled t l)
    (hstep : t.step lib attemptId window l = some t') : t'.Awaited := by
  cases l with
  | relay l =>
    obtain ⟨w', hw, rfl⟩ := Option.map_eq_some_iff.mp hstep
    intro i s' here hs' seat been absent
    rcases absent_step hdetached hguard hw here hs' been absent with
      ⟨hr, s, hs, hgenerations, hempty⟩ | hscheduled
    · rw [← hgenerations] at been
      obtain ⟨task, htask, hsession, hseat, hgeneration⟩ := h i s hr hs seat been hempty
      exact ⟨task, List.mem_append_left _ htask, hsession, hseat,
        hgeneration.trans hgenerations⟩
    · exact ⟨_, List.mem_append_right _ (List.mem_map_of_mem hscheduled), rfl, rfl, rfl⟩
  | wait seconds =>
    cases hstep
    exact h
  | expire k =>
    obtain ⟨task, htask, hstep⟩ := Option.bind_eq_some_iff.mp hstep
    split at hstep
    · cases hstep
    split at hstep
    · cases hstep
      intro i s here
      cases here
    · rename_i hexpired
      cases hstep
      intro i s here hs seat been absent
      obtain ⟨waiting, hmem, rfl, rfl, hgeneration⟩ := h i s here hs seat been absent
      refine ⟨waiting, ?_, rfl, rfl, hgeneration⟩
      obtain ⟨j, hj⟩ := List.mem_iff_getElem?.mp hmem
      have hjk : j ≠ k := by
        rintro rfl
        rw [htask, Option.some.injEq] at hj
        subst hj
        apply hexpired
        change t.world.registered = _ at here
        change t.world.sessions[_]? = _ at hs
        unfold Timed.expired
        rw [hs]
        simp [absent, hgeneration, here]
      exact List.mem_eraseIdx_iff_getElem?.mpr ⟨j, hjk, hj⟩

/-! ## A generation counts the connections -/

/-- The sessions are as they were, but for what is not a generation. -/
def SameGenerations (sessions sessions' : List V2Session) : Prop :=
  ∀ (i : SessionId) s', sessions'[i]? = some s' →
    ∃ s, sessions[i]? = some s ∧ s'.generations = s.generations

namespace SameGenerations

variable {sessions sessions' sessions'' : List V2Session} {i : SessionId} {s s' : V2Session}

theorem refl (sessions : List V2Session) : SameGenerations sessions sessions :=
  fun _ s' hs' => ⟨s', hs', rfl⟩

theorem trans (h : SameGenerations sessions sessions')
    (h' : SameGenerations sessions' sessions'') : SameGenerations sessions sessions'' := by
  intro i s'' hs''
  obtain ⟨s', hs', heq'⟩ := h' i s'' hs''
  obtain ⟨s, hs, heq⟩ := h i s' hs'
  exact ⟨s, hs, heq'.trans heq⟩

theorem set (hs : sessions[i]? = some s) (heq : s'.generations = s.generations) :
    SameGenerations sessions (sessions.set i s') := by
  intro j t ht
  by_cases hij : i = j
  · subst hij
    rw [List.getElem?_set_self (List.getElem?_eq_some_iff.mp hs).1] at ht
    cases ht
    exact ⟨s, hs, heq⟩
  · rw [List.getElem?_set_ne hij] at ht
    exact ⟨t, ht, rfl⟩

theorem evict (w : World) (i : SessionId) (seat : SourceSeat) :
    SameGenerations w.sessions (w.evict i seat).sessions := by
  unfold World.evict
  split
  · exact refl _
  · rename_i s hs
    split
    · exact refl _
    · exact set hs rfl

end SameGenerations

/-- What a step does to the generations: they count the seats it takes. -/
inductive Counts (w w' : World) (joins : List (SessionId × SourceSeat)) : Prop
  | same (h : SameGenerations w.sessions w'.sessions)
      (hlength : w'.sessions.length = w.sessions.length) (hjoins : joins = [])
  | took {c : ConnId} {conn : Conn} {s : V2Session} (hs : w.sessions[conn.session]? = some s)
      (h : w'.sessions = w.sessions.set conn.session (s.take conn.seat c))
      (hjoins : joins = [(conn.session, conn.seat)])
  | made (h : w'.sessions = w.sessions ++ [.new attemptId]) (hjoins : joins = [])

theorem counts_step {l : Label} (hstep : w.step lib attemptId l = some w') :
    @Counts attemptId w w' (w.joins l) := by
  cases step_section hstep with
  | arriveFound seat i found => exact .same (.refl _) rfl rfl
  | arriveNew seat hnone => exact .made rfl rfl
  | taken replay hc hs arriving busy =>
    refine .same (.refl _) rfl ?_
    have hne : ¬ _ = none := Option.isSome_iff_ne_none.mp busy
    simp [World.joins, hc, hs, hne]
  | joined hc hs arriving free =>
    exact .took hs rfl (by simp [World.joins, hc, hs, arriving, free])
  | replayFailed count broken hc hs arriving free =>
    exact .took hs rfl (by simp [World.joins, hc, hs, arriving, free])
  | replayDied count hc hs arriving free =>
    exact .took hs rfl (by simp [World.joins, hc, hs, arriving, free])
  | vacated hc hs failed holder => exact .same (.set hs rfl) (by simp) rfl
  | raised admitted sent hc hs holding raises =>
    exact .same (.set hs (V2Session.handle_error_generations raises)) (by simp) rfl
  | kept admitted sent hc hs holding passes alone =>
    exact .same (.set hs (V2Session.handle_generations passes)) (by simp) rfl
  | forwarded admitted sent hc hs holding passes present hp =>
    exact .same (.set hs (V2Session.handle_generations passes)) (by simp) rfl
  | leftFatal sent hc hs leaving holder => exact .same (.set hs rfl) (by simp) rfl
  | leftUnregistered sent hc hs leaving holder gone => exact .same (.set hs rfl) (by simp) rfl
  | leftAlone sent hc hs leaving holder here alone => exact .same (.set hs rfl) (by simp) rfl
  | leftSilent sent hc hs leaving holder here present hp silent =>
    exact .same (.set hs rfl) (by simp) rfl
  | leftRaised hc hs leaving holder here present hp spoke => exact .same (.set hs rfl) (by simp) rfl
  | leftClosing sent hc hs leaving holder here present hp spoke =>
    exact .same (.set hs rfl) (by simp) rfl
  | @disconnected i s pending hs =>
    let v : World := { w with disconnecting := w.disconnecting.erase i }
    exact .same (((SameGenerations.evict v i .memberA).trans
      (.evict _ i .memberB)).trans (.set hs rfl)) (by simp) rfl
  | @disconnectedNone i pending hs =>
    let v : World := { w with disconnecting := w.disconnecting.erase i }
    exact .same ((SameGenerations.evict v i .memberA).trans (.evict _ i .memberB)) (by simp) rfl
  | _ => exact .same (.refl _) rfl rfl

/-- A generation is the number of connections that took the seat, and a task was made with
the number of its time. -/
structure Timed.Counted (window : Nat) (t : Timed) : Prop where
  generations : ∀ (i : SessionId) s, t.world.sessions[i]? = some s → ∀ seat,
    s.generations.get seat = t.joined.count (i, seat)
  joined_lt : ∀ x ∈ t.joined, x.1 < t.world.sessions.length
  tasks : ∀ task ∈ t.tasks, task.joins ≤ t.joined.length ∧
    task.generation = (t.joined.take task.joins).count (task.session, task.seat)
  failures : ∀ failure ∈ t.failures, failure.joins ≤ t.joined.length
  late : t.FailedLate window

namespace Timed.Counted

variable {window : Nat} {t t' : Timed}

theorem empty : Timed.empty.Counted window where
  generations := fun i s hs => by simp [Timed.empty, World.empty] at hs
  joined_lt := fun x hx => by cases hx
  tasks := fun task htask => by cases htask
  failures := fun failure hfailure => by cases hfailure
  late := fun failure hfailure => by cases hfailure

/-- The generation of a task is that of its seat. -/
theorem scheduled_generation {w : World} {l : Label} {i : SessionId} {seat : SourceSeat}
    {generation : Nat} (h : (i, seat, generation) ∈ w.scheduled l) :
    ∃ s, w.sessions[i]? = some s ∧ s.generations.get seat = generation := by
  cases l with
  | leave c sent =>
    unfold World.scheduled World.expireTargets at h
    dsimp only at h
    split at h
    · cases h
    split at h
    · cases h
    rename_i s hs
    split at h
    · split at h
      · simp only [List.mem_cons, Prod.mk.injEq, List.not_mem_nil, or_false] at h
        rcases h with ⟨rfl, rfl, rfl⟩ | ⟨rfl, rfl, rfl⟩
        · exact ⟨s, hs, rfl⟩
        · exact ⟨s, hs, rfl⟩
      · obtain ⟨rfl, rfl, rfl⟩ : _ ∧ _ ∧ _ := by simpa using h
        exact ⟨s, hs, rfl⟩
    · cases h
  | _ => cases h

/-- More connections change nothing that was recorded. -/
theorem take_append {joined more : List (SessionId × SourceSeat)} {k : Nat}
    (h : k ≤ joined.length) : (joined ++ more).take k = joined.take k :=
  List.take_append_of_le_length h

theorem relay {l : Label} (h : t.Counted window)
    (hstep : t.relay lib attemptId l = some t') : t'.Counted window := by
  obtain ⟨w', hw, rfl⟩ := Option.map_eq_some_iff.mp hstep
  have htasks : ∀ task ∈ t.tasks ++ (t.world.scheduled l).map (fun target =>
      (⟨target.1, target.2.1, target.2.2, t.now, t.joined.length⟩ : ExpiryTask)),
      task.joins ≤ (t.joined ++ t.world.joins l).length ∧ task.generation =
        ((t.joined ++ t.world.joins l).take task.joins).count (task.session, task.seat) := by
    intro task htask
    rw [List.length_append]
    rcases List.mem_append.mp htask with htask | htask
    · obtain ⟨hle, hgeneration⟩ := h.tasks task htask
      rw [take_append hle]
      exact ⟨by omega, hgeneration⟩
    · obtain ⟨⟨i, seat, generation⟩, htarget, rfl⟩ := List.mem_map.mp htask
      obtain ⟨s, hs, rfl⟩ := scheduled_generation htarget
      rw [take_append (Nat.le_refl _), List.take_length]
      exact ⟨Nat.le_add_right _ _, h.generations i s hs seat⟩
  have hfailures : ∀ failure ∈ t.failures,
      failure.joins ≤ (t.joined ++ t.world.joins l).length := by
    intro failure hfailure
    have := h.failures failure hfailure
    rw [List.length_append]
    omega
  have hlate : ∀ failure ∈ t.failures, failure.task.since + window ≤ failure.time ∧
      (failure.task.session, failure.task.seat) ∉
        ((t.joined ++ t.world.joins l).take failure.joins).drop failure.task.joins := by
    intro failure hfailure
    rw [take_append (h.failures failure hfailure)]
    exact h.late failure hfailure
  cases counts_step hw with
  | same hsame hlength hjoins =>
    refine ⟨?_, ?_, htasks, hfailures, hlate⟩
    · intro i s' hs' seat
      obtain ⟨s, hs, heq⟩ := hsame i s' hs'
      rw [hjoins, List.append_nil, heq]
      exact h.generations i s hs seat
    · rw [hjoins, List.append_nil]
      intro x hx
      exact Nat.lt_of_lt_of_eq (h.joined_lt x hx) hlength.symm
  | @took c conn s hs hsessions hjoins =>
    have hlt := (List.getElem?_eq_some_iff.mp hs).1
    refine ⟨?_, ?_, htasks, hfailures, hlate⟩
    · intro i s' hs' seat
      change w'.sessions[i]? = _ at hs'
      rw [hsessions] at hs'
      rw [hjoins, List.count_append, List.count_singleton]
      by_cases hij : conn.session = i
      · subst hij
        rw [List.getElem?_set_self hlt] at hs'
        cases hs'
        rw [← h.generations _ s hs seat]
        rcases SourceSeat.eq_or_peer conn.seat seat with rfl | rfl
        · simp [V2Session.take]
        · simp [V2Session.take]
      · rw [List.getElem?_set_ne hij] at hs'
        have hne : ((conn.session, conn.seat) == (i, seat)) = false := by simp [hij]
        rw [hne, ← h.generations i s' hs' seat]
        simp
    · intro x hx
      show x.1 < w'.sessions.length
      rw [hsessions, List.length_set]
      rw [hjoins] at hx
      rcases List.mem_append.mp hx with hx | hx
      · exact h.joined_lt x hx
      · rw [List.mem_singleton.mp hx]
        exact hlt
  | made hsessions hjoins =>
    refine ⟨?_, ?_, htasks, hfailures, hlate⟩
    · intro i s' hs' seat
      change w'.sessions[i]? = _ at hs'
      rw [hsessions] at hs'
      rw [hjoins, List.append_nil]
      by_cases hlt : i < t.world.sessions.length
      · rw [List.getElem?_append_left hlt] at hs'
        exact h.generations i s' hs' seat
      · have hnew : s' = .new attemptId := by
          rw [List.getElem?_append_right (Nat.le_of_not_lt hlt)] at hs'
          exact List.mem_singleton.mp (List.mem_of_getElem? hs')
        have hnone : (i, seat) ∉ t.joined := fun hmem => hlt (h.joined_lt _ hmem)
        rw [List.count_eq_zero.mpr hnone, hnew]
        exact PerSeat.get_both 0 seat
    · intro x hx
      rw [hjoins, List.append_nil] at hx
      have hle : t.world.sessions.length ≤ w'.sessions.length := by
        rw [hsessions, List.length_append]
        omega
      exact Nat.lt_of_lt_of_le (h.joined_lt x hx) hle

theorem expire {k : Nat} (h : t.Counted window) (hstep : t.expire window k = some t') :
    t'.Counted window := by
  obtain ⟨task, htask, hstep⟩ := Option.bind_eq_some_iff.mp hstep
  have hmem : ∀ x ∈ t.tasks.eraseIdx k, x ∈ t.tasks := fun x hx => List.mem_of_mem_eraseIdx hx
  split at hstep
  · cases hstep
  rename_i htime
  split at hstep
  · rename_i hexpired
    cases hstep
    refine ⟨h.generations, h.joined_lt, fun x hx => h.tasks x (hmem x hx), ?_, ?_⟩
    · intro failure hfailure
      rcases List.mem_cons.mp hfailure with rfl | hfailure
      · exact Nat.le_refl _
      · exact h.failures failure hfailure
    · intro failure hfailure
      rcases List.mem_cons.mp hfailure with rfl | hfailure
      · refine ⟨Nat.le_of_not_lt htime, ?_⟩
        unfold Timed.expired at hexpired
        split at hexpired
        · cases hexpired
        rename_i s hs
        simp only [Bool.and_eq_true, decide_eq_true_eq] at hexpired
        obtain ⟨-, hgeneration⟩ := h.tasks task (List.mem_of_getElem? htask)
        have hcount := h.generations task.session s hs task.seat
        have hsplit := congrArg (List.count (task.session, task.seat))
          (List.take_append_drop task.joins t.joined)
        rw [List.count_append] at hsplit
        have hzero : (t.joined.drop task.joins).count (task.session, task.seat) = 0 := by omega
        show (task.session, task.seat) ∉ (t.joined.take t.joined.length).drop task.joins
        rw [List.take_length]
        exact List.count_eq_zero.mp hzero
      · exact h.late failure hfailure
  · cases hstep
    exact ⟨h.generations, h.joined_lt, fun x hx => h.tasks x (hmem x hx), h.failures, h.late⟩

end Timed.Counted

/-! ## The bookkeeping over whole runs -/

section Runs

open Transition

variable {window : Nat} {t t' : Timed}

theorem detached_step {l : TimedLabel} (h : Detached t.world)
    (hstep : t.step lib attemptId window l = some t') : Detached t'.world := by
  cases l with
  | relay l =>
    obtain ⟨w', hw, rfl⟩ := Option.map_eq_some_iff.mp hstep
    exact h.step hw
  | wait seconds =>
    cases hstep
    exact h
  | expire k =>
    obtain ⟨task, htask, hstep⟩ := Option.bind_eq_some_iff.mp hstep
    split at hstep
    · cases hstep
    split at hstep
    · rename_i hexpired
      cases hstep
      unfold Timed.expired at hexpired
      split at hexpired
      · cases hexpired
      rename_i s hs
      intro i hi
      refine ⟨by simp, ?_⟩
      rcases List.mem_cons.mp hi with rfl | hi
      · exact (List.getElem?_eq_some_iff.mp hs).1
      · exact (h i hi).2
    · cases hstep
      exact h

theorem counted_step {l : TimedLabel} (h : t.Counted window)
    (hstep : t.step lib attemptId window l = some t') : t'.Counted window := by
  cases l with
  | relay l => exact h.relay hstep
  | wait seconds =>
    cases hstep
    exact ⟨h.generations, h.joined_lt, h.tasks, h.failures, h.late⟩
  | expire k => exact h.expire hstep

theorem slotsRunning_timed {l : TimedLabel} (h : SlotsRunning t.world.sessions t.world.conns)
    (hguard : OnRelay ReplaysCaught t l) (hstep : t.step lib attemptId window l = some t') :
    SlotsRunning t'.world.sessions t'.world.conns := by
  cases l with
  | relay l =>
    obtain ⟨w', hw, rfl⟩ := Option.map_eq_some_iff.mp hstep
    exact slotsRunning_step h hguard hw
  | wait seconds =>
    cases hstep
    exact h
  | expire k =>
    obtain ⟨task, htask, hstep⟩ := Option.bind_eq_some_iff.mp hstep
    split at hstep
    · cases hstep
    split at hstep
    · cases hstep
      exact h
    · cases hstep
      exact h

/-- In every run in which no retained replay raises what is not caught, a seat is occupied
only while its handler runs. In every run in which, moreover, no failed replay gives a seat
back and no `PEER_CLOSE` raises what is not caught, an empty seat is awaited. In every run,
expiry fails only attempts whose seat was not taken again within the window. -/
theorem seats_and_expiry (lib : Library) (attemptId : String) (window : Nat) :
    (∀ t, (timedSystem lib attemptId window).Reachable (OnRelay ReplaysCaught) t →
      SlotsRunning t.world.sessions t.world.conns) ∧
    (∀ t, (timedSystem lib attemptId window).Reachable (OnRelay Rescheduled) t → t.Awaited) ∧
    ∀ t, (timedSystem lib attemptId window).Reachable System.Free t → t.FailedLate window := by
  refine ⟨?_, ?_, ?_⟩
  · intro t h
    apply h.invariant (P := fun t => SlotsRunning t.world.sessions t.world.conns)
    · rintro _ rfl i s hs
      cases hs
    · intro s l t hs hguard hstep
      exact slotsRunning_timed hs hguard hstep
  · intro t h
    have hboth : Detached t.world ∧ t.Awaited := by
      apply h.invariant (P := fun t => Detached t.world ∧ t.Awaited)
      · rintro _ rfl
        refine ⟨?_, ?_⟩
        · intro i hi
          cases hi
        · intro i s here
          cases here
      · rintro s l t ⟨hdetached, hawaited⟩ hguard hstep
        exact ⟨detached_step hdetached hstep, awaited_step hawaited hdetached hguard hstep⟩
    exact hboth.2
  · intro t h
    have hcounted : t.Counted window := by
      apply h.invariant (P := fun t => t.Counted window)
      · rintro _ rfl
        exact Timed.Counted.empty
      · intro s l t hs _ hstep
        exact counted_step hs hstep
    exact hcounted.late

instance (w : World) : (l : Label) → Decidable (ReplaysCaught w l)
  | .connect c replay => inferInstanceAs
      (Decidable (w.joins (.connect c replay) = [] ∨ replay.diesEarly = false))
  | .arrive _ | .vacate _ | .receive _ _ | .observeReset _ | .drop _ | .handle _ _ _
  | .leave _ _ | .unregister _ | .disconnect _ => .isTrue trivial

instance (w : World) : (l : Label) → Decidable (Rescheduled w l)
  | .vacate c => inferInstanceAs (Decidable (∀ conn ∈ w.conns[c]?,
      ∀ s ∈ w.sessions[conn.session]?,
        s.peers.get conn.seat = some c → w.registered ≠ some conn.session))
  | .leave c sent => inferInstanceAs (Decidable (∀ conn ∈ w.conns[c]?,
      ∀ s ∈ w.sessions[conn.session]?, s.peers.get conn.seat = some c →
        w.registered = some conn.session → w.closeEscapes s conn.seat sent = false))
  | .arrive _ | .connect _ _ | .receive _ _ | .observeReset _ | .drop _ | .handle _ _ _
  | .unregister _ | .disconnect _ => .isTrue trivial

/-- The two conditions together. -/
def Orderly (t : Timed) (l : TimedLabel) : Prop :=
  OnRelay ReplaysCaught t l ∧ OnRelay Rescheduled t l

instance (t : Timed) : (l : TimedLabel) → Decidable (Orderly t l)
  | .relay l => inferInstanceAs (Decidable (ReplaysCaught t.world l ∧ Rescheduled t.world l))
  | .wait _ | .expire _ => .isTrue ⟨trivial, trivial⟩

/-- Both seats connect; seat A is lost and seat B is reset with it. Seat B comes back and its
task finds a later generation; seat A does not, and the attempt is failed. -/
def lostSeat : List TimedLabel :=
  [.relay (.arrive .memberA), .relay (.connect 0 .complete), .relay (.arrive .memberB),
    .relay (.connect 1 .complete), .relay (.drop 0), .relay (.leave 0 .delivered), .wait 5,
    .relay (.arrive .memberB), .relay (.connect 2 .complete), .wait 10, .expire 1, .expire 0]

theorem seats_and_expiry_lost :
    ∃ t, System.play (Timed.step clientLibrary "attempt" 15) Orderly .empty lostSeat = some t ∧
      t.failures.map (fun f => (f.task.seat, f.time)) = [(.memberA, 15)] ∧
      SlotsRunning t.world.sessions t.world.conns ∧ t.Awaited ∧ t.FailedLate 15 := by
  obtain ⟨t, ht, hfailures⟩ := (Option.any_eq_true _ _).mp
    (show (System.play (Timed.step clientLibrary "attempt" 15) Orderly .empty lostSeat).any
      (fun t => t.failures.map (fun f => (f.task.seat, f.time)) = [(.memberA, 15)]) by
        decide +kernel)
  have hreach : (timedSystem clientLibrary "attempt" 15).Reachable Orderly t :=
    ⟨.empty, rfl, System.run_of_play ht⟩
  obtain ⟨hslots, hawaited, hlate⟩ := seats_and_expiry clientLibrary "attempt" 15
  exact ⟨t, ht, of_decide_eq_true hfailures, hslots t (hreach.mono fun _ _ h => h.1),
    hawaited t (hreach.mono fun _ _ h => h.2), hlate t (hreach.mono fun _ _ _ => trivial)⟩

/-- Seat B has said `PEER_READY` when seat A connects. -/
def beforeReplay : List TimedLabel :=
  [.relay (.arrive .memberB), .relay (.connect 0 .complete)] ++
    (clientSends 0 .memberB 0 .peerReady []).map .relay ++ [.relay (.arrive .memberA)]

/-- The replay to seat A raises `WebSocketDisconnect`: the seat stays occupied by a handler
that ended. The replay times out: the seat is empty, and nothing awaits it. -/
theorem failed_replay_forgotten :
    (∃ t, (timedSystem clientLibrary "attempt" 15).Reachable System.Free t ∧
      ¬ SlotsRunning t.world.sessions t.world.conns) ∧
    ∃ t, (timedSystem clientLibrary "attempt" 15).Reachable System.Free t ∧ ¬ t.Awaited := by
  constructor
  · obtain ⟨t, ht, hfacts⟩ := (Option.any_eq_true _ _).mp
      (show (System.play (Timed.step clientLibrary "attempt" 15) System.Free .empty
        (beforeReplay ++ [.relay (.connect 1 (.dies 0))])).any (fun t =>
          (t.world.sessions[0]?.bind fun s => s.peers.get .memberA) = some 1 ∧
            t.world.conns[1]?.map Conn.handler = some .ended) by decide +kernel)
    obtain ⟨hheld, hended⟩ := of_decide_eq_true hfacts
    refine ⟨t, ⟨.empty, rfl, System.run_of_play ht⟩, ?_⟩
    intro hslots
    obtain ⟨s, hs, hpeers⟩ := Option.bind_eq_some_iff.mp hheld
    obtain ⟨conn, hconn, -, -, hrunning⟩ := hslots 0 s hs .memberA 1 hpeers
    rw [hconn] at hended
    rw [Option.some.inj hended] at hrunning
    cases hrunning
  · obtain ⟨t, ht, hfacts⟩ := (Option.any_eq_true _ _).mp
      (show (System.play (Timed.step clientLibrary "attempt" 15) System.Free .empty
        (beforeReplay ++ [.relay (.connect 1 (.fails 0 false)), .relay (.vacate 1)])).any
          (fun t => t.world.registered = some 0 ∧ t.tasks = [] ∧
            t.world.sessions[0]?.map (fun s =>
              (s.generations.get .memberA, s.peers.get .memberA)) = some (1, none)) by
            decide +kernel)
    obtain ⟨here, htasks, hseat⟩ := of_decide_eq_true hfacts
    refine ⟨t, ⟨.empty, rfl, System.run_of_play ht⟩, ?_⟩
    intro hawaited
    obtain ⟨s, hs, hpair⟩ := Option.map_eq_some_iff.mp hseat
    obtain ⟨hgeneration, hempty⟩ := Prod.mk.inj hpair
    obtain ⟨task, htask, -⟩ := hawaited 0 s here hs .memberA (by omega) hempty
    rw [htasks] at htask
    cases htask

end Runs

end SwitchTrade.Relay

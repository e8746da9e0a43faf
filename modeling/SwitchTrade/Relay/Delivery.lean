import SwitchTrade.Relay.Barrier
import SwitchTrade.Relay.Stream

/-!
# The delivered streams along every run

`SendsEpochs` is what the relay expects of its endpoints, one epoch on each connection.
`RetainsEnough` is what it relies on besides: an endpoint says nothing but `PEER_READY` and
the advertisement before it was handed a frame, and a section runs for the connection that
holds its seat. In every such run a fresh gate accepts what any connection was handed
(`delivered_accepted`).
-/

namespace SwitchTrade.Relay

open Tunnel Fallible Transition

/-! ## Who holds a seat -/

section Holders

variable {conns : List Conn} {peers : PerSeat (Option ConnId)} {i : SessionId} {c : ConnId}
  {conn : Conn} {seat : SourceSeat} {f : Conn → Conn}

def holders (conns : List Conn) (peers : PerSeat (Option ConnId)) : Holders :=
  { memberA := peers.memberA.bind (conns[·]?), memberB := peers.memberB.bind (conns[·]?) }

theorem holders_get (seat : SourceSeat) :
    (holders conns peers).get seat = (peers.get seat).bind (conns[·]?) := by
  cases seat <;> rfl

/-- A holder sits on its own seat of its own session, and took it. -/
def Seated (conns : List Conn) (i : SessionId) (peers : PerSeat (Option ConnId)) : Prop :=
  ∀ seat c, peers.get seat = some c →
    ∃ conn, conns[c]? = some conn ∧ conn.seat = seat ∧ conn.session = i ∧ conn.handler ≠ .arriving

theorem Seated.only (h : Seated conns i peers) (hc : conns[c]? = some conn)
    (hseat : peers.get seat = some c) : seat = conn.seat ∧ i = conn.session := by
  obtain ⟨conn', hc', rfl, rfl, -⟩ := h seat c hseat
  rw [hc, Option.some.injEq] at hc'
  subst hc'
  exact ⟨rfl, rfl⟩

theorem Seated.free (h : Seated conns i peers) (seat : SourceSeat) :
    Seated conns i (peers.set seat none) := by
  intro seat' c hc
  rcases SourceSeat.eq_or_peer seat seat' with rfl | rfl
  · simp at hc
  · rw [PerSeat.get_set_peer] at hc
    exact h _ c hc

theorem Seated.take (h : Seated conns conn.session peers) (hc : conns[c]? = some conn)
    (took : conn.handler ≠ .arriving) :
    Seated conns conn.session (peers.set conn.seat (some c)) := by
  intro seat' c' hc'
  rcases SourceSeat.eq_or_peer conn.seat seat' with rfl | rfl
  · rw [PerSeat.get_set, Option.some.injEq] at hc'
    subst hc'
    exact ⟨conn, hc, rfl, rfl, took⟩
  · rw [PerSeat.get_set_peer] at hc'
    exact h _ c' hc'

theorem Seated.modify (h : Seated conns i peers)
    (hf : ∀ x, conns[c]? = some x → (f x).seat = x.seat ∧ (f x).session = x.session ∧
      (x.handler ≠ .arriving → (f x).handler ≠ .arriving)) : Seated (conns.modify c f) i peers := by
  intro seat d hd
  obtain ⟨x, hx, rfl, rfl, htook⟩ := h seat d hd
  by_cases hcd : c = d
  · subst hcd
    obtain ⟨hseat, hsession, hhandler⟩ := hf x hx
    exact ⟨f x, by simp [hx], hseat, hsession, hhandler htook⟩
  · exact ⟨x, by rw [List.getElem?_modify_ne _ _ hcd, hx], rfl, rfl, htook⟩

theorem holders_free :
    holders conns (peers.set seat none) = (holders conns peers).set seat none := by
  refine PerSeat.ext_get seat ?_ ?_ <;> simp [holders_get]

theorem holders_take : holders conns (peers.set seat (some c)) =
    (holders conns peers).set seat conns[c]? := by
  refine PerSeat.ext_get seat ?_ ?_ <;> simp [holders_get]

/-- A change of a connection that holds no seat. -/
theorem holders_modify_ne (hne : ∀ seat, peers.get seat ≠ some c) :
    holders (conns.modify c f) peers = holders conns peers := by
  have hsame : ∀ seat, (holders (conns.modify c f) peers).get seat =
      (holders conns peers).get seat := by
    intro seat
    rw [holders_get, holders_get]
    cases hd : peers.get seat with
    | none => rfl
    | some d =>
      have hcd : c ≠ d := fun heq => hne seat (heq ▸ hd)
      simp [List.getElem?_modify_ne _ _ hcd]
  exact PerSeat.ext_get .memberA (hsame _) (hsame _)

/-- A change of a holder. -/
theorem holders_modify (h : Seated conns i peers) (hc : conns[c]? = some conn)
    (hold : peers.get conn.seat = some c) :
    holders (conns.modify c f) peers = (holders conns peers).set conn.seat (some (f conn)) := by
  refine PerSeat.ext_get conn.seat ?_ ?_
  · simp [holders_get, hold, hc]
  · rw [PerSeat.get_set_peer, holders_get, holders_get]
    cases hd : peers.get conn.seat.peer with
    | none => rfl
    | some d =>
      have hcd : c ≠ d := fun heq => SourceSeat.peer_ne _ (h.only hc (heq ▸ hd)).1
      simp [List.getElem?_modify_ne _ _ hcd]

/-- A holder that changes as it gives its seat back. -/
theorem holders_leave (h : Seated conns i peers) (hc : conns[c]? = some conn) :
    holders (conns.modify c f) (peers.set conn.seat none) =
      (holders conns peers).set conn.seat none := by
  rw [holders_modify_ne, holders_free]
  intro seat hold
  obtain ⟨rfl, -⟩ := (h.free conn.seat).only hc hold
  simp at hold

theorem holders_append (h : Seated conns i peers) (x : Conn) :
    holders (conns ++ [x]) peers = holders conns peers := by
  have hsame : ∀ seat, (holders (conns ++ [x]) peers).get seat =
      (holders conns peers).get seat := by
    intro seat
    rw [holders_get, holders_get]
    cases hd : peers.get seat with
    | none => rfl
    | some d =>
      obtain ⟨conn, hconn, -⟩ := h seat d hd
      have hlt := (List.getElem?_eq_some_iff.mp hconn).1
      simp [List.getElem?_append_left hlt]
  exact PerSeat.ext_get .memberA (hsame _) (hsame _)

theorem Seated.append (h : Seated conns i peers) (x : Conn) : Seated (conns ++ [x]) i peers := by
  intro seat c hc
  obtain ⟨conn, hconn, rest⟩ := h seat c hc
  have hlt := (List.getElem?_eq_some_iff.mp hconn).1
  exact ⟨conn, by rw [List.getElem?_append_left hlt, hconn], rest⟩

theorem forall_modify {P : Conn → Prop} (h : ∀ (d : ConnId) (x : Conn), conns[d]? = some x → P x)
    (hf : ∀ x, conns[c]? = some x → P (f x)) (d : ConnId) (x : Conn)
    (hx : (conns.modify c f)[d]? = some x) : P x := by
  by_cases hcd : c = d
  · subst hcd
    rw [List.getElem?_modify_eq, Option.map_eq_map, Option.map_eq_some_iff] at hx
    obtain ⟨y, hy, rfl⟩ := hx
    exact hf y hy
  · rw [List.getElem?_modify_ne _ _ hcd] at hx
    exact h d x hx

theorem modify_other (hc : conns[c]? = some conn) {d : ConnId} {x : Conn}
    (hx : conns[d]? = some x) (hne : x.session ≠ conn.session) :
    (conns.modify c f)[d]? = some x := by
  have hcd : c ≠ d := by
    rintro rfl
    rw [hc, Option.some.injEq] at hx
    exact hne (by rw [hx])
  rw [List.getElem?_modify_ne _ _ hcd, hx]

end Holders

/-! ## The invariant -/

structure StreamInv (attemptId : String) (w : World) : Prop where
  conns : ∀ (c : ConnId) (conn : Conn), w.conns[c]? = some conn → ConnSound attemptId conn
  seated : ∀ (i : SessionId) (s : V2Session), w.sessions[i]? = some s → Seated w.conns i s.peers
  streams : ∀ (i : SessionId) (s : V2Session), w.sessions[i]? = some s →
    Streams (w.registered = some i) s (holders w.conns s.peers)

namespace StreamInv

variable {attemptId : String} {w w' : World} {c : ConnId} {conn : Conn} {s s' : V2Session}

theorem empty : StreamInv attemptId .empty where
  conns := fun c conn hc => by simp [World.empty] at hc
  seated := fun i s hs => by simp [World.empty] at hs
  streams := fun i s hs => by simp [World.empty] at hs

/-- A step that changes one session and connections of that session. -/
theorem update (h : StreamInv attemptId w) {j : SessionId}
    (hsessions : w'.sessions = w.sessions.set j s') (hregistry : RegistryStep w w')
    (hother : ∀ (d : ConnId) (x : Conn), w.conns[d]? = some x → x.session ≠ j →
      w'.conns[d]? = some x)
    (hconns : ∀ (d : ConnId) (x : Conn), w'.conns[d]? = some x → ConnSound attemptId x)
    (hseated : Seated w'.conns j s'.peers)
    (hstreams : Streams (w'.registered = some j) s' (holders w'.conns s'.peers)) :
    StreamInv attemptId w' := by
  have hothers : ∀ i s, w'.sessions[i]? = some s → i ≠ j → w.sessions[i]? = some s := by
    intro i s hs hij
    rwa [hsessions, List.getElem?_set_ne (Ne.symm hij)] at hs
  have hthis : ∀ s, w'.sessions[j]? = some s → s = s' := by
    intro s hs
    rw [hsessions, List.getElem?_set] at hs
    simp only [if_true] at hs
    split at hs <;> cases hs
    rfl
  refine ⟨hconns, fun i s hs => ?_, fun i s hs => ?_⟩
  · by_cases hij : i = j
    · subst hij
      exact hthis s hs ▸ hseated
    · intro seat d hd
      obtain ⟨x, hx, hseat, rfl, htook⟩ := h.seated i s (hothers i s hs hij) seat d hd
      exact ⟨x, hother d x hx hij, hseat, rfl, htook⟩
  · by_cases hij : i = j
    · subst hij
      exact hthis s hs ▸ hstreams
    · have hbefore := hothers i s hs hij
      have hsame : holders w'.conns s.peers = holders w.conns s.peers := by
        have hget : ∀ seat, (holders w'.conns s.peers).get seat =
            (holders w.conns s.peers).get seat := by
          intro seat
          rw [holders_get, holders_get]
          cases hd : s.peers.get seat with
          | none => rfl
          | some d =>
            obtain ⟨x, hx, -, rfl, -⟩ := h.seated i s hbefore seat d hd
            simp [hx, hother d x hx hij]
        exact PerSeat.ext_get .memberA (hget _) (hget _)
      rw [hsame]
      exact (h.streams i s hbefore).mono hregistry.of_eq

/-- What a handler that goes on without a frame that passed leaves as it was. -/
structure Continues (conn conn' : Conn) : Prop where
  seat : conn'.seat = conn.seat
  session : conn'.session = conn.session
  stream : conn'.passed = conn.passed ∧ conn'.replayed = conn.replayed ∧
    conn'.delivered = conn.delivered ∧ conn'.broken = conn.broken
  took : conn'.handler ≠ .arriving

/-- A step that changes one connection, without a frame that passed. -/
theorem modify (h : StreamInv attemptId w) {f : Conn → Conn} (hc : w.conns[c]? = some conn)
    (hsessions : w'.sessions = w.sessions) (hregistry : RegistryStep w w')
    (hconns : w'.conns = w.conns.modify c f) (continues : Continues conn (f conn))
    (doomed : (f conn).handler.doomed = false → conn.handler.doomed = false ∨
      ∀ s, w.sessions[conn.session]? = some s → s.peers.get conn.seat ≠ some c)
    (hsound : ConnSound attemptId (f conn)) : StreamInv attemptId w' := by
  refine ⟨?_, fun i s hs => ?_, fun i s hs => ?_⟩
  · rw [hconns]
    refine forall_modify h.conns fun x hx => ?_
    rw [hc, Option.some.injEq] at hx
    exact hx ▸ hsound
  · rw [hconns]
    refine (h.seated i s (hsessions ▸ hs)).modify fun x hx => ?_
    rw [hc, Option.some.injEq] at hx
    exact hx ▸ ⟨continues.seat, continues.session, fun _ => continues.took⟩
  · rw [hsessions] at hs
    have hseated := h.seated i s hs
    have hstreams := (h.streams i s hs).mono hregistry.of_eq
    rw [hconns]
    by_cases hold : ∃ seat, s.peers.get seat = some c
    · obtain ⟨seat, hold⟩ := hold
      obtain ⟨rfl, rfl⟩ := hseated.only hc hold
      rw [holders_modify hseated hc hold]
      exact hstreams.goto (by simp [holders_get, hold, hc]) continues.stream fun hsound =>
        (doomed hsound).resolve_right fun evicted => evicted s hs hold
    · rw [holders_modify_ne fun seat hseat => hold ⟨seat, hseat⟩]
      exact hstreams

/-- A handler that goes on to a state in which it takes and holds no frame. -/
theorem goto (h : StreamInv attemptId w) {handler : Handler} (hc : w.conns[c]? = some conn)
    (hsessions : w'.sessions = w.sessions) (hregistry : RegistryStep w w')
    (hconns : w'.conns = w.conns.modify c fun conn => { conn with handler })
    (quiet : handler ≠ .receiving ∧ handler ≠ .replayFailed ∧ handler ≠ .arriving)
    (idle : ∀ e, handler ≠ .holding e)
    (whole : handler = .leaving none → conn.passed = conn.received)
    (doomed : handler.doomed = false → conn.handler.doomed = false ∨
      ∀ s, w.sessions[conn.session]? = some s → s.peers.get conn.seat ≠ some c) :
    StreamInv attemptId w' :=
  h.modify hc hsessions hregistry hconns ⟨rfl, rfl, ⟨rfl, rfl, rfl, rfl⟩, quiet.2.2⟩ doomed
    ((h.conns c conn hc).goto quiet idle whole)

/-- A handler takes its seat. -/
theorem take (h : StreamInv attemptId w) {f : Conn → Conn} (hc : w.conns[c]? = some conn)
    (hs : w.sessions[conn.session]? = some s) (arriving : conn.handler = .arriving)
    (free : s.peers.get conn.seat = none) (here : w.registered = some conn.session)
    (hsessions : w'.sessions = w.sessions.set conn.session (s.take conn.seat c))
    (hregistered : w'.registered = w.registered) (hconns : w'.conns = w.conns.modify c f)
    (same : (f conn).seat = conn.seat ∧ (f conn).session = conn.session ∧
      (f conn).handler ≠ .arriving) (hpassed : (f conn).passed = conn.passed)
    (hreplay : (f conn).replayed = true → (f conn).delivered = s.retained.get conn.seat.peer)
    (hsound : (∃ epoch, Epoch attemptId conn.seat.peer epoch (s.retained.get conn.seat.peer)) →
      ConnSound attemptId (f conn)) : StreamInv attemptId w' := by
  obtain ⟨hseat, hsession, htook⟩ := same
  have hseated := h.seated _ s hs
  have hstreams := h.streams _ s hs
  have hunseated : ∀ seat, s.peers.get seat ≠ some c := by
    intro seat hold
    obtain ⟨x, hx, -, -, hnot⟩ := hseated seat c hold
    rw [hc, Option.some.injEq] at hx
    exact hnot (hx ▸ arriving)
  have hfree : (holders w.conns s.peers).get conn.seat = none := by simp [holders_get, free]
  have hchanged : ∀ x, w.conns[c]? = some x → x = conn := by
    intro x hx
    rw [hc, Option.some.injEq] at hx
    exact hx.symm
  refine h.update hsessions (.inl hregistered) (fun d x hx hne => ?_) ?_ ?_ ?_
  · rw [hconns]
    exact modify_other hc hx hne
  · rw [hconns]
    refine forall_modify h.conns fun x hx => ?_
    rw [hchanged x hx]
    refine hsound (hstreams.replay here hfree fun peer hpeer => ?_)
    rw [holders_get, Option.bind_eq_some_iff] at hpeer
    obtain ⟨p, hp, hpeer⟩ := hpeer
    exact ⟨h.conns p peer hpeer, (hseated.only hpeer hp).1.symm⟩
  · have hmodified : Seated (w.conns.modify c f) (f conn).session s.peers := by
      rw [hsession]
      exact hseated.modify fun x hx => by
        rw [hchanged x hx]
        exact ⟨hseat, hsession, fun _ => htook⟩
    rw [hconns, V2Session.take_peers, ← hseat, ← hsession]
    exact hmodified.take (by simp [hc]) htook
  · rw [hconns, V2Session.take_peers, holders_take, holders_modify_ne hunseated, hregistered]
    have hnew : (w.conns.modify c f)[c]? = some (f conn) := by simp [hc]
    rw [hnew]
    refine hstreams.take here hfree c ?_ hreplay
    rw [hpassed, (h.conns c conn hc).passed_nil ((h.conns c conn hc).waiting (.inl arriving))]

/-- A connection gives its seat back, or loses it. -/
theorem giveBack (h : StreamInv attemptId w) {f : Conn → Conn} (hc : w.conns[c]? = some conn)
    (hs : w.sessions[conn.session]? = some s)
    (hsessions : w'.sessions = w.sessions.set conn.session s') (hregistry : RegistryStep w w')
    (hpeers : s'.peers = s.peers.set conn.seat none) (hconns : w'.conns = w.conns.modify c f)
    (hsound : ConnSound attemptId (f conn))
    (hstreams : Streams (w'.registered = some conn.session) s'
      ((holders w.conns s.peers).set conn.seat none)) : StreamInv attemptId w' := by
  have hseated := h.seated _ s hs
  refine h.update hsessions hregistry (fun d x hx hne => ?_) ?_ ?_ ?_
  · rw [hconns]
    exact modify_other hc hx hne
  · rw [hconns]
    refine forall_modify h.conns fun x hx => ?_
    rw [hc, Option.some.injEq] at hx
    exact hx ▸ hsound
  · rw [hconns, hpeers]
    intro seat d hd
    obtain ⟨x, hx, rest⟩ := hseated.free conn.seat seat d hd
    have hcd : c ≠ d := by
      rintro rfl
      obtain ⟨rfl, -⟩ := (hseated.free conn.seat).only hc hd
      simp at hd
    exact ⟨x, by rw [List.getElem?_modify_ne _ _ hcd, hx], rest⟩
  · rw [hconns, hpeers, holders_leave hseated hc]
    exact hstreams

/-- A connection is lost and the other one is told and evicted. -/
theorem resetBoth (h : StreamInv attemptId w) {p : ConnId} {peer : Conn} {f g : Conn → Conn}
    (hc : w.conns[c]? = some conn) (hp : w.conns[p]? = some peer) (hne : c ≠ p)
    (hsession : peer.session = conn.session)
    (hsessions : w'.sessions = w.sessions.set conn.session s') (hregistry : RegistryStep w w')
    (hpeers : ∀ seat, s'.peers.get seat = none) (hretained : ∀ seat, s'.retained.get seat = [])
    (hconns : w'.conns = (w.conns.modify c f).modify p g) (hsound : ConnSound attemptId (f conn))
    (hpeerSound : ConnSound attemptId (g peer)) : StreamInv attemptId w' := by
  have hp' : (w.conns.modify c f)[p]? = some peer := by
    rw [List.getElem?_modify_ne _ _ hne, hp]
  have hnobody : ∀ conns : List Conn, ∀ seat, (holders conns s'.peers).get seat = none :=
    fun conns seat => by simp [holders_get, hpeers]
  refine h.update hsessions hregistry (fun d x hx hother => ?_) ?_ ?_ ?_
  · rw [hconns]
    exact modify_other hp' (modify_other hc hx hother) (hsession ▸ hother)
  · rw [hconns]
    refine forall_modify (forall_modify h.conns fun x hx => ?_) fun x hx => ?_
    · rw [hc, Option.some.injEq] at hx
      exact hx ▸ hsound
    · rw [hp', Option.some.injEq] at hx
      exact hx ▸ hpeerSound
  · intro seat d hd
    simp [hpeers] at hd
  · exact .vacant (hnobody _) fun _ => hretained

/-- A frame section that raises. -/
theorem raised (h : StreamInv attemptId w) {lib : Library} {admitted : Admitted} {e : Envelope}
    {error : FrameError} (hc : w.conns[c]? = some conn) (hs : w.sessions[conn.session]? = some s)
    (hold : s.peers.get conn.seat = some c) (holding : conn.handler = .holding e)
    (raises : s.handle lib attemptId conn.seat admitted e = .error (error, s'))
    (doomed : (Handler.leaving error.fatalCode).doomed = true)
    (hsessions : w'.sessions = w.sessions.set conn.session s')
    (hregistered : w'.registered = w.registered)
    (hconns : w'.conns = w.conns.modify c fun conn =>
      { conn with handler := .leaving error.fatalCode }) : StreamInv attemptId w' := by
  have hseated := h.seated _ s hs
  have hsound := h.conns c conn hc
  have hbeside := V2Session.handle_error_beside raises
  have hconn : (holders w.conns s.peers).get conn.seat = some conn := by
    simp [holders_get, hold, hc]
  refine h.update hsessions (.inl hregistered) (fun d x hx hne => ?_) ?_ ?_ ?_
  · rw [hconns]
    exact modify_other hc hx hne
  · rw [hconns]
    refine forall_modify h.conns fun x hx => ?_
    rw [hc, Option.some.injEq] at hx
    subst hx
    refine hsound.goto (by simp) (by simp) fun hnone => ?_
    rw [hnone] at doomed
    cases doomed
  · rw [hconns, hbeside.peers]
    exact hseated.modify fun x _ => ⟨rfl, rfl, fun _ => by simp⟩
  · rw [hconns, hbeside.peers, holders_modify hseated hc hold, hregistered]
    refine (h.streams _ s hs).raised hconn ⟨rfl, rfl, rfl, rfl⟩ doomed hbeside fun _ hretained => ?_
    rcases V2Session.handle_error_retained raises with hsame | hcarried
    · rw [hsame, hretained]
    · rw [hcarried, (h.streams _ s hs).carried hconn hsound holding hretained]

/-- A frame section that passes while the other seat is empty. -/
theorem kept (h : StreamInv attemptId w) {lib : Library} {admitted : Admitted} {e : Envelope}
    (hc : w.conns[c]? = some conn) (hs : w.sessions[conn.session]? = some s)
    (hold : s.peers.get conn.seat = some c) (holding : conn.handler = .holding e)
    (passes : s.handle lib attemptId conn.seat admitted e = .ok s')
    (alone : s.peers.get conn.seat.peer = none)
    (hsessions : w'.sessions = w.sessions.set conn.session s')
    (hregistered : w'.registered = w.registered)
    (hconns : w'.conns = w.conns.modify c fun conn =>
      { conn with handler := .receiving, passed := conn.passed ++ [e] }) :
    StreamInv attemptId w' := by
  have hseated := h.seated _ s hs
  have hsound := h.conns c conn hc
  have hpeers := (V2Session.handle_beside passes).peers
  have hconn : (holders w.conns s.peers).get conn.seat = some conn := by
    simp [holders_get, hold, hc]
  have hnobody : (holders w.conns s.peers).get conn.seat.peer = none := by simp [holders_get, alone]
  refine h.update hsessions (.inl hregistered) (fun d x hx hne => ?_) ?_ ?_ ?_
  · rw [hconns]
    exact modify_other hc hx hne
  · rw [hconns]
    refine forall_modify h.conns fun x hx => ?_
    rw [hc, Option.some.injEq] at hx
    subst hx
    exact hsound.pass holding (.inl rfl)
  · rw [hconns, hpeers]
    exact hseated.modify fun x _ => ⟨rfl, rfl, fun _ => by simp⟩
  · rw [hconns, hpeers, holders_modify hseated hc hold, hregistered]
    refine (h.streams _ s hs).passes hconn hsound holding passes (PerSeat.get_set ..) rfl
      ⟨rfl, rfl, rfl⟩ (fun peer' hpeer' => ?_) fun _ => hnobody
    rw [PerSeat.get_set_peer, hnobody] at hpeer'
    cases hpeer'

/-- A frame section that passes and hands the frame over. -/
theorem forwarded (h : StreamInv attemptId w) {lib : Library} {admitted : Admitted} {e : Envelope}
    {p : ConnId} {peer : Conn} {sent : Sent} {handler : Handler}
    (hc : w.conns[c]? = some conn) (hs : w.sessions[conn.session]? = some s)
    (hold : s.peers.get conn.seat = some c) (holding : conn.handler = .holding e)
    (passes : s.handle lib attemptId conn.seat admitted e = .ok s')
    (present : s.peers.get conn.seat.peer = some p) (hp : w.conns[p]? = some peer)
    (after : handler = .receiving ∨ handler = .leaving none)
    (hsessions : w'.sessions = w.sessions.set conn.session s')
    (hregistered : w'.registered = w.registered)
    (hconns : w'.conns = (w.conns.modify p fun _ => (peer.send e sent).1).modify c fun conn =>
      { conn with handler, passed := conn.passed ++ [e] }) : StreamInv attemptId w' := by
  have hseated := h.seated _ s hs
  have hsound := h.conns c conn hc
  have hpeers := (V2Session.handle_beside passes).peers
  obtain ⟨hpseat, hpsession⟩ := hseated.only hp present
  have hne : p ≠ c := by
    rintro rfl
    rw [hp, Option.some.injEq] at hc
    exact SourceSeat.peer_ne _ (hpseat.trans (by rw [hc]))
  obtain ⟨broken, delivered, hsend, hgrows⟩ := send_same peer e sent
  have hc' : (w.conns.modify p fun _ => (peer.send e sent).1)[c]? = some conn := by
    rw [List.getElem?_modify_ne _ _ hne, hc]
  have hseated' : Seated (w.conns.modify p fun _ => (peer.send e sent).1) conn.session s.peers := by
    refine hseated.modify fun x hx => ?_
    rw [hp, Option.some.injEq] at hx
    subst hx
    rw [hsend]
    exact ⟨rfl, rfl, id⟩
  have hconn : (holders w.conns s.peers).get conn.seat = some conn := by
    simp [holders_get, hold, hc]
  have hpeer : (holders w.conns s.peers).get conn.seat.peer = some peer := by
    simp [holders_get, present, hp]
  have hholders : holders (w.conns.modify p fun _ => (peer.send e sent).1) s.peers =
      (holders w.conns s.peers).set conn.seat.peer (some (peer.send e sent).1) := by
    rw [hpseat]
    exact holders_modify hseated hp (hpseat ▸ present)
  refine h.update hsessions (.inl hregistered) (fun d x hx hother => ?_) ?_ ?_ ?_
  · rw [hconns]
    exact modify_other hc' (modify_other hp hx (hpsession ▸ hother)) hother
  · rw [hconns]
    refine forall_modify (forall_modify h.conns fun x hx => ?_) fun x hx => ?_
    · -- What the receiver was handed is a prefix of one epoch of the sender.
      have hsoundPeer := h.conns p peer hp
      have hstream : peer.replayed = true → _ := fun hreplayed =>
        send_stream e sent ((h.streams _ s hs).pair _ conn peer hconn hpeer hreplayed)
      rw [hsend] at hstream ⊢
      refine hsoundPeer.deliver broken peer.reset hgrows fun hreplayed => ?_
      obtain ⟨epoch, hreceived⟩ := hsound.stream
      rw [hsound.holding e holding] at hreceived
      rw [← hpseat, SourceSeat.peer_peer]
      exact ⟨epoch, hreceived.of_prefix (hstream hreplayed).1⟩
    · rw [hc', Option.some.injEq] at hx
      subst hx
      exact hsound.pass holding after
  · rw [hconns, hpeers]
    exact hseated'.modify fun x _ => ⟨rfl, rfl, fun _ => by rcases after with rfl | rfl <;> simp⟩
  · rw [hconns, hpeers, holders_modify hseated' hc' hold, hholders, hregistered]
    refine (h.streams _ s hs).passes hconn hsound holding passes (PerSeat.get_set ..) rfl
      ⟨rfl, rfl, rfl⟩ (fun peer' hpeer' => ?_) (by simp)
    rw [PerSeat.get_set_peer, PerSeat.get_set, Option.some.injEq] at hpeer'
    exact ⟨peer, sent, hpeer, hpeer'.symm⟩

/-- The eviction of a seat of a session that left the registry. -/
theorem evict (h : StreamInv attemptId w) {i : SessionId} (gone : w.registered ≠ some i)
    (seat : SourceSeat) : StreamInv attemptId (w.evict i seat) := by
  unfold World.evict
  split
  · exact h
  · rename_i s hs
    split
    · exact h
    · rename_i p hp
      obtain ⟨peer, hpeer, rfl, rfl, -⟩ := h.seated i s hs seat p hp
      refine h.giveBack hpeer hs rfl (.inl rfl) rfl rfl ?_ ?_
      · exact (h.conns p peer hpeer).deliver peer.broken true List.prefix_rfl
          (h.conns p peer hpeer).delivered
      · exact (h.streams _ s hs).free fun here => absurd here gone

end StreamInv

/-! ## The condition on a run -/

/-- The next frame of the one epoch a connection sends. -/
def Conn.Next (conn : Conn) (e : Envelope) : Prop :=
  e.sequence = conn.received.length ∧ (e.kind = .peerReady ↔ conn.received = []) ∧
    ∀ f ∈ conn.received, f.sourceEpoch = e.sourceEpoch

instance (conn : Conn) (e : Envelope) : Decidable (conn.Next e) :=
  inferInstanceAs (Decidable (_ ∧ _ ∧ _))

/-- Each connection sends one well-formed epoch. -/
def SendsEpochs (w : World) : Label → Prop
  | .receive c frame => ∀ conn ∈ w.conns[c]?, ∀ e ∈ frame.toOption, conn.Next e
  | _ => True

instance (w : World) : (l : Label) → Decidable (SendsEpochs w l)
  | .receive c _ => inferInstanceAs (Decidable (∀ conn ∈ w.conns[c]?, _))
  | .arrive _ | .connect .. | .vacate _ | .observeReset _ | .drop _ | .handle .. | .leave ..
  | .unregister _ | .disconnect _ => inferInstanceAs (Decidable True)

/-- A connection that was handed nothing sends only what the relay retains. A seat is taken
in the registered session, and a frame handled for the connection that holds its seat. No
exception of another class escapes a section, and no connection that sent nothing is lost
while its gate still stands at an earlier epoch and the other seat is taken. -/
def RetainsEnough (lib : Library) (w : World) : Label → Prop
  | .connect c _ => ∀ conn ∈ w.conns[c]?, w.registered = some conn.session
  | .receive c frame => ∀ conn ∈ w.conns[c]?, ∀ e ∈ frame.toOption,
      V2Session.keeps e.kind = true ∨ conn.delivered ≠ []
  | .handle c _ _ => ∀ conn ∈ w.conns[c]?, ∀ s ∈ w.sessions[conn.session]?,
      ∀ e ∈ conn.handler.frame?, s.peers.get conn.seat = some c ∧
        (e.kind = .sideReady → lib.decodeSideReady e.payload ≠ .error .uncaught)
  | .leave c sent => ∀ conn ∈ w.conns[c]?, ∀ s ∈ w.sessions[conn.session]?,
      s.peers.get conn.seat = some c → (s.peers.get conn.seat.peer).isSome →
        (s.gates.get conn.seat).epoch ≠ none → conn.received ≠ [] ∧ sent ≠ .raised
  | _ => True

instance (lib : Library) (w : World) : (l : Label) → Decidable (RetainsEnough lib w l)
  | .connect c _ | .receive c _ | .handle c .. | .leave c _ =>
    inferInstanceAs (Decidable (∀ conn ∈ w.conns[c]?, _))
  | .arrive _ | .vacate _ | .observeReset _ | .drop _ | .unregister _ | .disconnect _ =>
    inferInstanceAs (Decidable True)

def OneEpoch (lib : Library) (w : World) (l : Label) : Prop :=
  SendsEpochs w l ∧ RetainsEnough lib w l

instance (lib : Library) (w : World) (l : Label) : Decidable (OneEpoch lib w l) :=
  inferInstanceAs (Decidable (_ ∧ _))

theorem ConnSound.receive {attemptId : String} {conn : Conn} (h : ConnSound attemptId conn)
    {e : Envelope} (receiving : conn.handler = .receiving)
    (identity : e.attemptId = attemptId ∧ e.sourceSeat = conn.seat) (next : conn.Next e)
    (keeps : V2Session.keeps e.kind = true ∨ conn.delivered ≠ []) :
    ConnSound attemptId { conn with handler := .holding e, received := conn.received ++ [e] } := by
  obtain ⟨hsequence, hstart, hepoch⟩ := next
  have hwhole := h.whole (.inl receiving)
  obtain ⟨epoch, hstream⟩ := h.stream
  refine
    { h with
      stream := ⟨e.sourceEpoch, ?_⟩
      passed := h.passed.trans (List.prefix_append _ _)
      whole := fun hw => by simp at hw
      holding := fun f hf => by
        cases hf
        simp [hwhole]
      unheard := fun hnil f hf => ?_
      silent := fun hnot => by simp [h.started receiving] at hnot
      started := fun hr => by simp at hr
      waiting := fun hw => by simp at hw }
  · have hprior : Epoch attemptId conn.seat e.sourceEpoch conn.received :=
      { hstream with epoch := hepoch }
    refine hprior.snoc identity.1 identity.2 rfl hsequence (hstart.trans ?_)
    rw [List.length_eq_zero_iff]
  · rcases List.mem_append.mp hf with hf | hf
    · exact h.unheard hnil f hf
    · obtain rfl := List.mem_singleton.mp hf
      exact keeps.resolve_right fun hsome => hsome hnil

/-! ## The steps -/

namespace StreamInv

variable {lib : Library} {attemptId : String} {w w' : World}

/-- A new connection, in the registered session or in a new one. -/
theorem arrive (h : StreamInv attemptId w) (seat : SourceSeat) :
    StreamInv attemptId (w.arrive attemptId seat) := by
  have hconns : ∀ (i : SessionId) (d : ConnId) (x : Conn),
      (w.conns ++ [Conn.fresh seat i])[d]? = some x → ConnSound attemptId x := by
    intro i d x hx
    rw [List.getElem?_append] at hx
    split at hx
    · exact h.conns d x hx
    · rw [List.getElem?_singleton] at hx
      split at hx <;> cases hx
      exact .fresh seat i
  unfold World.arrive
  split
  · rename_i j hfound
    refine ⟨hconns j, fun i s hs => (h.seated i s hs).append _, fun i s hs => ?_⟩
    rw [holders_append (h.seated i s hs)]
    exact h.streams i s hs
  · rename_i hnone
    refine ⟨hconns _, fun i s hs => ?_, fun i s hs => ?_⟩
    all_goals
      simp only at hs
      rw [List.getElem?_append] at hs
      split at hs
    · exact (h.seated i s hs).append _
    · rw [List.getElem?_singleton] at hs
      split at hs <;> cases hs
      intro seat' c hc
      cases seat' <;> cases hc
    · rename_i hlt
      rw [holders_append (h.seated i s hs)]
      refine (h.streams i s hs).mono fun here => ?_
      exact absurd (Option.some.inj here) (Nat.ne_of_gt hlt)
    · rw [List.getElem?_singleton] at hs
      split at hs <;> cases hs
      refine .vacant (fun seat' => ?_) fun _ seat' => ?_
      · cases seat' <;> rfl
      · cases seat' <;> rfl

/-- The two holders of a session are different connections. -/
theorem other_holder (h : StreamInv attemptId w) {c p : ConnId} {conn peer : Conn} {s : V2Session}
    {f : Conn → Conn} (hc : w.conns[c]? = some conn) (hs : w.sessions[conn.session]? = some s)
    (present : s.peers.get conn.seat.peer = some p) (hp : (w.conns.modify c f)[p]? = some peer) :
    c ≠ p ∧ w.conns[p]? = some peer ∧ peer.seat = conn.seat.peer ∧ peer.session = conn.session := by
  obtain ⟨x, hx, hseat, hsession, -⟩ := h.seated _ s hs _ p present
  have hne : c ≠ p := by
    rintro rfl
    rw [hc, Option.some.injEq] at hx
    exact SourceSeat.peer_ne _ (hseat.symm.trans (by rw [hx]))
  rw [List.getElem?_modify_ne _ _ hne] at hp
  rw [hx, Option.some.injEq] at hp
  subst hp
  exact ⟨hne, hx, hseat, hsession⟩

theorem disconnect (h : StreamInv attemptId w) {i : SessionId} (gone : w.registered ≠ some i) :
    StreamInv attemptId (({ w with disconnecting := w.disconnecting.erase i }.evict i
      .memberA).evict i .memberB) := by
  have herased : StreamInv attemptId { w with disconnecting := w.disconnecting.erase i } :=
    ⟨h.conns, h.seated, h.streams⟩
  refine (herased.evict gone .memberA).evict ?_ .memberB
  rw [evict_registered]
  exact gone

theorem step {l : Label} (h : StreamInv attemptId w) (hdetached : Detached w)
    (hg : OneEpoch lib w l) (hstep : w.step lib attemptId l = some w') :
    StreamInv attemptId w' := by
  cases step_section hstep with
  | arriveFound seat | arriveNew seat => exact Option.some.inj hstep ▸ h.arrive seat
  | taken replay hc hs arriving busy =>
    exact h.goto hc rfl (.inl rfl) rfl (by simp) (by simp) (by simp)
      (by simp [arriving, Handler.doomed])
  | joined hc hs arriving free =>
    rename_i c conn s
    have hsound := h.conns c conn hc
    refine h.take hc hs arriving free (hg.2 conn hc) rfl rfl rfl ⟨rfl, rfl, by simp⟩ rfl
      (fun _ => rfl) fun hreplay => ?_
    have hsilent := hsound.silent (hsound.waiting (.inl arriving))
    exact
      { hsound with
        whole := fun _ => by rw [hsilent, hsound.passed_nil (hsound.waiting (.inl arriving))]
        holding := fun e he => by cases he
        unheard := fun _ e he => by simp [hsilent] at he
        silent := fun hnot => by simp at hnot
        waiting := fun hw => by simp at hw
        started := fun _ => rfl
        delivered := fun _ => hreplay }
  | replayFailed count broken hc hs arriving free =>
    rename_i c conn s
    have hsound := h.conns c conn hc
    have hunreplayed := hsound.waiting (.inl arriving)
    refine h.take hc hs arriving free (hg.2 conn hc) rfl rfl rfl ⟨rfl, rfl, by simp⟩ rfl
      (fun hreplayed => by simp [hunreplayed] at hreplayed) fun _ => ?_
    exact
      { hsound with
        whole := fun hw => by simp at hw
        holding := fun e he => by cases he
        unheard := fun _ e he => by simp [hsound.silent hunreplayed] at he
        waiting := fun _ => hunreplayed
        started := fun hr => by cases hr
        delivered := fun hreplayed => by simp [hunreplayed] at hreplayed }
  | replayDied count hc hs arriving free =>
    rename_i c conn s
    have hsound := h.conns c conn hc
    have hunreplayed := hsound.waiting (.inl arriving)
    refine h.take hc hs arriving free (hg.2 conn hc) rfl rfl rfl ⟨rfl, rfl, by simp⟩ rfl
      (fun hreplayed => by simp [hunreplayed] at hreplayed) fun _ => ?_
    exact
      { hsound with
        whole := fun hw => by simp at hw
        holding := fun e he => by cases he
        unheard := fun _ e he => by simp [hsound.silent hunreplayed] at he
        waiting := fun _ => hunreplayed
        started := fun hr => by cases hr
        delivered := fun hreplayed => by simp [hunreplayed] at hreplayed }
  | vacated hc hs failed holder =>
    rename_i c conn s
    have hsound := h.conns c conn hc
    have hunreplayed := hsound.waiting (.inr failed)
    refine h.giveBack hc hs rfl (.inl rfl) rfl rfl (hsound.goto (by simp) (by simp) (by simp)) ?_
    refine (h.streams _ s hs).free ((h.streams _ s hs).said_nothing ?_ hunreplayed
      (hsound.passed_nil hunreplayed))
    simp [holders_get, holder, hc]
  | vacatedLate hc hs failed evicted =>
    exact h.goto hc rfl (.inl rfl) rfl (by simp) (by simp) (by simp)
      (by simp [failed, Handler.doomed])
  | received hc receiving live identity =>
    rename_i c conn e
    exact h.modify hc rfl (.inl rfl) rfl
      ⟨rfl, rfl, ⟨rfl, rfl, rfl, rfl⟩, by simp⟩ (by simp [receiving, Handler.doomed])
      ((h.conns c conn hc).receive receiving identity (hg.1 conn hc e rfl) (hg.2 conn hc e rfl))
  | rejected frame code hc receiving =>
    exact h.goto hc rfl (.inl rfl) rfl (by simp) (by simp) (by simp) (by simp [Handler.doomed])
  | resetSeen hc receiving | dropped hc receiving =>
    exact h.goto hc rfl (.inl rfl) rfl (by simp) (by simp)
      (fun _ => (h.conns _ _ hc).whole (.inl receiving)) (by simp [receiving, Handler.doomed])
  | raised admitted sent hc hs holding raises =>
    rename_i c conn s s' e error
    obtain ⟨hold, hdecodes⟩ := hg.2 conn hc s hs e (by simp [holding, Handler.frame?])
    refine h.raised hc hs hold holding raises ?_ rfl rfl rfl
    cases error with
    | contract => rfl
    | uncaught =>
      obtain ⟨hkind, hdecode⟩ := V2Session.handle_uncaught raises
      exact absurd hdecode (hdecodes hkind)
  | kept admitted sent hc hs holding passes alone =>
    rename_i c conn s s' e
    obtain ⟨hold, -⟩ := hg.2 conn hc s hs e (by simp [holding, Handler.frame?])
    rw [(V2Session.handle_beside passes).peers] at alone
    exact h.kept hc hs hold holding passes alone rfl rfl rfl
  | forwarded admitted sent hc hs holding passes present hp =>
    rename_i c p conn peer s s' e
    obtain ⟨hold, -⟩ := hg.2 conn hc s hs e (by simp [holding, Handler.frame?])
    rw [(V2Session.handle_beside passes).peers] at present
    refine h.forwarded hc hs hold holding passes present hp ?_ rfl rfl rfl
    split
    · exact .inl rfl
    · exact .inr rfl
  | leftLate sent hc hs leaving evicted =>
    exact h.goto hc rfl (.inl rfl) rfl (by simp) (by simp) (by simp)
      (by simp [leaving, Handler.doomed])
  | leftFatalLate sent hc hs leaving evicted =>
    refine h.goto hc rfl (.inr rfl) rfl (by simp) (by simp) (by simp) fun _ => .inr fun s' hs' => ?_
    rw [hs, Option.some.injEq] at hs'
    exact hs' ▸ evicted
  | leftFatal sent hc hs leaving holder =>
    rename_i c conn s code
    refine h.giveBack hc hs rfl (.inr rfl) rfl rfl
      ((h.conns c conn hc).goto (by simp) (by simp) (by simp)) ?_
    exact ((h.streams _ s hs).mono fun here => by simp at here).free fun here => by simp at here
  | leftUnregistered sent hc hs leaving holder gone =>
    rename_i c conn s
    refine h.giveBack hc hs rfl (.inl rfl) rfl rfl
      ((h.conns c conn hc).goto (by simp) (by simp) (by simp)) ?_
    exact (h.streams _ s hs).free fun here => absurd here gone
  | leftAlone sent hc hs leaving holder here alone =>
    rename_i c conn s
    refine h.giveBack hc hs rfl (.inl rfl) rfl rfl
      ((h.conns c conn hc).goto (by simp) (by simp) (by simp)) (.vacant (fun seat => ?_) (by simp))
    rcases SourceSeat.eq_or_peer conn.seat seat with rfl | rfl
    · simp
    · simp [holders_get, alone]
  | leftSilent sent hc hs leaving holder here present hp silent =>
    rename_i c p conn peer s
    obtain ⟨hne, hp, -, hsession⟩ := h.other_holder hc hs present hp
    have hpsound := h.conns p peer hp
    exact h.resetBoth hc hp hne hsession rfl (.inl rfl)
      (fun seat => by rcases SourceSeat.eq_or_peer conn.seat seat with rfl | rfl <;> simp) (by simp)
      rfl ((h.conns c conn hc).goto (by simp) (by simp) (by simp))
      (hpsound.deliver peer.broken true List.prefix_rfl hpsound.delivered)
  | leftRaised hc hs leaving holder here present hp spoke =>
    rename_i c p conn peer s epoch
    obtain ⟨-, hnot⟩ := hg.2 conn hc s hs holder (by simp [present]) (by simp [spoke])
    exact absurd rfl hnot
  | leftClosing sent hc hs leaving holder here present hp spoke =>
    rename_i c p conn peer s epoch
    obtain ⟨hne, hp, hseat, hsession⟩ := h.other_holder hc hs present hp
    obtain ⟨hspoke, -⟩ := hg.2 conn hc s hs holder (by simp [present]) (by simp [spoke])
    refine h.resetBoth hc hp hne hsession rfl (.inl rfl)
      (fun seat => by rcases SourceSeat.eq_or_peer conn.seat seat with rfl | rfl <;> simp) (by simp)
      rfl ((h.conns c conn hc).goto (by simp) (by simp) (by simp)) ?_
    -- The receiver was handed what passed; the `PEER_CLOSE` is the next frame.
    have hconn : (holders w.conns s.peers).get conn.seat = some conn := by
      simp [holders_get, holder, hc]
    have hpeer : (holders w.conns s.peers).get conn.seat.peer = some peer := by
      simp [holders_get, present, hp]
    have hstreams := h.streams _ s hs
    obtain ⟨epoch', hclosed⟩ :=
      hstreams.closes hconn (h.conns c conn hc) rfl leaving hspoke spoke
    obtain ⟨broken, delivered, hsend, hgrows⟩ := send_same peer
      (V2Session.closeEnvelope attemptId conn.seat (s.gates.get conn.seat) epoch) sent
    have hstream : peer.replayed = true → _ := fun hreplayed =>
      send_stream (V2Session.closeEnvelope attemptId conn.seat (s.gates.get conn.seat) epoch) sent
        (hstreams.pair _ conn peer hconn hpeer hreplayed)
    rw [hsend] at hstream ⊢
    refine (h.conns p peer hp).deliver broken true hgrows fun hreplayed => ⟨epoch', ?_⟩
    rw [hseat, SourceSeat.peer_peer]
    exact hclosed.of_prefix (hstream hreplayed).1
  | unregistered i made =>
    exact ⟨h.conns, h.seated, fun j s hs => (h.streams j s hs).mono fun here => by simp at here⟩
  | disconnected pending hs =>
    rename_i i s
    have hevicted := h.disconnect (hdetached i pending).1
    have hstreams := hevicted.streams i s hs
    have hgone : ∀ {p : Prop}, w.registered = some i → p := fun here =>
      absurd here (hdetached i pending).1
    refine hevicted.update rfl (.inl rfl) (fun d x hx _ => hx) hevicted.conns
      (hevicted.seated i s hs) ⟨hstreams.gate, hstreams.pair, fun here => ?_, fun here => ?_⟩
    · exact hgone (by simpa using here)
    · exact hgone (by simpa using here)
  | disconnectedNone pending hs => exact h.disconnect (hdetached _ pending).1

end StreamInv

/-- In every run that keeps to `OneEpoch`, on every connection whose retained replay went
through, the frames the relay delivered are accepted in full by a fresh gate for the other
seat. -/
theorem delivered_accepted {lib : Library} {attemptId : String} {w : World}
    (h : (system lib attemptId).Reachable (OneEpoch lib) w) {c : ConnId} {conn : Conn}
    (hc : w.conns[c]? = some conn) (replayed : conn.replayed = true) :
    ∃ gate, (SequenceGate.fresh attemptId conn.seat.peer).acceptAll conn.delivered = .ok gate := by
  have hinv : StreamInv attemptId w ∧ Detached w := by
    refine System.Reachable.invariant (P := fun w => StreamInv attemptId w ∧ Detached w)
      (fun w hw => ?_) (fun w l w' h hg hn => ⟨h.1.step h.2 hg hn, h.2.step hn⟩) h
    obtain rfl : w = .empty := hw
    exact ⟨.empty, fun i hi => by simp [World.empty] at hi⟩
  obtain ⟨epoch, hdelivered⟩ := (hinv.1.conns c conn hc).delivered replayed
  exact ⟨_, hdelivered.accepts⟩

/-! Two clients probe each other; then the first is lost. -/

/-- The 32 bytes of a probe. -/
def probeBytes : Bytes := ascii "0123456789abcdef0123456789abcdef"

def bothProbe : List Label :=
  clientSends 0 .memberA 0 .peerReady [] ++ clientSends 1 .memberB 0 .peerReady [] ++
    clientSends 0 .memberA 1 .probeChallenge probeBytes

def loses (c : ConnId) : List Label := [.drop c, .leave c .delivered]

theorem delivered_accepted_close :
    ∃ w conn gate, System.play (World.step clientLibrary "attempt") (OneEpoch clientLibrary) .empty
        (bothConnect ++ bothProbe ++ loses 0) = some w ∧ w.conns[1]? = some conn ∧
      conn.delivered.map Envelope.kind = [.peerReady, .probeChallenge, .peerClose] ∧
      (SequenceGate.fresh "attempt" .memberA).acceptAll conn.delivered = .ok gate := by
  obtain ⟨w, hw, hp⟩ := (Option.any_eq_true _ _).mp
    (show (System.play (World.step clientLibrary "attempt") (OneEpoch clientLibrary) .empty
      (bothConnect ++ bothProbe ++ loses 0)).any (fun w => w.conns[1]?.any fun conn =>
        conn.seat = .memberB && conn.replayed &&
          conn.delivered.map Envelope.kind = [.peerReady, .probeChallenge, .peerClose])
      by decide +kernel)
  obtain ⟨conn, hconn, hp⟩ := (Option.any_eq_true _ _).mp hp
  simp only [Bool.and_eq_true, decide_eq_true_eq] at hp
  obtain ⟨⟨hseat, hreplayed⟩, hkinds⟩ := hp
  obtain ⟨gate, haccepts⟩ := delivered_accepted (reachable_of_play hw) hconn hreplayed
  rw [hseat] at haccepts
  exact ⟨w, conn, gate, hw, hconn, hkinds, haccepts⟩

/-- A challenge sent before the other seat is taken is not retained, and the stream that
follows has a gap. -/
theorem early_probe_leaves_gap :
    ¬ ∀ (lib : Library) (attemptId : String) (w : World) (c : ConnId) (conn : Conn),
      (system lib attemptId).Reachable SendsEpochs w → w.conns[c]? = some conn →
      conn.replayed = true →
      ∃ gate, (SequenceGate.fresh attemptId conn.seat.peer).acceptAll conn.delivered =
        .ok gate := by
  intro h
  obtain ⟨w, hw, hp⟩ := (Option.any_eq_true _ _).mp
    (show (System.play (World.step clientLibrary "attempt") SendsEpochs .empty
      ([.arrive .memberA, .connect 0 .complete] ++ clientSends 0 .memberA 0 .peerReady [] ++
        clientSends 0 .memberA 1 .probeChallenge probeBytes ++
        [.arrive .memberB, .connect 1 .complete] ++
        clientSends 0 .memberA 2 .probeResponse probeBytes)).any (fun w =>
          w.conns[1]?.any fun conn => conn.replayed &&
            ((SequenceGate.fresh "attempt" conn.seat.peer).acceptAll
              conn.delivered).toOption.isNone)
      by decide +kernel)
  obtain ⟨conn, hconn, hp⟩ := (Option.any_eq_true _ _).mp hp
  simp only [Bool.and_eq_true] at hp
  obtain ⟨hreplayed, hgap⟩ := hp
  obtain ⟨gate, haccepts⟩ :=
    h clientLibrary "attempt" w 1 conn (reachable_of_play hw) hconn hreplayed
  rw [haccepts] at hgap
  cases hgap

/-- A frame taken before its connection was evicted is still handed to the next connection of
the other seat. -/
example : (System.play (World.step clientLibrary "attempt") SendsEpochs .empty
    (bothConnect ++ bothProbe ++
      [.receive 0 (.ok
        { attemptId := "attempt", sourceSeat := .memberA, sourceEpoch := 7, sequence := 2
          kind := .probeResponse, payload := probeBytes })] ++ loses 1 ++
      [.arrive .memberB, .connect 2 .complete,
        .handle 0 (clientAdmitted .memberA) .delivered])).any (fun w => w.conns[2]?.any fun conn =>
      conn.delivered.map Envelope.sequence = [2]) := by
  decide +kernel

end SwitchTrade.Relay

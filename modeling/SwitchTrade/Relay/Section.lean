import SwitchTrade.Relay.World
import Mathlib.Data.List.Basic

/-!
# The branches of the sections

`Section` lists every branch of every section of `World.lean` with what it had checked and
the world it leaves; `step_section` says that there are no others. The invariants of the
relay are proved from this list.
-/

namespace SwitchTrade.Relay

open Tunnel

variable (lib : Library) (attemptId : String)

/-- The branches of the sections, for a handler `conn` at `c` of the session `s`. -/
inductive Section (w : World) : Label → World → Prop
  /-- `get` finds the session of the attempt. -/
  | arriveFound (seat : SourceSeat) (i : SessionId) (found : w.registered = some i) :
      Section w (.arrive seat) { w with conns := w.conns ++ [.fresh seat i] }
  /-- `get` makes a session and registers it. -/
  | arriveNew (seat : SourceSeat) (none_ : w.registered = none) :
      Section w (.arrive seat)
        { w with
          sessions := w.sessions ++ [.new attemptId]
          registered := some w.sessions.length
          conns := w.conns ++ [.fresh seat w.sessions.length] }
  /-- Another handler holds the seat; nothing is freed, for this one never held it. -/
  | taken {c : ConnId} {conn : Conn} {s : V2Session} (replay : Replay)
      (hc : w.conns[c]? = some conn)
      (hs : w.sessions[conn.session]? = some s) (arriving : conn.handler = .arriving)
      (busy : (s.peers.get conn.seat).isSome) : Section w (.connect c replay) (w.goto c .ended)
  /-- The seat is taken and all the retained frames of the peer are sent before the lock is left. -/
  | joined {c : ConnId} {conn : Conn} {s : V2Session} (hc : w.conns[c]? = some conn)
      (hs : w.sessions[conn.session]? = some s) (arriving : conn.handler = .arriving)
      (free : s.peers.get conn.seat = none) :
      Section w (.connect c .complete)
        ((w.setSession conn.session (s.take conn.seat c)).modifyConn c fun x =>
          { x with
            handler := .receiving, replayed := true
            delivered := s.retained.get conn.seat.peer })
  /-- A replayed send raises what the handler catches: the seat stays its own until `vacate`. -/
  | replayFailed {c : ConnId} {conn : Conn} {s : V2Session} (count : Nat) (broken : Bool)
      (hc : w.conns[c]? = some conn) (hs : w.sessions[conn.session]? = some s)
      (arriving : conn.handler = .arriving) (free : s.peers.get conn.seat = none) :
      Section w (.connect c (.fails count broken))
        ((w.setSession conn.session (s.take conn.seat c)).modifyConn c fun x =>
          { x with
            handler := .replayFailed, broken
            delivered := (s.retained.get conn.seat.peer).take count })
  /-- It raises anything else: the handler ends, and nobody gives the seat back. -/
  | replayDied {c : ConnId} {conn : Conn} {s : V2Session} (count : Nat)
      (hc : w.conns[c]? = some conn) (hs : w.sessions[conn.session]? = some s)
      (arriving : conn.handler = .arriving) (free : s.peers.get conn.seat = none) :
      Section w (.connect c (.dies count))
        (((w.setSession conn.session (s.take conn.seat c)).modifyConn c fun x =>
          { x with
            handler := .ended, broken := true
            delivered := (s.retained.get conn.seat.peer).take count }).note
          (.lost conn.session conn.seat))
  /-- After a failed replay the seat is given back. -/
  | vacated {c : ConnId} {conn : Conn} {s : V2Session} (hc : w.conns[c]? = some conn)
      (hs : w.sessions[conn.session]? = some s) (failed : conn.handler = .replayFailed)
      (holder : s.peers.get conn.seat = some c) :
      Section w (.vacate c)
        (((w.setSession conn.session (s.free conn.seat)).goto c .ended).note
          (.lost conn.session conn.seat))
  /-- Somebody else evicted the handler first. -/
  | vacatedLate {c : ConnId} {conn : Conn} {s : V2Session} (hc : w.conns[c]? = some conn)
      (hs : w.sessions[conn.session]? = some s) (failed : conn.handler = .replayFailed)
      (evicted : s.peers.get conn.seat ≠ some c) : Section w (.vacate c) (w.goto c .ended)
  /-- A frame of the seat is held until the next section. -/
  | received {c : ConnId} {conn : Conn} {e : Envelope} (hc : w.conns[c]? = some conn)
      (receiving : conn.handler = .receiving) (live : conn.reset = false)
      (identity : e.attemptId = attemptId ∧ e.sourceSeat = conn.seat) :
      Section w (.receive c (.ok e))
        (w.modifyConn c fun conn =>
          { conn with handler := .holding e, received := conn.received ++ [e] })
  /-- What does not decode, or is not of the seat, closes the session. -/
  | rejected {c : ConnId} {conn : Conn} (frame : Except TunnelV2Error Envelope) (code : String)
      (hc : w.conns[c]? = some conn) (receiving : conn.handler = .receiving) :
      Section w (.receive c frame) (w.goto c (.leaving (some code)))
  /-- The handler sees that it was reset. -/
  | resetSeen {c : ConnId} {conn : Conn} (hc : w.conns[c]? = some conn)
      (receiving : conn.handler = .receiving) (reset : conn.reset = true) :
      Section w (.observeReset c) (w.goto c (.leaving none))
  /-- The connection ends. -/
  | dropped {c : ConnId} {conn : Conn} (hc : w.conns[c]? = some conn)
      (receiving : conn.handler = .receiving) : Section w (.drop c) (w.goto c (.leaving none))
  /-- `handle` raises, with a fatal code or without; what it changed stays. -/
  | raised {c : ConnId} {conn : Conn} {s s' : V2Session} {e : Envelope} {error : FrameError}
      (admitted : Admitted) (sent : Sent) (hc : w.conns[c]? = some conn)
      (hs : w.sessions[conn.session]? = some s) (holding : conn.handler = .holding e)
      (raises : s.handle lib attemptId conn.seat admitted e = .error (error, s')) :
      Section w (.handle c admitted sent)
        ((w.setSession conn.session s').goto c (.leaving error.fatalCode))
  /-- The frame passes and there is no peer to send it to. -/
  | kept {c : ConnId} {conn : Conn} {s s' : V2Session} {e : Envelope} (admitted : Admitted)
      (sent : Sent) (hc : w.conns[c]? = some conn) (hs : w.sessions[conn.session]? = some s)
      (holding : conn.handler = .holding e)
      (passes : s.handle lib attemptId conn.seat admitted e = .ok s')
      (alone : s'.peers.get conn.seat.peer = none) :
      Section w (.handle c admitted sent)
        (((w.setSession conn.session s').note (.accepted conn.session conn.seat e)).pass c e
          .receiving)
  /-- The frame passes and is sent to the peer, which may fail. -/
  | forwarded {c p : ConnId} {conn peer : Conn} {s s' : V2Session} {e : Envelope}
      (admitted : Admitted) (sent : Sent) (hc : w.conns[c]? = some conn)
      (hs : w.sessions[conn.session]? = some s) (holding : conn.handler = .holding e)
      (passes : s.handle lib attemptId conn.seat admitted e = .ok s')
      (present : s'.peers.get conn.seat.peer = some p) (hp : w.conns[p]? = some peer) :
      Section w (.handle c admitted sent)
        (((((w.setSession conn.session s').note (.accepted conn.session conn.seat e)).modifyConn p
          fun _ => (peer.send e sent).1).note (.forwarded conn.session conn.seat e)).pass c e
          (if (peer.send e sent).2 then .receiving else .leaving none))
  /-- The handler no longer holds the seat and has no code: nobody is told. -/
  | leftLate {c : ConnId} {conn : Conn} {s : V2Session} (sent : Sent)
      (hc : w.conns[c]? = some conn) (hs : w.sessions[conn.session]? = some s)
      (leaving : conn.handler = .leaving none) (evicted : s.peers.get conn.seat ≠ some c) :
      Section w (.leave c sent) (w.goto c .ended)
  /-- The same with a fatal code, which takes the session off the registry all the same. -/
  | leftFatalLate {c : ConnId} {conn : Conn} {s : V2Session} {code : String} (sent : Sent)
      (hc : w.conns[c]? = some conn) (hs : w.sessions[conn.session]? = some s)
      (leaving : conn.handler = .leaving (some code)) (evicted : s.peers.get conn.seat ≠ some c) :
      Section w (.leave c sent) ((w.goto c .ended).detach conn.session)
  /-- The seat is freed and the session leaves the registry; it is closed later. -/
  | leftFatal {c : ConnId} {conn : Conn} {s : V2Session} {code : String} (sent : Sent)
      (hc : w.conns[c]? = some conn) (hs : w.sessions[conn.session]? = some s)
      (leaving : conn.handler = .leaving (some code)) (holder : s.peers.get conn.seat = some c) :
      Section w (.leave c sent)
        ((((w.goto c .ended).note (.lost conn.session conn.seat)).setSession conn.session
          (s.free conn.seat)).detach conn.session)
  /-- The seat is freed; the session is no longer the one of the registry. -/
  | leftUnregistered {c : ConnId} {conn : Conn} {s : V2Session} (sent : Sent)
      (hc : w.conns[c]? = some conn) (hs : w.sessions[conn.session]? = some s)
      (leaving : conn.handler = .leaving none) (holder : s.peers.get conn.seat = some c)
      (gone : w.registered ≠ some conn.session) :
      Section w (.leave c sent)
        (((w.goto c .ended).note (.lost conn.session conn.seat)).setSession conn.session
          (s.free conn.seat))
  /-- The seat is freed and what the session retains is forgotten; there is no peer to tell. -/
  | leftAlone {c : ConnId} {conn : Conn} {s : V2Session} (sent : Sent)
      (hc : w.conns[c]? = some conn) (hs : w.sessions[conn.session]? = some s)
      (leaving : conn.handler = .leaving none) (holder : s.peers.get conn.seat = some c)
      (here : w.registered = some conn.session) (alone : s.peers.get conn.seat.peer = none) :
      Section w (.leave c sent)
        (((w.goto c .ended).note (.lost conn.session conn.seat)).setSession conn.session
          (s.free conn.seat).forget)
  /-- The seat never spoke: the peer is reset without a word. -/
  | leftSilent {c p : ConnId} {conn peer : Conn} {s : V2Session} (sent : Sent)
      (hc : w.conns[c]? = some conn) (hs : w.sessions[conn.session]? = some s)
      (leaving : conn.handler = .leaving none) (holder : s.peers.get conn.seat = some c)
      (here : w.registered = some conn.session) (present : s.peers.get conn.seat.peer = some p)
      (hp : (w.goto c .ended).conns[p]? = some peer)
      (silent : (s.gates.get conn.seat).epoch = none) :
      Section w (.leave c sent)
        (((((w.goto c .ended).note (.lost conn.session conn.seat)).setSession conn.session
          ((s.free conn.seat).forget.free conn.seat.peer)).modifyConn p fun peer =>
            { peer with reset := true }).note (.lost conn.session conn.seat.peer))
  /-- The seat spoke, and the close that is sent to the peer raises: the peer keeps its seat. -/
  | leftRaised {c p : ConnId} {conn peer : Conn} {s : V2Session} {epoch : Nat}
      (hc : w.conns[c]? = some conn) (hs : w.sessions[conn.session]? = some s)
      (leaving : conn.handler = .leaving none) (holder : s.peers.get conn.seat = some c)
      (here : w.registered = some conn.session) (present : s.peers.get conn.seat.peer = some p)
      (hp : (w.goto c .ended).conns[p]? = some peer)
      (spoke : (s.gates.get conn.seat).epoch = some epoch) :
      Section w (.leave c .raised)
        ((((w.goto c .ended).note (.lost conn.session conn.seat)).setSession conn.session
          ((s.free conn.seat).forget.closed conn.seat)).modifyConn p fun _ =>
            (peer.send (V2Session.closeEnvelope attemptId conn.seat (s.gates.get conn.seat) epoch)
              .raised).1)
  /-- The seat spoke: the peer is sent a close in its name, and is reset. -/
  | leftClosing {c p : ConnId} {conn peer : Conn} {s : V2Session} {epoch : Nat} (sent : Sent)
      (hc : w.conns[c]? = some conn) (hs : w.sessions[conn.session]? = some s)
      (leaving : conn.handler = .leaving none) (holder : s.peers.get conn.seat = some c)
      (here : w.registered = some conn.session) (present : s.peers.get conn.seat.peer = some p)
      (hp : (w.goto c .ended).conns[p]? = some peer)
      (spoke : (s.gates.get conn.seat).epoch = some epoch) :
      Section w (.leave c sent)
        (((((w.goto c .ended).note (.lost conn.session conn.seat)).setSession conn.session
          (((s.free conn.seat).forget.closed conn.seat).free conn.seat.peer)).modifyConn p fun _ =>
            { (peer.send (V2Session.closeEnvelope attemptId conn.seat (s.gates.get conn.seat) epoch)
                sent).1 with reset := true }).note (.lost conn.session conn.seat.peer))
  /-- Somebody outside takes a session off the registry. -/
  | unregistered (i : SessionId) (made : i < w.sessions.length) :
      Section w (.unregister i) (w.detach i)
  /-- A session off the registry evicts both seats and forgets its frames. -/
  | disconnected {i : SessionId} {s : V2Session} (pending : i ∈ w.disconnecting)
      (hs : (({ w with disconnecting := w.disconnecting.erase i }.evict i .memberA).evict i
        .memberB).sessions[i]? = some s) :
      Section w (.disconnect i)
        ((({ w with disconnecting := w.disconnecting.erase i }.evict i .memberA).evict i
          .memberB).setSession i { s with retained := .both [], retainedBytes := .both 0 })
  /-- The same for a session that is not there, which no run reaches. -/
  | disconnectedNone {i : SessionId} (pending : i ∈ w.disconnecting)
      (hs : (({ w with disconnecting := w.disconnecting.erase i }.evict i .memberA).evict i
        .memberB).sessions[i]? = none) :
      Section w (.disconnect i)
        (({ w with disconnecting := w.disconnecting.erase i }.evict i .memberA).evict i .memberB)

variable {lib attemptId}

section Branches

variable {w w' : World} {c : ConnId}

/-! Each section comes to one of the branches: the cases follow its conditions in order. -/

theorem arrive_section (seat : SourceSeat) :
    Section lib attemptId w (.arrive seat) (w.arrive attemptId seat) := by
  unfold World.arrive
  split
  · rename_i i hfound
    exact .arriveFound seat i hfound
  · rename_i hnone
    exact .arriveNew seat hnone

theorem connect_section {replay : Replay} (h : w.connect c replay = some w') :
    Section lib attemptId w (.connect c replay) w' := by
  simp only [World.connect, Option.bind_eq_bind, Option.bind_eq_some_iff] at h
  obtain ⟨conn, hc, s, hs, h⟩ := h
  split at h
  · cases h
  · rename_i harriving
    have harriving := not_not.mp harriving
    split at h
    · rename_i hbusy
      cases h
      exact .taken replay hc hs harriving hbusy
    · rename_i hfree
      have hfree : s.peers.get conn.seat = none := by simpa using hfree
      cases replay with
      | complete =>
        cases h
        exact .joined hc hs harriving hfree
      | fails count broken =>
        cases h
        exact .replayFailed count broken hc hs harriving hfree
      | dies count =>
        cases h
        exact .replayDied count hc hs harriving hfree

theorem vacate_section (h : w.vacate c = some w') : Section lib attemptId w (.vacate c) w' := by
  simp only [World.vacate, Option.bind_eq_bind, Option.bind_eq_some_iff] at h
  obtain ⟨conn, hc, s, hs, h⟩ := h
  split at h
  · cases h
  · rename_i hfailed
    split at h
    · rename_i hholder
      cases h
      exact .vacated hc hs (not_not.mp hfailed) hholder
    · rename_i hevicted
      cases h
      exact .vacatedLate hc hs (not_not.mp hfailed) hevicted

theorem receive_section {frame : Except TunnelV2Error Envelope}
    (h : w.receive attemptId c frame = some w') :
    Section lib attemptId w (.receive c frame) w' := by
  simp only [World.receive, Option.bind_eq_bind, Option.bind_eq_some_iff] at h
  obtain ⟨conn, hc, h⟩ := h
  split at h
  · cases h
  · rename_i hguard
    simp only [not_or, not_not, Bool.not_eq_true] at hguard
    split at h
    · -- It does not decode.
      cases h
      exact .rejected _ _ hc hguard.1
    · split at h
      · cases h
        exact .rejected _ _ hc hguard.1
      · rename_i hidentity
        cases h
        simp only [not_or, not_not] at hidentity
        exact .received hc hguard.1 hguard.2 hidentity

theorem observeReset_section (h : w.observeReset c = some w') :
    Section lib attemptId w (.observeReset c) w' := by
  simp only [World.observeReset, Option.bind_eq_bind, Option.bind_eq_some_iff] at h
  obtain ⟨conn, hc, h⟩ := h
  split at h
  · cases h
  · rename_i hguard
    simp only [not_or, not_not] at hguard
    cases h
    exact .resetSeen hc hguard.1 hguard.2

theorem drop_section (h : w.drop c = some w') : Section lib attemptId w (.drop c) w' := by
  simp only [World.drop, Option.bind_eq_bind, Option.bind_eq_some_iff] at h
  obtain ⟨conn, hc, h⟩ := h
  split at h
  · cases h
  · rename_i hreceiving
    cases h
    exact .dropped hc (not_not.mp hreceiving)

theorem handle_section {admitted : Admitted} {sent : Sent}
    (h : w.handle lib attemptId c admitted sent = some w') :
    Section lib attemptId w (.handle c admitted sent) w' := by
  simp only [World.handle, Option.bind_eq_bind, Option.bind_eq_some_iff] at h
  obtain ⟨conn, hc, s, hs, h⟩ := h
  split at h
  · rename_i e hholding
    split at h
    · rename_i error s' hraises
      cases h
      exact .raised admitted sent hc hs hholding hraises
    · rename_i s' hpasses
      split at h
      · rename_i halone
        cases h
        exact .kept admitted sent hc hs hholding hpasses halone
      · rename_i p hpresent
        simp only [Option.bind_eq_some_iff] at h
        obtain ⟨peer, hp, h⟩ := h
        cases h
        exact .forwarded admitted sent hc hs hholding hpasses hpresent hp
  · cases h

theorem leave_section {sent : Sent} (h : w.leave attemptId c sent = some w') :
    Section lib attemptId w (.leave c sent) w' := by
  simp only [World.leave, Option.bind_eq_bind, Option.bind_eq_some_iff] at h
  obtain ⟨conn, hc, s, hs, h⟩ := h
  split at h
  · rename_i fatalCode hleaving
    cases fatalCode with
    | some code =>
      -- With a code nobody is reset here: `disconnect` does that.
      split at h
      · rename_i hholder
        cases h
        exact .leftFatal sent hc hs hleaving hholder
      · rename_i hevicted
        cases h
        exact .leftFatalLate sent hc hs hleaving hevicted
    | none =>
      split at h
      · rename_i hholder
        simp only [Option.isSome_none, Bool.false_eq_true, if_false] at h
        split at h
        · rename_i hhere
          -- The peer is told, or there is none.
          unfold World.resetPeer at h
          split at h
          · rename_i halone
            cases h
            have halone : s.peers.get conn.seat.peer = none := by
              simpa [V2Session.forget] using halone
            exact .leftAlone sent hc hs hleaving hholder hhere halone
          · rename_i p hpresent
            have hpresent : s.peers.get conn.seat.peer = some p := by
              simpa [V2Session.forget] using hpresent
            simp only [Option.bind_eq_bind, Option.bind_eq_some_iff] at h
            obtain ⟨peer, hp, h⟩ := h
            split at h
            · rename_i hsilent
              cases h
              exact .leftSilent sent hc hs hleaving hholder hhere hpresent hp hsilent
            · rename_i epoch hspoke
              split at h
              · rename_i hraised
                obtain ⟨rfl, -⟩ := hraised
                cases h
                exact .leftRaised hc hs hleaving hholder hhere hpresent hp hspoke
              · cases h
                exact .leftClosing sent hc hs hleaving hholder hhere hpresent hp hspoke
        · rename_i hgone
          cases h
          exact .leftUnregistered sent hc hs hleaving hholder hgone
      · rename_i hevicted
        cases h
        exact .leftLate sent hc hs hleaving hevicted
  · cases h

theorem disconnect_section {i : SessionId} (h : w.disconnect i = some w') :
    Section lib attemptId w (.disconnect i) w' := by
  unfold World.disconnect at h
  split at h
  · rename_i hpending
    simp only at h
    split at h
    · rename_i hs
      cases h
      exact .disconnectedNone hpending hs
    · rename_i s hs
      cases h
      exact .disconnected hpending hs
  · cases h

/-- The list is complete. -/
theorem step_section {l : Label} (h : w.step lib attemptId l = some w') :
    Section lib attemptId w l w' := by
  cases l with
  | arrive seat =>
    cases h
    exact arrive_section seat
  | connect c replay => exact connect_section h
  | vacate c => exact vacate_section h
  | receive c frame => exact receive_section h
  | observeReset c => exact observeReset_section h
  | drop c => exact drop_section h
  | handle c admitted sent => exact handle_section h
  | leave c sent => exact leave_section h
  | unregister i =>
    simp only [World.step, World.unregister] at h
    split at h
    · rename_i hmade
      cases h
      exact .unregistered i hmade
    · cases h
  | disconnect i => exact disconnect_section h

end Branches

/-! ## The registry -/

/-- The registry keeps its session or loses it. -/
def RegistryStep (w w' : World) : Prop :=
  w'.registered = w.registered ∨ w'.registered = none

/-- What is registered afterwards was registered before. -/
theorem RegistryStep.of_eq {w w' : World} (h : RegistryStep w w') {i : SessionId}
    (here : w'.registered = some i) : w.registered = some i := by
  rcases h with h | h <;> rw [h] at here
  · exact here
  · cases here

theorem RegistryStep.ne {w w' : World} (h : RegistryStep w w') {i : SessionId}
    (gone : w.registered ≠ some i) : w'.registered ≠ some i := fun here => gone (h.of_eq here)

/-- A session that waits to be disconnected has left the registry. -/
def Detached (w : World) : Prop :=
  ∀ i ∈ w.disconnecting, w.registered ≠ some i ∧ i < w.sessions.length

@[simp] theorem evict_registered (w : World) (i : SessionId) (seat : SourceSeat) :
    (w.evict i seat).registered = w.registered := by
  unfold World.evict
  split
  · rfl
  · split <;> rfl

@[simp] theorem evict_disconnecting (w : World) (i : SessionId) (seat : SourceSeat) :
    (w.evict i seat).disconnecting = w.disconnecting := by
  unfold World.evict
  split
  · rfl
  · split <;> rfl

@[simp] theorem evict_length (w : World) (i : SessionId) (seat : SourceSeat) :
    (w.evict i seat).sessions.length = w.sessions.length := by
  unfold World.evict
  split
  · rfl
  · split
    · rfl
    · simp

/-- In every section: a session that newly waits to be disconnected leaves the registry, and
what is newly registered is a new session. -/
theorem Detached.step {w w' : World} {l : Label} (h : Detached w)
    (hstep : w.step lib attemptId l = some w') : Detached w' := by
  -- Most branches touch neither list; the others detach one session.
  have hframe : ∀ {v : World}, v.disconnecting = w.disconnecting → RegistryStep w v →
      v.sessions.length = w.sessions.length → Detached v := by
    intro v hdisconnecting hregistry hlength i hi
    obtain ⟨hgone, hmade⟩ := h i (hdisconnecting ▸ hi)
    exact ⟨hregistry.ne hgone, hlength ▸ hmade⟩
  have hdetach : ∀ {v : World} {j : SessionId}, v.disconnecting = j :: w.disconnecting →
      v.registered = none → j < w.sessions.length → v.sessions.length = w.sessions.length →
      Detached v := by
    intro v j hdisconnecting hregistered hmade hlength i hi
    rw [hdisconnecting] at hi
    refine ⟨by simp [hregistered], ?_⟩
    rw [hlength]
    rcases List.mem_cons.mp hi with rfl | hi
    · exact hmade
    · exact (h i hi).2
  cases step_section hstep with
  | arriveNew seat hnone =>
    intro i hi
    obtain ⟨-, hmade⟩ := h i hi
    refine ⟨fun here => Nat.ne_of_gt hmade (Option.some.inj here), ?_⟩
    simp only [List.length_append, List.length_singleton]
    exact Nat.lt_succ_of_lt hmade
  | leftFatalLate sent hc hs =>
    exact hdetach rfl rfl (List.getElem?_eq_some_iff.mp hs).1 rfl
  | leftFatal sent hc hs =>
    exact hdetach rfl rfl (List.getElem?_eq_some_iff.mp hs).1 (by simp)
  | unregistered i made => exact hdetach rfl rfl made rfl
  | disconnected pending hs | disconnectedNone pending hs =>
    intro i hi
    simp only [World.setSession_disconnecting, evict_disconnecting] at hi
    obtain ⟨hgone, hmade⟩ := h i (List.mem_of_mem_erase hi)
    exact ⟨by simpa using hgone, by simpa using hmade⟩
  | _ => exact hframe rfl (.inl rfl) (by simp)

end SwitchTrade.Relay

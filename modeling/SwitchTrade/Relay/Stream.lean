import SwitchTrade.Relay.Section

/-!
# What the relay delivers on one connection

Each endpoint sends one well-formed epoch on each of its connections. The relay hands a
connection the retained frames of the other seat, then each frame as it passes its section,
then a `PEER_CLOSE` it writes itself. While both seats are taken, what the receiver was
handed is what passed from the sender; while the receiver's seat is empty, what passed is
what is retained. So a fresh gate accepts every connection's frames in full, under the
conditions of `OneEpoch`.
-/

namespace SwitchTrade.Relay

open Tunnel Fallible Transition

/-- The handler left its loop with a fatal code: nothing is said in its name any more. -/
def Handler.doomed : Handler → Bool
  | .leaving fatalCode => fatalCode.isSome
  | _ => false

/-! ## One connection -/

/-- What the relay knows of one connection, whether or not it holds its seat. -/
structure ConnSound (attemptId : String) (conn : Conn) : Prop where
  stream : ∃ epoch, Epoch attemptId conn.seat epoch conn.received
  passed : conn.passed <+: conn.received
  whole : conn.handler = .receiving ∨ conn.handler = .leaving none → conn.passed = conn.received
  holding : ∀ e, conn.handler = .holding e → conn.received = conn.passed ++ [e]
  unheard : conn.delivered = [] → ∀ e ∈ conn.received, V2Session.keeps e.kind = true
  silent : conn.replayed = false → conn.received = []
  waiting : conn.handler = .arriving ∨ conn.handler = .replayFailed → conn.replayed = false
  started : conn.handler = .receiving → conn.replayed = true
  delivered : conn.replayed = true →
    ∃ epoch, Epoch attemptId conn.seat.peer epoch conn.delivered

namespace ConnSound

variable {attemptId : String} {conn : Conn}

theorem fresh (seat : SourceSeat) (i : SessionId) : ConnSound attemptId (.fresh seat i) where
  stream := ⟨0, .nil⟩
  passed := List.prefix_rfl
  whole := fun h => by simp [Conn.fresh] at h
  holding := nofun
  unheard := nofun
  silent := fun _ => rfl
  waiting := fun _ => rfl
  started := nofun
  delivered := nofun

/-- What passed is one epoch of the seat. -/
theorem passed_epoch (h : ConnSound attemptId conn) :
    ∃ epoch, Epoch attemptId conn.seat epoch conn.passed := by
  obtain ⟨epoch, hstream⟩ := h.stream
  obtain ⟨rest, hrest⟩ := h.passed
  exact ⟨epoch, (hrest ▸ hstream).of_append⟩

/-- A handler that never got through its replay passes nothing. -/
theorem passed_nil (h : ConnSound attemptId conn) (silent : conn.replayed = false) :
    conn.passed = [] := by
  have hfollows := h.passed
  rw [h.silent silent] at hfollows
  exact List.prefix_nil.mp hfollows

/-- The handler goes on to a state in which it neither waits for a frame nor holds one. -/
theorem goto (h : ConnSound attemptId conn) {handler : Handler}
    (quiet : handler ≠ .receiving ∧ handler ≠ .replayFailed ∧ handler ≠ .arriving)
    (idle : ∀ e, handler ≠ .holding e)
    (whole : handler = .leaving none → conn.passed = conn.received) :
    ConnSound attemptId { conn with handler } :=
  { h with
    whole := fun hw => hw.elim (fun hr => absurd hr quiet.1) whole
    started := fun hr => absurd hr quiet.1
    waiting := fun hw => hw.elim (fun ha => absurd ha quiet.2.2) fun hf => absurd hf quiet.2.1
    holding := fun e he => absurd he (idle e) }

/-- A frame is handed to the connection, or its socket breaks, or it is reset. -/
theorem deliver (h : ConnSound attemptId conn) {delivered : List Envelope} (broken reset : Bool)
    (grows : conn.delivered <+: delivered)
    (epoch : conn.replayed = true → ∃ epoch, Epoch attemptId conn.seat.peer epoch delivered) :
    ConnSound attemptId { conn with delivered, broken, reset } :=
  { h with
    unheard := fun hnil => h.unheard (List.prefix_nil.mp (hnil ▸ grows))
    delivered := epoch }

/-- A held frame is of the epoch of what passed before, and in its place. -/
theorem held (h : ConnSound attemptId conn) {e : Envelope} (holding : conn.handler = .holding e) :
    e.sequence = conn.passed.length ∧ (∀ f ∈ conn.passed, f.sourceEpoch = e.sourceEpoch) ∧
      conn.replayed = true ∧ (conn.delivered = [] → V2Session.keeps e.kind = true) := by
  have hreceived := h.holding e holding
  obtain ⟨epoch, hstream⟩ := h.stream
  have hmem : e ∈ conn.received := by simp [hreceived]
  refine ⟨?_, fun f hf => ?_, ?_, fun hnil => h.unheard hnil e hmem⟩
  · exact hstream.sequence conn.passed.length e (by simp [hreceived])
  · have hf : f ∈ conn.received := h.passed.subset hf
    rw [hstream.epoch f hf, hstream.epoch e hmem]
  · cases hreplayed : conn.replayed with
    | false => simp [h.silent hreplayed] at hreceived
    | true => rfl

/-- The held frame passes. -/
theorem pass (h : ConnSound attemptId conn) {e : Envelope} (holding : conn.handler = .holding e)
    {handler : Handler} (after : handler = .receiving ∨ handler = .leaving none) :
    ConnSound attemptId { conn with handler, passed := conn.passed ++ [e] } :=
  { h with
    passed := h.holding e holding ▸ List.prefix_rfl
    whole := fun _ => (h.holding e holding).symm
    started := fun _ => (h.held holding).2.2.1
    waiting := fun hw => by rcases after with rfl | rfl <;> simp at hw
    holding := fun f hf => by rcases after with rfl | rfl <;> cases hf }

end ConnSound

/-- What a hand-over does to the stream of the receiver. -/
theorem send_stream {peer : Conn} {passed : List Envelope} (e : Envelope) (sent : Sent)
    (h : peer.delivered <+: passed ∧ (peer.broken = false → peer.delivered = passed)) :
    (peer.send e sent).1.delivered <+: passed ++ [e] ∧
      ((peer.send e sent).1.broken = false → (peer.send e sent).1.delivered = passed ++ [e]) := by
  have hkept : peer.delivered <+: passed ++ [e] := h.1.trans (List.prefix_append _ _)
  unfold Conn.send
  split
  · rename_i hbroken
    exact ⟨hkept, fun hlive => by simp [hbroken] at hlive⟩
  · rename_i hlive
    have hequal := h.2 (Bool.not_eq_true _ ▸ hlive)
    cases sent with
    | delivered | timedOut => simp [hequal]
    | failed | raised => exact ⟨hkept, fun hlive => by simp at hlive⟩

theorem send_same (peer : Conn) (e : Envelope) (sent : Sent) :
    ∃ broken delivered, (peer.send e sent).1 = { peer with broken, delivered } ∧
      peer.delivered <+: delivered := by
  unfold Conn.send
  split
  · exact ⟨peer.broken, peer.delivered, rfl, List.prefix_rfl⟩
  · cases sent with
    | delivered | timedOut => exact ⟨peer.broken, _, rfl, List.prefix_append _ _⟩
    | failed | raised => exact ⟨true, peer.delivered, rfl, List.prefix_rfl⟩

/-! ## One session -/

/-- The connections that hold the seats of a session. -/
abbrev Holders := PerSeat (Option Conn)

/-- The streams between the two holders of a session. -/
structure Streams (registered : Prop) (s : V2Session) (h : Holders) : Prop where
  /-- The gate of a seat stands behind what passed from its holder. -/
  gate : ∀ seat conn, h.get seat = some conn → conn.handler.doomed = false →
    ∀ e ∈ conn.passed, (s.gates.get seat).epoch = some e.sourceEpoch ∧
      (s.gates.get seat).nextSequence = conn.passed.length
  /-- The holder of the other seat was handed what passed, as long as its socket took it. -/
  pair : ∀ seat conn peer, h.get seat = some conn → h.get seat.peer = some peer →
    peer.replayed = true →
      peer.delivered <+: conn.passed ∧ (peer.broken = false → peer.delivered = conn.passed)
  /-- As long as a holder was handed nothing, all that passed from it is retained. -/
  retained : registered → ∀ seat conn, h.get seat = some conn →
    (conn.replayed = true → conn.delivered = []) → s.retained.get seat = conn.passed
  /-- An empty seat has said nothing. -/
  empty : registered → ∀ seat, h.get seat = none → s.retained.get seat = [] ∧
    ∀ peer, h.get seat.peer = some peer → peer.replayed = true → peer.delivered = []

namespace Streams

variable {attemptId : String} {registered : Prop} {s s' : V2Session} {h : Holders}
  {seat : SourceSeat} {conn conn' : Conn}

/-- A session nobody holds a seat of. -/
theorem vacant (nobody : ∀ seat, h.get seat = none)
    (cleared : registered → ∀ seat, s.retained.get seat = []) : Streams registered s h where
  gate := fun seat conn hconn => by simp [nobody] at hconn
  pair := fun seat conn peer hconn => by simp [nobody] at hconn
  retained := fun _ seat conn hconn => by simp [nobody] at hconn
  empty := fun here seat _ => ⟨cleared here seat, fun peer hpeer => by simp [nobody] at hpeer⟩

theorem mono (hs : Streams registered s h) {registered' : Prop} (hr : registered' → registered) :
    Streams registered' s h :=
  { hs with
    retained := fun here => hs.retained (hr here)
    empty := fun here => hs.empty (hr here) }

/-- A seat is given back that has said nothing, or whose session left the registry. -/
theorem free (hs : Streams registered s h) (silent : registered → s.retained.get seat = [] ∧
      ∀ peer, h.get seat.peer = some peer → peer.replayed = true → peer.delivered = []) :
    Streams registered (s.free seat) (h.set seat none) where
  gate := by
    intro seat' conn hconn
    rcases SourceSeat.eq_or_peer seat seat' with rfl | rfl
    · simp at hconn
    · rw [PerSeat.get_set_peer] at hconn
      exact hs.gate _ conn hconn
  pair := by
    intro seat' conn peer hconn hpeer
    rcases SourceSeat.eq_or_peer seat seat' with rfl | rfl
    · simp at hconn
    · simp at hpeer
  retained := by
    intro here seat' conn hconn
    rcases SourceSeat.eq_or_peer seat seat' with rfl | rfl
    · simp at hconn
    · rw [PerSeat.get_set_peer] at hconn
      exact hs.retained here _ conn hconn
  empty := by
    intro here seat' hnone
    rcases SourceSeat.eq_or_peer seat seat' with rfl | rfl
    · refine ⟨(silent here).1, fun peer hpeer => (silent here).2 peer ?_⟩
      rwa [PerSeat.get_set_peer] at hpeer
    · rw [PerSeat.get_set_peer] at hnone
      exact ⟨(hs.empty here _ hnone).1, fun peer hpeer => by simp at hpeer⟩

/-- A holder from which nothing passed has said nothing. -/
theorem said_nothing (hs : Streams registered s h) (hconn : h.get seat = some conn)
    (silent : conn.replayed = false) (hpassed : conn.passed = []) (here : registered) :
    s.retained.get seat = [] ∧
      ∀ peer, h.get seat.peer = some peer → peer.replayed = true → peer.delivered = [] := by
  refine ⟨?_, fun peer hpeer hreplayed => ?_⟩
  · rw [hs.retained here _ conn hconn (by simp [silent]), hpassed]
  · have hfollows := (hs.pair _ conn peer hconn hpeer hreplayed).1
    rw [hpassed] at hfollows
    exact List.prefix_nil.mp hfollows

/-- A seat is taken; the new holder was handed what the other seat has retained, if its
replay went through. -/
theorem take (hs : Streams registered s h) (here : registered) (free : h.get seat = none)
    (c : ConnId) (hpassed : conn.passed = [])
    (hreplay : conn.replayed = true → conn.delivered = s.retained.get seat.peer) :
    Streams registered (s.take seat c) (h.set seat (some conn)) where
  gate := by
    intro seat' conn' hconn' hsound
    rcases SourceSeat.eq_or_peer seat seat' with rfl | rfl
    · rw [PerSeat.get_set, Option.some.injEq] at hconn'
      subst hconn'
      simp [hpassed]
    · rw [PerSeat.get_set_peer] at hconn'
      exact hs.gate _ conn' hconn' hsound
  pair := by
    intro seat' conn' peer hconn' hpeer hreplayed
    rcases SourceSeat.eq_or_peer seat seat' with rfl | rfl
    · -- The other holder was handed nothing yet, and nothing passed from the new one.
      rw [PerSeat.get_set, Option.some.injEq] at hconn'
      rw [PerSeat.get_set_peer] at hpeer
      subst hconn'
      have hnil := (hs.empty here _ free).2 peer hpeer hreplayed
      simp [hnil, hpassed]
    · -- What passed from the other holder is retained, since it was handed nothing.
      rw [PerSeat.get_set_peer] at hconn'
      rw [SourceSeat.peer_peer, PerSeat.get_set, Option.some.injEq] at hpeer
      subst hpeer
      have hall := hs.retained here _ conn' hconn' fun hreplayed' =>
        (hs.empty here _ free).2 conn' hconn' hreplayed'
      have hdelivered := (hreplay hreplayed).trans hall
      exact ⟨hdelivered ▸ List.prefix_rfl, fun _ => hdelivered⟩
  retained := by
    intro _ seat' conn' hconn' hnil
    rcases SourceSeat.eq_or_peer seat seat' with rfl | rfl
    · rw [PerSeat.get_set, Option.some.injEq] at hconn'
      subst hconn'
      rw [V2Session.take_retained, (hs.empty here _ free).1, hpassed]
    · rw [PerSeat.get_set_peer] at hconn'
      exact hs.retained here _ conn' hconn' hnil
  empty := by
    intro _ seat' hnone
    rcases SourceSeat.eq_or_peer seat seat' with rfl | rfl
    · simp at hnone
    · rw [PerSeat.get_set_peer] at hnone
      refine ⟨(hs.empty here _ hnone).1, fun peer hpeer hreplayed => ?_⟩
      rw [SourceSeat.peer_peer, PerSeat.get_set, Option.some.injEq] at hpeer
      subst hpeer
      rw [hreplay hreplayed, (hs.empty here _ hnone).1]

/-- What a frame section does to the holder of the other seat: nothing but a hand-over. -/
structure Handed (peer peer' : Conn) : Prop where
  handler : peer'.handler = peer.handler
  passed : peer'.passed = peer.passed
  replayed : peer'.replayed = peer.replayed
  grows : peer.delivered <+: peer'.delivered

/-- One holder goes on, with a frame that passed or without; the other may be handed it. -/
theorem update {h' : Holders} (hs : Streams registered s h) (hconn : h.get seat = some conn)
    (hconn' : h'.get seat = some conn') (beside : V2Session.SameBeside seat s s')
    (same : conn'.replayed = conn.replayed ∧ conn'.delivered = conn.delivered ∧
      conn'.broken = conn.broken)
    (hpeer : ∀ peer', h'.get seat.peer = some peer' → ∃ peer, h.get seat.peer = some peer ∧
      Handed peer peer' ∧ (peer'.replayed = true → peer'.delivered <+: conn'.passed ∧
        (peer'.broken = false → peer'.delivered = conn'.passed)))
    (alone : h'.get seat.peer = none → h.get seat.peer = none)
    (hgate : conn'.handler.doomed = false → ∀ e ∈ conn'.passed,
      (s'.gates.get seat).epoch = some e.sourceEpoch ∧
        (s'.gates.get seat).nextSequence = conn'.passed.length)
    (hretained : registered → (conn.replayed = true → conn.delivered = []) →
      s'.retained.get seat = conn'.passed) : Streams registered s' h' where
  gate := by
    intro seat' x hx hsound
    rcases SourceSeat.eq_or_peer seat seat' with rfl | rfl
    · rw [hconn', Option.some.injEq] at hx
      subst hx
      exact hgate hsound
    · obtain ⟨peer, hbefore, handed, -⟩ := hpeer x hx
      rw [beside.gate, handed.passed]
      exact hs.gate _ peer hbefore (handed.handler ▸ hsound)
  pair := by
    intro seat' x y hx hy hreplayed
    rcases SourceSeat.eq_or_peer seat seat' with rfl | rfl
    · rw [hconn', Option.some.injEq] at hx
      subst hx
      obtain ⟨-, -, -, hpair⟩ := hpeer y hy
      exact hpair hreplayed
    · obtain ⟨peer, hbefore, handed, -⟩ := hpeer x hx
      rw [SourceSeat.peer_peer, hconn', Option.some.injEq] at hy
      subst hy
      rw [same.2.1, same.2.2, handed.passed]
      exact hs.pair _ peer conn hbefore (by rw [SourceSeat.peer_peer, hconn]) (same.1 ▸ hreplayed)
  retained := by
    intro here seat' x hx hnil
    rcases SourceSeat.eq_or_peer seat seat' with rfl | rfl
    · rw [hconn', Option.some.injEq] at hx
      subst hx
      rw [same.1, same.2.1] at hnil
      exact hretained here hnil
    · obtain ⟨peer, hbefore, handed, -⟩ := hpeer x hx
      rw [beside.retained, handed.passed]
      refine hs.retained here _ peer hbefore fun hreplayed => ?_
      have hgrows := handed.grows
      rw [hnil (handed.replayed ▸ hreplayed)] at hgrows
      exact List.prefix_nil.mp hgrows
  empty := by
    intro here seat' hnone
    rcases SourceSeat.eq_or_peer seat seat' with rfl | rfl
    · simp [hconn'] at hnone
    · obtain ⟨hnil, hheard⟩ := hs.empty here _ (alone hnone)
      refine ⟨by rw [beside.retained, hnil], fun peer hp hreplayed => ?_⟩
      rw [SourceSeat.peer_peer, hconn', Option.some.injEq] at hp
      subst hp
      rw [same.2.1]
      exact hheard conn (by rw [SourceSeat.peer_peer, hconn]) (same.1 ▸ hreplayed)

/-- A holder goes on without a frame that passed. -/
theorem goto (hs : Streams registered s h) (hconn : h.get seat = some conn)
    (same : conn'.passed = conn.passed ∧ conn'.replayed = conn.replayed ∧
      conn'.delivered = conn.delivered ∧ conn'.broken = conn.broken)
    (hdoomed : conn'.handler.doomed = false → conn.handler.doomed = false) :
    Streams registered s (h.set seat (some conn')) := by
  refine hs.update hconn (by simp) .refl same.2 (fun peer hpeer => ?_) (by simp) ?_ ?_
  · rw [PerSeat.get_set_peer] at hpeer
    refine ⟨peer, hpeer, ⟨rfl, rfl, rfl, List.prefix_rfl⟩, fun hreplayed => ?_⟩
    rw [same.1]
    exact hs.pair _ conn peer hconn hpeer hreplayed
  · intro hsound
    rw [same.1]
    exact hs.gate _ conn hconn (hdoomed hsound)
  · intro here hnil
    rw [same.1]
    exact hs.retained here _ conn hconn hnil

/-- A frame that raises: the handler is doomed, and nothing passed. -/
theorem raised (hs : Streams registered s h) (hconn : h.get seat = some conn)
    (same : conn'.passed = conn.passed ∧ conn'.replayed = conn.replayed ∧
      conn'.delivered = conn.delivered ∧ conn'.broken = conn.broken)
    (doomed : conn'.handler.doomed = true) (beside : V2Session.SameBeside seat s s')
    (hretained : registered → s.retained.get seat = conn.passed →
      s'.retained.get seat = conn.passed) :
    Streams registered s' (h.set seat (some conn')) := by
  refine hs.update hconn (by simp) beside same.2 (fun peer hpeer => ?_) (by simp) ?_ ?_
  · rw [PerSeat.get_set_peer] at hpeer
    refine ⟨peer, hpeer, ⟨rfl, rfl, rfl, List.prefix_rfl⟩, fun hreplayed => ?_⟩
    rw [same.1]
    exact hs.pair _ conn peer hconn hpeer hreplayed
  · intro hsound
    simp [doomed] at hsound
  · intro here hnil
    rw [same.1]
    exact hretained here (hs.retained here _ conn hconn hnil)

/-- What a seat has retained is one epoch, when its counterpart is about to be taken. -/
theorem replay (hs : Streams registered s h) (here : registered) (free : h.get seat = none)
    (sound : ∀ peer, h.get seat.peer = some peer → ConnSound attemptId peer ∧
      peer.seat = seat.peer) :
    ∃ epoch, Epoch attemptId seat.peer epoch (s.retained.get seat.peer) := by
  cases hpeer : h.get seat.peer with
  | none =>
    rw [(hs.empty here _ hpeer).1]
    exact ⟨0, .nil⟩
  | some peer =>
    obtain ⟨hsound, hseat⟩ := sound peer hpeer
    obtain ⟨epoch, hpassed⟩ := hsound.passed_epoch
    rw [hs.retained here _ peer hpeer fun hreplayed =>
      (hs.empty here _ free).2 peer hpeer hreplayed]
    exact ⟨epoch, hseat ▸ hpassed⟩

/-- A held frame continues what is retained. -/
theorem carried (hs : Streams registered s h) (hconn : h.get seat = some conn)
    (sound : ConnSound attemptId conn) {e : Envelope} (holding : conn.handler = .holding e)
    (hretained : s.retained.get seat = conn.passed) : s.carried seat e = conn.passed := by
  obtain ⟨-, hepoch, -⟩ := sound.held holding
  unfold V2Session.carried
  split
  · exact hretained
  · rename_i hnew
    cases hpassed : conn.passed with
    | nil => rfl
    | cons f rest =>
      have hf : f ∈ conn.passed := by simp [hpassed]
      have hgate := (hs.gate _ conn hconn (by simp [holding, Handler.doomed]) f hf).1
      rw [hepoch f hf] at hgate
      exact absurd hgate hnew

/-- A held frame passes its section; the holder of the other seat, if there is one, is
handed it. -/
theorem passes {lib : Library} {admitted : Admitted} {e : Envelope} {h' : Holders}
    (hs : Streams registered s h) (hconn : h.get seat = some conn)
    (sound : ConnSound attemptId conn) (holding : conn.handler = .holding e)
    (hpass : s.handle lib attemptId seat admitted e = .ok s')
    (hconn' : h'.get seat = some conn') (hpassed : conn'.passed = conn.passed ++ [e])
    (same : conn'.replayed = conn.replayed ∧ conn'.delivered = conn.delivered ∧
      conn'.broken = conn.broken)
    (hpeer : ∀ peer', h'.get seat.peer = some peer' → ∃ peer sent, h.get seat.peer = some peer ∧
      peer' = (peer.send e sent).1)
    (alone : h'.get seat.peer = none → h.get seat.peer = none) : Streams registered s' h' := by
  obtain ⟨hsequence, hepoch, hreplayed, hkeeps⟩ := sound.held holding
  obtain ⟨hgateEpoch, hgateNext, hretained⟩ := V2Session.handle_seat hpass
  refine hs.update hconn hconn' (V2Session.handle_beside hpass) same (fun peer' hp' => ?_) alone
    (fun _ f hf => ?_) fun here hnil => ?_
  · obtain ⟨peer, sent, hp, rfl⟩ := hpeer peer' hp'
    obtain ⟨broken, delivered, heq, hgrows⟩ := send_same peer e sent
    have hsent : peer.replayed = true → _ := fun hr => send_stream e sent
      (hs.pair _ conn peer hconn hp hr)
    rw [heq] at hsent ⊢
    refine ⟨peer, hp, ⟨rfl, rfl, rfl, hgrows⟩, ?_⟩
    rw [hpassed]
    exact hsent
  · rw [hpassed] at hf ⊢
    refine ⟨?_, by simp [hgateNext, hsequence]⟩
    rw [hgateEpoch]
    rcases List.mem_append.mp hf with hf | hf
    · rw [hepoch f hf]
    · rw [List.mem_singleton.mp hf]
  · rw [hretained, if_pos (hkeeps (hnil hreplayed)), hpassed]
    rw [hs.carried hconn sound holding (hs.retained here _ conn hconn hnil)]

/-- The `PEER_CLOSE` continues what the receiver was handed. -/
theorem closes (hs : Streams registered s h) (hconn : h.get seat = some conn)
    (sound : ConnSound attemptId conn) (hseat : conn.seat = seat)
    (leaving : conn.handler = .leaving none) (spoke : conn.received ≠ []) {epoch : Nat}
    (current : (s.gates.get seat).epoch = some epoch) :
    ∃ epoch', Epoch attemptId seat epoch'
      (conn.passed ++ [V2Session.closeEnvelope attemptId seat (s.gates.get seat) epoch]) := by
  obtain ⟨epoch', hpassed⟩ := sound.passed_epoch
  have hsome : conn.passed ≠ [] := by
    rw [sound.whole (.inr leaving)]
    exact spoke
  obtain ⟨f, hf⟩ := List.exists_mem_of_ne_nil _ hsome
  obtain ⟨hgateEpoch, hgateNext⟩ := hs.gate _ conn hconn (by simp [leaving, Handler.doomed]) f hf
  have hsame : epoch = epoch' := by
    rw [← hpassed.epoch f hf]
    exact Option.some.inj (current.symm.trans hgateEpoch)
  rw [hseat] at hpassed
  refine ⟨epoch', hpassed.snoc rfl rfl hsame hgateNext ?_⟩
  simp [V2Session.closeEnvelope, hsome]

end Streams

end SwitchTrade.Relay

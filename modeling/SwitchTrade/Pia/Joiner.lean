import SwitchTrade.Pia.Session
import SwitchTrade.Transition.Dict
import Mathlib.Algebra.Group.Int.Defs
import Mathlib.Data.List.Induction

/-!
# The joiner's handshake

`ConnectionManager` of `bridge/frlgsim/pia_connect.py`. The state goes on with what the host sends:
any Session message is taken for the acknowledgement of the join, and any RTT or Reliable message
after it for the end of the handshake, while the finalize is only sent in answer to an accept. So a
joiner may be connected that never sent a finalize, or a join; `connected_iff` says for which
sequences of messages it never is.
-/

namespace SwitchTrade.Pia

open BigEndian

inductive JoinerState where
  | net
  | finalize
  | connected
  deriving DecidableEq, Repr

structure ConnectionManager where
  ourMac : Mac
  hostMac : Bytes
  ourIp : Address
  ourVar : UInt16
  hostVar : Option UInt16 := none
  playerName : Text
  random4 : Bytes
  state : JoinerState := .net
  outbox : List Entry := []
  lastHostRtt : Option Bytes := none
  rttSystime : Nat := 0x10000
  rttOrigTick : Int := -10 ^ 9
  rttPending : Dict Nat Int := .empty
  rttSamples : List Int := []

/-- `RTT_ORIGINATE_PERIOD`. -/
def rttOriginatePeriod : Int := 10

namespace ConnectionManager

/-- `learn_ids`. -/
def learnIds (cm : ConnectionManager) (ourVar hostVar : Option UInt16) : ConnectionManager :=
  { cm with ourVar := ourVar.getD cm.ourVar, hostVar := hostVar.or cm.hostVar }

/-- `_join`. -/
def join (cm : ConnectionManager) : Bytes :=
  buildSessionJoin ((ldnConstantId cm.ourMac).take 6) cm.ourVar cm.ourIp.bytes cm.hostMac
    (cm.hostVar.getD 0) cm.playerName cm.random4

/-- `_q`. -/
def q (cm : ConnectionManager) (proto : Nat) (payload : Bytes) (dst src : Nat)
    (compress footer establishing : Bool) (pktid : Option Nat) (footerVar : Option Nat) :
    ConnectionManager :=
  { cm with
    outbox := cm.outbox ++
      [⟨proto, payload, dst, src, compress, footer, establishing, true, pktid, footerVar⟩] }

/-- The answer to a Net 0x11: what it teaches, a Net 0x12 and, if the host's variable id is known,
the join. -/
def onNetRequest (cm : ConnectionManager) (payload : Bytes) : ConnectionManager :=
  let request := parseNetConnRequest payload
  let cm :=
    match request with
    | none => cm
    | some (hostVar, hostMac, _) => { cm with hostMac, hostVar := cm.hostVar.or (some hostVar) }
  let seqid := (request.map fun r => r.2.2).getD 2
  let cm := cm.q protoNet (buildNetResponse seqid) 0 0 false false true (some 0) none
  if cm.hostVar.isSome then
    cm.q protoSession cm.join 0 cm.ourVar.toNat true false true (some 0) none
  else cm

/-- The answer to a Net 0x50. -/
def onNetProperty (cm : ConnectionManager) (body : Bytes) : ConnectionManager :=
  let seqid := if 4 ≤ body.length then ofBytes (body.take 4) else 1
  cm.q protoNet (buildNetPropertyAck seqid) 0 cm.ourVar.toNat false false true none none

/-- The answer to an accept; then any Session message counts as the acknowledgement of the join. -/
def onSession (cm : ConnectionManager) (payload : Bytes) : ConnectionManager :=
  let cm :=
    match cm.hostVar with
    | some hostVar =>
      if parseSession payload = some sessionUpdate ∧ cm.state ≠ .connected then
        cm.q protoSession (buildSessionFinalize cm.ourMac) hostVar.toNat cm.ourVar.toNat false true
          false none none
      else cm
    | none => cm
  if cm.state = .net then { cm with state := .finalize } else cm

/-- The answer to an RTT request, and the round trip of a response. -/
def onRtt (cm : ConnectionManager) (hostVar : UInt16) (payload : Bytes) (tick : Option Int) :
    ConnectionManager :=
  match parseRtt payload, tick with
  | some (type, systime), tick =>
    if type = 0 then
      { cm with lastHostRtt := some (payload.take 21) }.q protoRtt (buildRttResponse payload)
        sessionVar cm.ourVar.toNat false true false none (some hostVar.toNat)
    else if type = 1 then
      match tick with
      | none => cm
      | some tick =>
        let systime := ofBytes systime.reverse
        let sent := cm.rttPending.get? systime
        let cm := { cm with rttPending := cm.rttPending.erase systime }
        match sent with
        | none => cm
        | some sent =>
          if sent ≤ tick then { cm with rttSamples := cm.rttSamples ++ [tick - sent] } else cm
    else cm
  | none, _ => cm

/-- `on_message`. -/
def onMessage (cm : ConnectionManager) (proto : Nat) (payload : Bytes) (tick : Option Int) :
    ConnectionManager :=
  if proto = protoNet then
    match parseNet payload with
    | none => cm
    | some (_, type, body) =>
      if type = netConnRequest ∧ cm.state = .net then cm.onNetRequest payload
      else if type = netUpdateProperty then cm.onNetProperty body
      else cm
  else if proto = protoSession then cm.onSession payload
  else if proto = protoRtt ∨ proto = protoReliable then
    let cm := if cm.state = .finalize then { cm with state := .connected } else cm
    match cm.hostVar with
    | some hostVar =>
      if proto = protoRtt ∧ cm.state ≠ .net then cm.onRtt hostVar payload tick else cm
    | none => cm
  else cm

/-- `maybe_originate_rtt`. -/
def maybeOriginateRtt (cm : ConnectionManager) (tick : Int) : ConnectionManager :=
  match cm.lastHostRtt, cm.hostVar with
  | some template, some hostVar =>
    if cm.state ≠ .connected ∨ tick - cm.rttOrigTick < rttOriginatePeriod then cm
    else
      let systime := (cm.rttSystime + 1) % 2 ^ 64
      let pending := cm.rttPending.set systime tick
      let oldest := ((pending.items.mergeSort fun p p' => p.2 ≤ p'.2).take 32).map Prod.fst
      let pending := if 64 < pending.items.length then oldest.foldl Dict.erase pending else pending
      { cm with rttOrigTick := tick, rttSystime := systime, rttPending := pending }.q protoRtt
        (buildRttRequest template systime) sessionVar cm.ourVar.toNat false true false none
        (some hostVar.toNat)
  | _, _ => cm

/-- `drain`. -/
def drain (cm : ConnectionManager) : List Entry × ConnectionManager :=
  (cm.outbox, { cm with outbox := [] })

/-! ## Runs -/

inductive Call where
  | learnIds (ourVar hostVar : Option UInt16)
  | onMessage (proto : Nat) (payload : Bytes) (tick : Option Int)
  | maybeOriginateRtt (tick : Int)
  | drain

def apply (cm : ConnectionManager) : Call → ConnectionManager
  | .learnIds ourVar hostVar => cm.learnIds ourVar hostVar
  | .onMessage proto payload tick => cm.onMessage proto payload tick
  | .maybeOriginateRtt tick => cm.maybeOriginateRtt tick
  | .drain => cm.drain.2

def run (cm : ConnectionManager) (calls : List Call) : ConnectionManager := calls.foldl apply cm

/-- A manager as its constructor leaves it. -/
structure Fresh (cm : ConnectionManager) : Prop where
  state : cm.state = .net
  hostVar : cm.hostVar = none
  outbox : cm.outbox = []

/-- What a call adds to the outbox. -/
def queued (cm : ConnectionManager) (call : Call) : List Entry :=
  (cm.apply call).outbox.drop cm.outbox.length

end ConnectionManager

/-- A join request in the outbox. -/
def Entry.IsJoin (e : Entry) : Prop :=
  e.proto = protoSession ∧ e.payload.head? = some sessionJoinRequest

/-- A finalize in the outbox. -/
def Entry.IsFinalize (e : Entry) : Prop :=
  e.proto = protoSession ∧ e.payload.head? = some sessionFinalize

namespace ConnectionManager

/-- A Session message. -/
def Call.IsSession : Call → Prop
  | .onMessage proto _ _ => proto = protoSession
  | _ => False

/-- An RTT or Reliable message. -/
def Call.IsTraffic : Call → Prop
  | .onMessage proto _ _ => proto = protoRtt ∨ proto = protoReliable
  | _ => False

/-- A Net 0x11 of the host. -/
def Call.IsRequest : Call → Prop
  | .onMessage proto payload _ =>
    proto = protoNet ∧ (parseNet payload).map (fun n => n.2.1) = some netConnRequest
  | _ => False

/-- An accept of the host: a Session message of type 5. -/
def Call.IsAccept : Call → Prop
  | .onMessage proto payload _ => proto = protoSession ∧ parseSession payload = some sessionUpdate
  | _ => False

/-- What tells the joiner the host's variable id: the header of a packet, or a whole Net 0x11. -/
def Call.Tells : Call → Prop
  | .learnIds _ hostVar => hostVar.isSome = true
  | .onMessage proto payload _ => proto = protoNet ∧ (parseNetConnRequest payload).isSome = true
  | _ => False

/-! ## What a call does -/

section

variable {cm : ConnectionManager} {call : Call}

/-- One call: the state it comes to, what it knows of the host, and what it queues. -/
structure Effect (cm cm' : ConnectionManager) (call : Call) (new : List Entry) : Prop where
  outbox : cm'.outbox = cm.outbox ++ new ∨ cm'.outbox = [] ∧ new = []
  net : cm.state = .net → (cm'.state = .finalize ↔ call.IsSession) ∧ cm'.state ≠ .connected
  finalize : cm.state = .finalize → (cm'.state = .connected ↔ call.IsTraffic) ∧ cm'.state ≠ .net
  connected : cm.state = .connected → cm'.state = .connected
  hostVar : cm'.hostVar.isSome = true ↔
    cm.hostVar.isSome = true ∨ call.Tells ∧ (cm.state = .net ∨ ¬call.IsRequest)
  join : (∃ e ∈ new, e.IsJoin) ↔
    cm.state = .net ∧ call.IsRequest ∧ cm'.hostVar.isSome = true
  accept : (∃ e ∈ new, e.IsFinalize) ↔
    call.IsAccept ∧ cm.hostVar.isSome = true ∧ cm.state ≠ .connected

/-- A call that has nothing to do with the handshake: what it queues is no Session message. -/
theorem Effect.idle {cm' : ConnectionManager} {new : List Entry}
    (houtbox : cm'.outbox = cm.outbox ++ new) (hstate : cm'.state = cm.state)
    (hhost : cm'.hostVar = cm.hostVar) (hnew : ∀ e ∈ new, e.proto ≠ protoSession)
    (hsession : ¬call.IsSession) (htraffic : cm.state = .finalize → ¬call.IsTraffic)
    (hrequest : cm.state = .net → ¬call.IsRequest) (htells : call.Tells → call.IsRequest) :
    Effect cm cm' call new where
  outbox := .inl houtbox
  net hnet := by
    rw [hstate, hnet]
    exact ⟨iff_of_false nofun hsession, nofun⟩
  finalize hfinalize := by
    rw [hstate, hfinalize]
    exact ⟨iff_of_false nofun (htraffic hfinalize), nofun⟩
  connected hconnected := hstate.trans hconnected
  hostVar := by
    rw [hhost]
    refine ⟨.inl, fun hor => ?_⟩
    rcases hor with hknown | ⟨hcall, hnet | hno⟩
    · exact hknown
    · exact absurd (htells hcall) (hrequest hnet)
    · exact absurd (htells hcall) hno
  join := by
    refine iff_of_false ?_ fun hjoin => hrequest hjoin.1 hjoin.2.1
    rintro ⟨e, he, hjoin⟩
    exact hnew e he hjoin.1
  accept := by
    refine iff_of_false ?_ fun haccept => ?_
    · rintro ⟨e, he, hfinalize⟩
      exact hnew e he hfinalize.1
    · apply hsession
      cases call with
      | onMessage proto payload tick => exact haccept.1.1
      | learnIds ourVar hostVar => exact haccept.1.elim
      | maybeOriginateRtt tick => exact haccept.1.elim
      | drain => exact haccept.1.elim

theorem effect_learnIds (ourVar hostVar : Option UInt16) :
    Effect cm (cm.learnIds ourVar hostVar) (.learnIds ourVar hostVar) [] where
  outbox := .inl (List.append_nil _).symm
  net hnet := ⟨iff_of_false (by rw [learnIds, hnet]; nofun) id, by rw [learnIds, hnet]; nofun⟩
  finalize h := ⟨iff_of_false (by rw [learnIds, h]; nofun) id, by rw [learnIds, h]; nofun⟩
  connected h := h
  hostVar := by
    cases hostVar with
    | none => simp [learnIds, Call.Tells]
    | some hostVar => simp [learnIds, Call.Tells, Call.IsRequest]
  join := iff_of_false (by simp) fun h => h.2.1
  accept := iff_of_false (by simp) fun h => h.1

theorem effect_maybeOriginateRtt (tick : Int) :
    ∃ new, Effect cm (cm.maybeOriginateRtt tick) (.maybeOriginateRtt tick) new := by
  unfold maybeOriginateRtt
  split
  · split
    · exact ⟨[], .idle (List.append_nil _).symm rfl rfl (by simp) id (fun _ => id) (fun _ => id) id⟩
    · refine ⟨_, .idle rfl rfl rfl ?_ id (fun _ => id) (fun _ => id) id⟩
      intro e he
      rw [List.mem_singleton.mp he]
      exact (by decide : protoRtt ≠ protoSession)
  · exact ⟨[], .idle (List.append_nil _).symm rfl rfl (by simp) id (fun _ => id) (fun _ => id) id⟩

/-- What an RTT message queues is no Session message. -/
theorem onRtt_keeps (hostVar : UInt16) (payload : Bytes) (tick : Option Int) :
    ∃ new, (cm.onRtt hostVar payload tick).outbox = cm.outbox ++ new ∧
      (cm.onRtt hostVar payload tick).state = cm.state ∧
      (cm.onRtt hostVar payload tick).hostVar = cm.hostVar ∧
        ∀ e ∈ new, e.proto ≠ protoSession := by
  have hnothing : ∃ new : List Entry, cm.outbox = cm.outbox ++ new ∧ cm.state = cm.state ∧
      cm.hostVar = cm.hostVar ∧ ∀ e ∈ new, e.proto ≠ protoSession :=
    ⟨[], (List.append_nil _).symm, rfl, rfl, nofun⟩
  unfold onRtt
  split
  · split
    · refine ⟨_, rfl, rfl, rfl, ?_⟩
      intro e he
      rw [List.mem_singleton.mp he]
      exact (by decide : protoRtt ≠ protoSession)
    · split
      · split
        · exact hnothing
        · simp only
          split
          · exact hnothing
          · split
            · exact hnothing
            · exact hnothing
      · exact hnothing
  · exact hnothing

/-- Only a Net 0x11 tells its sender's variable id. -/
theorem parseNet_of_request {payload : Bytes} (h : (parseNetConnRequest payload).isSome = true) :
    (parseNet payload).map (fun n => n.2.1) = some netConnRequest := by
  unfold parseNetConnRequest at h
  split at h
  · cases h
  · rename_i version type body hparsed
    rw [hparsed]
    split at h
    · cases h
    · rename_i hfields
      rw [not_or, not_not] at hfields
      exact congrArg some hfields.1

theorem effect_onNetRequest {payload : Bytes} {tick : Option Int} (hnet : cm.state = .net)
    (hrequest : (parseNet payload).map (fun n => n.2.1) = some netConnRequest) :
    ∃ new, Effect cm (cm.onNetRequest payload) (.onMessage protoNet payload tick) new := by
  have hstate : ∀ {state : JoinerState}, state = .net →
      (state = .finalize ↔ (Call.onMessage protoNet payload tick).IsSession) ∧
        state ≠ .connected := by
    rintro state rfl
    exact ⟨iff_of_false nofun nofun, nofun⟩
  -- What it learns first, and then what it answers.
  generalize hlearned : (match parseNetConnRequest payload with
    | none => cm
    | some (hostVar, hostMac, _) =>
      { cm with hostMac, hostVar := cm.hostVar.or (some hostVar) }) = learned
  have hkeeps : learned.outbox = cm.outbox ∧ learned.state = cm.state ∧
      (learned.hostVar.isSome = true ↔ cm.hostVar.isSome = true ∨
        (parseNetConnRequest payload).isSome = true) := by
    rw [← hlearned]
    cases parseNetConnRequest payload with
    | none => exact ⟨rfl, rfl, by simp⟩
    | some request => exact ⟨rfl, rfl, by simp⟩
  obtain ⟨houtbox, hsame, hknown⟩ := hkeeps
  have hhost : ∀ {known : Bool}, (known = true ↔ learned.hostVar.isSome = true) →
      (known = true ↔ cm.hostVar.isSome = true ∨
        (Call.onMessage protoNet payload tick).Tells ∧
          (cm.state = .net ∨ ¬(Call.onMessage protoNet payload tick).IsRequest)) := by
    intro known hiff
    rw [hiff, hknown, Call.Tells]
    simp [hnet]
  have hanswer : cm.onNetRequest payload =
      (let answered := learned.q protoNet
          (buildNetResponse (((parseNetConnRequest payload).map fun r => r.2.2).getD 2)) 0 0 false
          false true (some 0) none
       if answered.hostVar.isSome then
        answered.q protoSession answered.join 0 answered.ourVar.toNat true false true (some 0) none
       else answered) := by
    rw [← hlearned]
    rfl
  rw [hanswer]
  simp only
  have haccept : ∀ {new : List Entry}, (∀ e ∈ new, ¬e.IsFinalize) →
      ((∃ e ∈ new, e.IsFinalize) ↔ (Call.onMessage protoNet payload tick).IsAccept ∧
        cm.hostVar.isSome = true ∧ cm.state ≠ .connected) := by
    intro new hnone
    refine iff_of_false (fun ⟨e, he, hfinalize⟩ => hnone e he hfinalize) fun h => ?_
    cases h.1.1
  split
  · rename_i hsome
    have hsome : learned.hostVar.isSome = true := hsome
    generalize hafter : ConnectionManager.q _ protoSession _ _ _ _ _ _ _ _ = after
    have hentries : ∃ answer join : Entry, after.outbox = learned.outbox ++ [answer] ++ [join] ∧
        after.state = learned.state ∧ after.hostVar = learned.hostVar ∧
          answer.proto = protoNet ∧ join.IsJoin := by
      rw [← hafter]
      exact ⟨_, _, rfl, rfl, rfl, rfl, rfl, rfl⟩
    obtain ⟨answer, join, hqueued, hafterState, hafterHost, hanswered, hjoin⟩ := hentries
    refine ⟨[answer, join], {
      outbox := .inl (by rw [hqueued, houtbox, List.append_assoc]; rfl)
      net := fun _ => hstate (hafterState.trans (hsame.trans hnet))
      finalize := fun h => by rw [hnet] at h; cases h
      connected := fun h => by rw [hnet] at h; cases h
      hostVar := hhost (by rw [hafterHost])
      join := iff_of_true ⟨join, List.mem_cons_of_mem _ List.mem_cons_self, hjoin⟩
        ⟨hnet, ⟨rfl, hrequest⟩, by rw [hafterHost]; exact hsome⟩
      accept := haccept ?_ }⟩
    intro e he hfinalize
    rcases List.mem_cons.mp he with rfl | he
    · cases hanswered.symm.trans hfinalize.1
    · rw [List.mem_singleton.mp he] at hfinalize
      cases hjoin.2.symm.trans hfinalize.2
  · rename_i hnone
    have hnone : ¬learned.hostVar.isSome = true := hnone
    generalize hafter : ConnectionManager.q _ protoNet _ _ _ _ _ _ _ _ = after
    have hentries : ∃ answer : Entry, after.outbox = learned.outbox ++ [answer] ∧
        after.state = learned.state ∧ after.hostVar = learned.hostVar ∧
          answer.proto = protoNet := by
      rw [← hafter]
      exact ⟨_, rfl, rfl, rfl, rfl⟩
    obtain ⟨answer, hqueued, hafterState, hafterHost, hanswered⟩ := hentries
    refine ⟨[answer], {
      outbox := .inl (by rw [hqueued, houtbox])
      net := fun _ => hstate (hafterState.trans (hsame.trans hnet))
      finalize := fun h => by rw [hnet] at h; cases h
      connected := fun h => by rw [hnet] at h; cases h
      hostVar := hhost (by rw [hafterHost])
      join := iff_of_false ?_ fun h => hnone (by rw [← hafterHost]; exact h.2.2)
      accept := haccept ?_ }⟩
    · rintro ⟨e, he, hjoin⟩
      rw [List.mem_singleton.mp he] at hjoin
      cases hanswered.symm.trans hjoin.1
    · intro e he hfinalize
      rw [List.mem_singleton.mp he] at hfinalize
      cases hanswered.symm.trans hfinalize.1

theorem effect_onSession {payload : Bytes} {tick : Option Int} :
    ∃ new, Effect cm (cm.onSession payload) (.onMessage protoSession payload tick) new := by
  -- First the answer to an accept, and then the state.
  generalize hanswered : (match cm.hostVar with
    | some hostVar =>
      if parseSession payload = some sessionUpdate ∧ cm.state ≠ JoinerState.connected then
        cm.q protoSession (buildSessionFinalize cm.ourMac) hostVar.toNat cm.ourVar.toNat false true
          false none none
      else cm
    | none => cm) = answered
  have hanswer : ∃ new : List Entry, answered.outbox = cm.outbox ++ new ∧
      answered.state = cm.state ∧ answered.hostVar = cm.hostVar ∧ (∀ e ∈ new, e.IsFinalize) ∧
        (new ≠ [] ↔ parseSession payload = some sessionUpdate ∧ cm.hostVar.isSome = true ∧
          cm.state ≠ .connected) := by
    rw [← hanswered]
    cases hhost : cm.hostVar with
    | none => exact ⟨[], (List.append_nil _).symm, rfl, hhost, nofun, by simp⟩
    | some hostVar =>
      simp only
      split
      · rename_i haccept
        refine ⟨_, rfl, rfl, hhost, ?_, iff_of_true nofun ⟨haccept.1, rfl, haccept.2⟩⟩
        intro e he
        rw [List.mem_singleton.mp he]
        exact ⟨rfl, rfl⟩
      · rename_i hnot
        exact ⟨[], (List.append_nil _).symm, rfl, hhost, nofun,
          iff_of_false (fun h => h rfl) fun h => hnot ⟨h.1, h.2.2⟩⟩
  obtain ⟨new, houtbox, hstate, hhost, hnew, hiff⟩ := hanswer
  have hsession : cm.onSession payload =
      if answered.state = .net then { answered with state := .finalize } else answered := by
    rw [← hanswered]
    rfl
  have hkeeps : (cm.onSession payload).outbox = cm.outbox ++ new ∧
      (cm.onSession payload).hostVar = cm.hostVar ∧
        (cm.onSession payload).state = if cm.state = .net then .finalize else cm.state := by
    rw [hsession, hstate]
    split
    · exact ⟨houtbox, hhost, rfl⟩
    · exact ⟨houtbox, hhost, hstate⟩
  obtain ⟨houtbox, hhost, hstate⟩ := hkeeps
  refine ⟨new, {
    outbox := .inl houtbox
    net := fun hnet => ?_
    finalize := fun hfinalize => ?_
    connected := fun hconnected => ?_
    hostVar := ?_
    join := iff_of_false ?_ fun h => ?_
    accept := ?_ }⟩
  · rw [hstate, hnet]
    exact ⟨iff_of_true rfl rfl, nofun⟩
  · rw [hstate, hfinalize]
    exact ⟨iff_of_false nofun nofun, nofun⟩
  · rw [hstate, hconnected]
    rfl
  · rw [hhost]
    exact ⟨.inl, fun h => h.resolve_right fun h => nomatch h.1.1⟩
  · rintro ⟨e, he, hjoin⟩
    cases hjoin.2.symm.trans (hnew e he).2
  · cases h.2.1.1
  · constructor
    · rintro ⟨e, he, -⟩
      obtain ⟨haccept, hknown, hopen⟩ := hiff.mp (List.ne_nil_of_mem he)
      exact ⟨⟨rfl, haccept⟩, hknown, hopen⟩
    · rintro ⟨haccept, hknown, hopen⟩
      obtain ⟨e, he⟩ := List.exists_mem_of_ne_nil _ (hiff.mpr ⟨haccept.2, hknown, hopen⟩)
      exact ⟨e, he, hnew e he⟩

theorem effect_traffic {proto : Nat} {payload : Bytes} {tick : Option Int}
    (hproto : proto = protoRtt ∨ proto = protoReliable) :
    ∃ new, Effect cm (cm.onMessage proto payload tick) (.onMessage proto payload tick) new := by
  have hnet : proto ≠ protoNet := by
    rintro rfl
    rcases hproto with h | h <;> cases h
  have hsession : proto ≠ protoSession := by
    rintro rfl
    rcases hproto with h | h <;> cases h
  generalize hmoved :
    (if cm.state = .finalize then { cm with state := JoinerState.connected } else cm) = moved
  have hmove : moved.outbox = cm.outbox ∧ moved.hostVar = cm.hostVar ∧
      moved.state = if cm.state = .finalize then JoinerState.connected else cm.state := by
    rw [← hmoved]
    split <;> exact ⟨rfl, rfl, rfl⟩
  obtain ⟨hmovedOutbox, hmovedHost, hmovedState⟩ := hmove
  have hkeeps : ∃ new, (cm.onMessage proto payload tick).outbox = moved.outbox ++ new ∧
      (cm.onMessage proto payload tick).state = moved.state ∧
      (cm.onMessage proto payload tick).hostVar = moved.hostVar ∧
        ∀ e ∈ new, e.proto ≠ protoSession := by
    have hcall : cm.onMessage proto payload tick = (match moved.hostVar with
        | some hostVar =>
          if proto = protoRtt ∧ moved.state ≠ .net then moved.onRtt hostVar payload tick else moved
        | none => moved) := by
      unfold onMessage
      rw [if_neg hnet, if_neg hsession, if_pos hproto, ← hmoved]
    rw [hcall]
    split
    · split
      · exact onRtt_keeps _ payload tick
      · exact ⟨[], (List.append_nil _).symm, rfl, rfl, nofun⟩
    · exact ⟨[], (List.append_nil _).symm, rfl, rfl, nofun⟩
  obtain ⟨new, houtbox, hstate, hhost, hnew⟩ := hkeeps
  rw [hmovedOutbox] at houtbox
  rw [hmovedState] at hstate
  rw [hmovedHost] at hhost
  refine ⟨new, {
    outbox := .inl houtbox
    net := fun hnet' => ?_
    finalize := fun hfinalize => ?_
    connected := fun hconnected => ?_
    hostVar := ?_
    join := iff_of_false ?_ fun h => hnet h.2.1.1
    accept := iff_of_false ?_ fun h => hsession h.1.1 }⟩
  · rw [hstate, hnet']
    exact ⟨iff_of_false nofun hsession, nofun⟩
  · rw [hstate, hfinalize]
    exact ⟨iff_of_true rfl hproto, nofun⟩
  · rw [hstate, hconnected]
    rfl
  · rw [hhost]
    exact ⟨.inl, fun h => h.resolve_right fun h => hnet h.1.1⟩
  · rintro ⟨e, he, hjoin⟩
    exact hnew e he hjoin.1
  · rintro ⟨e, he, hfinalize⟩
    exact hnew e he hfinalize.1

theorem effect_onMessage (proto : Nat) (payload : Bytes) (tick : Option Int) :
    ∃ new, Effect cm (cm.onMessage proto payload tick) (.onMessage proto payload tick) new := by
  by_cases hnet : proto = protoNet
  · subst hnet
    have htells : (Call.onMessage protoNet payload tick).Tells →
        (Call.onMessage protoNet payload tick).IsRequest :=
      fun h => ⟨rfl, parseNet_of_request h.2⟩
    have hnothing : (cm.state = .net → ¬(Call.onMessage protoNet payload tick).IsRequest) →
        ∃ new, Effect cm cm (.onMessage protoNet payload tick) new := fun hrequest =>
      ⟨[], .idle (List.append_nil _).symm rfl rfl nofun nofun (fun _ => nofun) hrequest htells⟩
    unfold onMessage
    rw [if_pos rfl]
    split
    · rename_i hparsed
      refine hnothing fun _ hrequest => ?_
      rw [Call.IsRequest, hparsed] at hrequest
      cases hrequest.2
    · rename_i version type body hparsed
      split
      · rename_i hstart
        exact effect_onNetRequest hstart.2 (by rw [hparsed, ← hstart.1]; rfl)
      · rename_i hother
        have hrequest : cm.state = .net → ¬(Call.onMessage protoNet payload tick).IsRequest := by
          intro hnet hrequest
          rw [Call.IsRequest, hparsed] at hrequest
          exact hother ⟨Option.some.inj hrequest.2, hnet⟩
        split
        · refine ⟨_, .idle rfl rfl rfl ?_ nofun (fun _ => nofun) hrequest htells⟩
          intro e he
          rw [List.mem_singleton.mp he]
          nofun
        · exact hnothing hrequest
  · by_cases hsession : proto = protoSession
    · subst hsession
      exact effect_onSession
    · by_cases htraffic : proto = protoRtt ∨ proto = protoReliable
      · exact effect_traffic htraffic
      · unfold onMessage
        rw [if_neg hnet, if_neg hsession, if_neg htraffic]
        exact ⟨[], .idle (List.append_nil _).symm rfl rfl nofun hsession (fun _ => htraffic)
          (fun _ h => hnet h.1) (fun h => absurd h.1 hnet)⟩

theorem effect (cm : ConnectionManager) (call : Call) :
    Effect cm (cm.apply call) call (cm.queued call) := by
  have hany : ∃ new, Effect cm (cm.apply call) call new := by
    cases call with
    | learnIds ourVar hostVar => exact ⟨[], effect_learnIds ourVar hostVar⟩
    | onMessage proto payload tick => exact effect_onMessage proto payload tick
    | maybeOriginateRtt tick => exact effect_maybeOriginateRtt tick
    | drain =>
      have hidle : Effect cm cm .drain [] :=
        .idle (List.append_nil _).symm rfl rfl nofun id (fun _ => id) (fun _ => id) id
      exact ⟨[], { hidle with outbox := .inr ⟨rfl, rfl⟩ }⟩
  obtain ⟨new, heffect⟩ := hany
  have hnew : cm.queued call = new := by
    rw [queued]
    rcases heffect.outbox with happended | ⟨hempty, hnone⟩
    · rw [happended, List.drop_left]
    · rw [hempty, hnone, List.drop_nil]
  rw [hnew]
  exact heffect

end

/-! ## Over a run -/

/-- Before the joiner is connected it has queued a join, and a finalize in answer to an accept. -/
def Finalized (cm : ConnectionManager) (calls : List Call) : Prop :=
  (∃ before call after, calls = before ++ call :: after ∧
      ∃ e ∈ (cm.run before).queued call, e.IsJoin) ∧
    ∃ before call after, calls = before ++ call :: after ∧ call.IsAccept ∧
      ∃ e ∈ (cm.run before).queued call, e.IsFinalize

/-- The first RTT or Reliable message after a Session message comes after an accept, and before the
first Session message a Net 0x11 came when, or by which, the host's variable id was known. -/
def Greeted (calls : List Call) : Prop :=
  ∀ opening session mid traffic post, calls = opening ++ session :: (mid ++ traffic :: post) →
    (∀ call ∈ opening, ¬call.IsSession) → session.IsSession → (∀ call ∈ mid, ¬call.IsTraffic) →
      traffic.IsTraffic →
        (∃ before request after, opening = before ++ request :: after ∧ request.IsRequest ∧
          ∃ call ∈ before ++ [request], call.Tells) ∧
        ∃ call ∈ session :: mid, call.IsAccept

section

variable {cm : ConnectionManager} {calls : List Call} {call : Call}

theorem run_append {more : List Call} : cm.run (calls ++ more) = (cm.run calls).run more :=
  List.foldl_append

theorem run_snoc : cm.run (calls ++ [call]) = (cm.run calls).apply call := run_append

/-- How far a run has come. -/
inductive Stage (cm : ConnectionManager) (calls : List Call) : Prop
  | opening (state : (cm.run calls).state = .net) (none : ∀ call ∈ calls, ¬call.IsSession)
  | acked (state : (cm.run calls).state = .finalize) (opening : List Call) (session : Call)
      (mid : List Call) (eq : calls = opening ++ session :: mid)
      (none : ∀ call ∈ opening, ¬call.IsSession) (is : session.IsSession)
      (quiet : ∀ call ∈ mid, ¬call.IsTraffic)
  | connected (state : (cm.run calls).state = .connected) (opening : List Call) (session : Call)
      (mid : List Call) (traffic : Call) (post : List Call)
      (eq : calls = opening ++ session :: (mid ++ traffic :: post))
      (none : ∀ call ∈ opening, ¬call.IsSession) (is : session.IsSession)
      (quiet : ∀ call ∈ mid, ¬call.IsTraffic) (ends : traffic.IsTraffic)

theorem stage (hfresh : cm.state = .net) (calls : List Call) : Stage cm calls := by
  induction calls using List.reverseRecOn with
  | nil => exact .opening hfresh nofun
  | append_singleton calls call ih =>
    have heffect := effect (cm.run calls) call
    rw [← run_snoc] at heffect
    cases ih with
    | opening state none =>
      obtain ⟨hiff, hopen⟩ := heffect.net state
      by_cases hsession : call.IsSession
      · exact .acked (hiff.mpr hsession) calls call [] rfl none hsession nofun
      · refine .opening ?_ ?_
        · cases hstate : (cm.run (calls ++ [call])).state with
          | net => rfl
          | finalize => exact absurd (hiff.mp hstate) hsession
          | connected => exact absurd hstate hopen
        · intro c hc
          rcases List.mem_append.mp hc with hc | hc
          · exact none c hc
          · rw [List.mem_singleton.mp hc]
            exact hsession
    | acked state opening session mid eq none is quiet =>
      obtain ⟨hiff, hopen⟩ := heffect.finalize state
      by_cases htraffic : call.IsTraffic
      · refine .connected (hiff.mpr htraffic) opening session mid call [] ?_ none is quiet htraffic
        rw [eq, List.append_assoc]
        rfl
      · refine .acked ?_ opening session (mid ++ [call]) ?_ none is ?_
        · cases hstate : (cm.run (calls ++ [call])).state with
          | net => exact absurd hstate hopen
          | finalize => rfl
          | connected => exact absurd (hiff.mp hstate) htraffic
        · rw [eq, List.append_assoc]
          rfl
        · intro c hc
          rcases List.mem_append.mp hc with hc | hc
          · exact quiet c hc
          · rw [List.mem_singleton.mp hc]
            exact htraffic
    | connected state opening session mid traffic post eq none is quiet ends =>
      refine .connected (heffect.connected state) opening session mid traffic (post ++ [call]) ?_
        none is quiet ends
      rw [eq]
      simp

/-- Before the first Session message the state is the first one. -/
theorem state_of_opening (hfresh : cm.state = .net) (h : ∀ call ∈ calls, ¬call.IsSession) :
    (cm.run calls).state = .net := by
  cases stage hfresh calls with
  | opening state none => exact state
  | acked state opening session mid eq none is quiet =>
    exact absurd is (h session (by rw [eq]; simp))
  | connected state opening session mid traffic post eq none is quiet ends =>
    exact absurd is (h session (by rw [eq]; simp))

/-- Before the first RTT or Reliable message after a Session message nobody is connected. -/
theorem open_of_quiet (hfresh : cm.state = .net) {opening mid : List Call} {session : Call}
    (hnone : ∀ call ∈ opening, ¬call.IsSession) (his : session.IsSession)
    (hquiet : ∀ call ∈ mid, ¬call.IsTraffic) :
    (cm.run (opening ++ session :: mid)).state = .finalize := by
  induction mid using List.reverseRecOn with
  | nil =>
    have heffect := effect (cm.run opening) session
    rw [← run_snoc] at heffect
    exact (heffect.net (state_of_opening hfresh hnone)).1.mpr his
  | append_singleton mid call ih =>
    have hbefore := ih fun c hc => hquiet c (List.mem_append_left _ hc)
    have heffect := effect (cm.run (opening ++ session :: mid)) call
    rw [← run_snoc] at heffect
    obtain ⟨hiff, hopen⟩ := heffect.finalize hbefore
    have hcall := hquiet call (List.mem_append_right _ (List.mem_singleton.mpr rfl))
    have happend : opening ++ session :: (mid ++ [call]) = opening ++ session :: mid ++ [call] := by
      simp
    rw [happend]
    cases hstate : (cm.run (opening ++ session :: mid ++ [call])).state with
    | net => exact absurd hstate hopen
    | finalize => rfl
    | connected => exact absurd (hiff.mp hstate) hcall

theorem known_of_opening (hfresh : cm.state = .net) (hhost : cm.hostVar = none)
    (h : ∀ call ∈ calls, ¬call.IsSession) :
    (cm.run calls).hostVar.isSome = true ↔ ∃ call ∈ calls, call.Tells := by
  induction calls using List.reverseRecOn with
  | nil =>
    have hrun : cm.run [] = cm := rfl
    rw [hrun, hhost]
    simp
  | append_singleton calls call ih =>
    have hbefore : ∀ c ∈ calls, ¬c.IsSession := fun c hc => h c (List.mem_append_left _ hc)
    have heffect := effect (cm.run calls) call
    rw [← run_snoc] at heffect
    rw [heffect.hostVar, ih hbefore, state_of_opening hfresh hbefore]
    simp [or_and_right, exists_or]

theorem known_append {more : List Call} (h : (cm.run calls).hostVar.isSome = true) :
    (cm.run (calls ++ more)).hostVar.isSome = true := by
  induction more using List.reverseRecOn with
  | nil => rwa [List.append_nil]
  | append_singleton more call ih =>
    have heffect := effect (cm.run (calls ++ more)) call
    rw [← run_snoc] at heffect
    rw [← List.append_assoc]
    exact heffect.hostVar.mpr (.inl ih)

/-- A greeted joiner that is connected has queued both. -/
theorem Greeted.finalized (hfresh : cm.state = .net) (hhost : cm.hostVar = none)
    (h : Greeted calls) (hconnected : (cm.run calls).state = .connected) :
    Finalized cm calls := by
  cases stage hfresh calls with
  | opening state none => cases state.symm.trans hconnected
  | acked state opening session mid eq none is quiet => cases state.symm.trans hconnected
  | connected state opening session mid traffic post eq none is quiet ends =>
    obtain ⟨⟨before, request, after, hopening, hrequest, htells⟩, accept, haccept, hisAccept⟩ :=
      h opening session mid traffic post eq none is quiet ends
    have hbefore : ∀ call ∈ before ++ [request], ¬call.IsSession := fun call hcall =>
      none call (by rw [hopening]; simp only [List.mem_append, List.mem_cons] at hcall ⊢; tauto)
    have hknown := (known_of_opening hfresh hhost hbefore).mpr htells
    constructor
    · refine ⟨before, request, after ++ session :: (mid ++ traffic :: post), ?_, ?_⟩
      · rw [eq, hopening, List.append_assoc]
        rfl
      · have hstate := state_of_opening hfresh fun call hcall =>
          hbefore call (List.mem_append_left _ hcall)
        rw [(effect _ request).join, ← run_snoc]
        exact ⟨hstate, hrequest, hknown⟩
    · obtain ⟨front, rest, hsplit⟩ := List.append_of_mem haccept
      refine ⟨opening ++ front, accept, rest ++ traffic :: post, ?_, hisAccept, ?_⟩
      · have hmid : session :: (mid ++ traffic :: post) = session :: mid ++ traffic :: post := rfl
        rw [eq, hmid, hsplit]
        simp
      · rw [(effect _ accept).accept]
        refine ⟨hisAccept, ?_, ?_⟩
        · have hlater := @known_append cm (before ++ [request]) (after ++ front) hknown
          have hfront : opening ++ front = before ++ [request] ++ (after ++ front) := by
            rw [hopening]
            simp
          rw [hfront]
          exact hlater
        · cases front with
          | nil =>
            rw [List.append_nil, state_of_opening hfresh none]
            nofun
          | cons first front =>
            obtain ⟨rfl, hrest⟩ := List.cons.inj hsplit
            rw [open_of_quiet hfresh none is fun call hcall =>
              quiet call (by rw [hrest]; simp [hcall])]
            nofun

/-- What a joiner had queued when it was connected says how it was greeted. -/
theorem greeted_of_finalized (hfresh : cm.state = .net) (hhost : cm.hostVar = none)
    {opening mid : List Call} {session traffic : Call}
    (hnone : ∀ call ∈ opening, ¬call.IsSession) (his : session.IsSession)
    (hends : traffic.IsTraffic)
    (h : Finalized cm (opening ++ session :: (mid ++ [traffic]))) :
    (∃ before request after, opening = before ++ request :: after ∧ request.IsRequest ∧
        ∃ call ∈ before ++ [request], call.Tells) ∧
      ∃ call ∈ session :: mid, call.IsAccept := by
  have hnotSession : ∀ call : Call, call.IsTraffic → ¬call.IsSession := by
    intro call htraffic hsession
    cases call with
    | onMessage proto payload tick =>
      have hsession : proto = protoSession := hsession
      rw [hsession] at htraffic
      rcases htraffic with hproto | hproto <;> cases hproto
    | learnIds ourVar hostVar => exact htraffic
    | maybeOriginateRtt tick => exact htraffic
    | drain => exact htraffic
  obtain ⟨⟨before, request, after, hjoin, hqueued⟩, front, accept, rest, haccept, hisAccept, -⟩ := h
  constructor
  · -- The join was queued in the first state, so before the first Session message.
    obtain ⟨hstate, hrequest, hknown⟩ := (effect _ request).join.mp hqueued
    rw [← run_snoc] at hknown
    have hbefore : ∀ call ∈ before, ¬call.IsSession := by
      cases stage hfresh before with
      | opening state none => exact none
      | acked state opening session mid eq none is quiet => cases state.symm.trans hstate
      | connected state opening session mid traffic post eq none is quiet ends =>
        cases state.symm.trans hstate
    have hnot : ¬request.IsSession := by
      intro hsession
      cases request with
      | onMessage proto payload tick =>
        have hsession : proto = protoSession := hsession
        rw [hsession] at hrequest
        cases hrequest.1
      | learnIds ourVar hostVar => exact hsession
      | maybeOriginateRtt tick => exact hsession
      | drain => exact hsession
    have hall : ∀ call ∈ before ++ [request], ¬call.IsSession := by
      intro call hcall
      rcases List.mem_append.mp hcall with hcall | hcall
      · exact hbefore call hcall
      · rw [List.mem_singleton.mp hcall]
        exact hnot
    refine ⟨before, request, ?_⟩
    have htells := (known_of_opening hfresh hhost hall).mp hknown
    rcases List.append_eq_append_iff.mp hjoin with ⟨more, hmore, hrest⟩ | ⟨more, hmore, hrest⟩
    · -- The first Session message is not before the request.
      cases more with
      | nil =>
        obtain ⟨rfl, -⟩ := List.cons.inj hrest
        exact absurd his hnot
      | cons first more =>
        obtain ⟨rfl, -⟩ := List.cons.inj hrest
        exact absurd his (hbefore _ (by rw [hmore]; simp))
    · cases more with
      | nil =>
        obtain ⟨rfl, -⟩ := List.cons.inj hrest
        exact absurd his hnot
      | cons first more =>
        obtain ⟨rfl, hafter⟩ := List.cons.inj hrest
        exact ⟨more, hmore, hrequest, htells⟩
  · -- The accept is a Session message and no traffic.
    have hmem : accept ∈ opening ++ session :: (mid ++ [traffic]) := by
      rw [haccept]
      simp
    have hsession : accept.IsSession := by
      cases accept with
      | onMessage proto payload tick => exact hisAccept.1
      | learnIds ourVar hostVar => exact hisAccept
      | maybeOriginateRtt tick => exact hisAccept
      | drain => exact hisAccept
    refine ⟨accept, ?_, hisAccept⟩
    rcases List.mem_append.mp hmem with hmem | hmem
    · exact absurd hsession (hnone accept hmem)
    · rcases List.mem_cons.mp hmem with rfl | hmem
      · exact List.mem_cons_self
      · rcases List.mem_append.mp hmem with hmem | hmem
        · exact List.mem_cons_of_mem _ hmem
        · rw [List.mem_singleton.mp hmem] at hsession
          exact absurd hsession (hnotSession traffic hends)

end

/-- In every run a joiner that is connected has queued a join and a finalize, exactly if it is
greeted. -/
theorem connected_iff {cm : ConnectionManager} (hfresh : cm.Fresh) (calls : List Call) :
    (∀ pre post, calls = pre ++ post → (cm.run pre).state = .connected → Finalized cm pre) ↔
      Greeted calls := by
  constructor
  · intro h opening session mid traffic post heq hnone his hquiet hends
    have hpre : calls = opening ++ session :: (mid ++ [traffic]) ++ post := by
      rw [heq]
      simp
    have hconnected : (cm.run (opening ++ session :: (mid ++ [traffic]))).state = .connected := by
      have hbefore := open_of_quiet hfresh.state hnone his hquiet
      have heffect := effect (cm.run (opening ++ session :: mid)) traffic
      rw [← run_snoc] at heffect
      have happend : opening ++ session :: (mid ++ [traffic]) =
          opening ++ session :: mid ++ [traffic] := by simp
      rw [happend]
      exact (heffect.finalize hbefore).1.mpr hends
    exact greeted_of_finalized hfresh.state hfresh.hostVar hnone his hends
      (h _ post hpre hconnected)
  · intro h pre post heq hconnected
    refine Greeted.finalized hfresh.state hfresh.hostVar ?_ hconnected
    intro opening session mid traffic after hpre
    apply h opening session mid traffic (after ++ post)
    rw [heq, hpre]
    simp

/-- A joiner with some addresses. -/
def sample : ConnectionManager where
  ourMac := ⟨2, 0, 0, 0, 0, 1⟩
  hostMac := [2, 0, 0, 0, 0, 2]
  ourIp := ⟨dotted [169, 254, 0, 2], by rw [ip4_dotted (by decide)]; rfl⟩
  ourVar := 0xc493
  playerName := ['E', 'M', 'U']
  random4 := [0, 0, 0, 0]

theorem sample_fresh : sample.Fresh := ⟨rfl, rfl, rfl⟩

/-- The Net 0x11 of a host. -/
def sampleRequest : Bytes := [1, netConnRequest, 0, 0, 0, 0, 0, 2, 0x76, 0x20, 2, 0, 0, 0, 0, 2]

/-- A whole handshake: the Net 0x11, the accept, an RTT. -/
def handshake : List Call :=
  [.onMessage protoNet sampleRequest none, .onMessage protoSession [sessionUpdate] none,
    .onMessage protoRtt (List.replicate 21 0) none]

/-- The Net 0x11 comes before the one Session message, which is the accept. -/
theorem handshake_greeted : Greeted handshake := by
  intro opening session mid traffic post heq hnone his hquiet hends
  have hrequest : Call.IsRequest (.onMessage protoNet sampleRequest none) := ⟨rfl, rfl⟩
  have haccept : Call.IsAccept (.onMessage protoSession [sessionUpdate] none) := ⟨rfl, rfl⟩
  unfold handshake at heq
  cases opening with
  | nil =>
    obtain ⟨rfl, -⟩ := List.cons.inj heq
    cases his
  | cons request opening =>
    obtain ⟨rfl, hrest⟩ := List.cons.inj heq
    cases opening with
    | nil =>
      obtain ⟨rfl, -⟩ := List.cons.inj hrest
      exact ⟨⟨[], _, [], rfl, hrequest, _, List.mem_singleton_self _, rfl, rfl⟩, _,
        List.mem_cons_self, haccept⟩
    | cons accept opening =>
      obtain ⟨rfl, -⟩ := List.cons.inj hrest
      exact absurd rfl (hnone _ (List.mem_cons_of_mem _ List.mem_cons_self))

/-- The whole handshake: the joiner is connected by it, and has queued its join and its finalize. -/
theorem connected_iff_handshake :
    Greeted handshake ∧ (sample.run handshake).state = .connected ∧ Finalized sample handshake :=
  ⟨handshake_greeted, rfl,
    (connected_iff sample_fresh handshake).mpr handshake_greeted handshake [] (by simp) rfl⟩

/-- The accept of the host is lost and the Session message of type 2 after it is not: the joiner is
connected by the next RTT and has never sent its finalize. -/
theorem connected_without_finalize :
    let lost : List Call := [.onMessage protoNet sampleRequest none,
      .onMessage protoSession [2] none, .onMessage protoRtt (List.replicate 21 0) none]
    (sample.run lost).state = .connected ∧ ¬Finalized sample lost := by
  refine ⟨rfl, ?_⟩
  rintro ⟨-, before, accept, after, heq, haccept, -⟩
  have hmem : accept ∈ before ++ accept :: after := by simp
  rw [← heq] at hmem
  rcases List.mem_cons.mp hmem with rfl | hmem
  · cases haccept.1
  · rcases List.mem_cons.mp hmem with rfl | hmem
    · cases haccept.2
    · rw [List.mem_singleton.mp hmem] at haccept
      cases haccept.1

end ConnectionManager

end SwitchTrade.Pia

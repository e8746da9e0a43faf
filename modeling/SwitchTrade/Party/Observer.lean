import SwitchTrade.Party.Carrier
import SwitchTrade.Tunnel.Envelope
import SwitchTrade.Transition.Run

/-!
# The passive party observer

`PassivePartyObserver` of `switchtrade/party_observer.py`: the bounded queue, the worker that takes
payloads from it, and the evidence it gathers of a trade. What is written to the state file, the
counters and the fields a snapshot shows of a Pokémon besides the hash of its record are left out.

What is observed is kept in `trace`, the newest first.
-/

namespace SwitchTrade.Party

open Rfu Transition LittleEndian
open Tunnel (SourceSeat PerSeat)

/-! ## Link commands -/

/-- `READY_TO_TRADE`. -/
def readyToTrade : Nat := 0xAABB

/-- `SET_MONS_TO_TRADE`. -/
def setMonsToTrade : Nat := 0xDDDD

/-- `START_TRADE`. -/
def startTrade : Nat := 0xCCDD

/-- `READY_FINISH_TRADE`. -/
def readyFinishTrade : Nat := 0xABCD

/-- `CONFIRM_FINISH_TRADE`. -/
def confirmFinishTrade : Nat := 0xDCBA

/-- `CANCEL_COMMANDS`. -/
def cancelCommands : List Nat := [0xEEAA, 0xBBCC, 0xDDEE, 0xEEBB, 0xEECC]

def linkCommands : List Nat :=
  [readyToTrade, setMonsToTrade, startTrade, readyFinishTrade, confirmFinishTrade] ++ cancelCommands

/-- `READY_EXIT_STANDBY`. -/
def opExitStandby : Nat := 0x6600

/-- The counts of the save barriers. -/
def saveBarriers : List Nat := [5, 6, 7, 8, 9, 10]

/-! ## What is observed -/

/-- A slot of a party: nothing, or the hash of the record in it. -/
abbrev PartySlot := Option String

structure Commit where
  commitId : String
  tradeIndex : Nat
  memberARecordHash : String
  memberBRecordHash : String
  deriving DecidableEq, Repr

inductive Event where
  | command (seat : SourceSeat) (command cursor : Nat)
  | confirmed
  | saved (seat : SourceSeat) (count : Nat)
  | partyBlock (seat : SourceSeat) (slots : List PartySlot)
  | snapshot (seat : SourceSeat) (slots : List PartySlot)
  | committed (commit : Commit)
  | invalidated (seat : SourceSeat) (reason : String)
  deriving DecidableEq, Repr

/-! ## The evidence of a trade -/

/-- `_trade`. -/
structure Trade where
  pre : PerSeat (Option (List PartySlot))
  post : PerSeat (Option (List PartySlot)) := .both none
  selections : PerSeat (Option Nat) := .both none
  started : Bool := false
  readyFinish : Bool := false
  confirmed : Bool := false
  saveCounts : PerSeat (List Nat) := .both []

namespace Trade

/-- What `_observe_link_command` makes of a command that cancels nothing. -/
def command (t : Trade) (seat : SourceSeat) (command cursor : Nat) : Trade :=
  if (command = readyToTrade ∨ command = setMonsToTrade) ∧ cursor < 6 then
    { t with selections := t.selections.set seat (some cursor) }
  else if command = startTrade ∧ t.selections.memberA.isSome ∧ t.selections.memberB.isSome then
    { t with started := true }
  else if command = readyFinishTrade ∧ t.started then { t with readyFinish := true }
  else if command = confirmFinishTrade ∧ t.started ∧ t.readyFinish then { t with confirmed := true }
  else t

def save (t : Trade) (seat : SourceSeat) (count : Nat) : Trade :=
  { t with saveCounts := t.saveCounts.set seat ((t.saveCounts.get seat).insert count) }

/-- The party of a seat is complete: before the confirmation it is one to trade from, and then one
that has traded. -/
def party (t : Trade) (seat : SourceSeat) (hashes : List PartySlot) : Trade :=
  if t.confirmed then { t with post := t.post.set seat (some hashes) }
  else { t with pre := t.pre.set seat (some hashes) }

def Saved (t : Trade) (seat : SourceSeat) : Prop := ∀ n ∈ saveBarriers, n ∈ t.saveCounts.get seat

instance (t : Trade) (seat : SourceSeat) : Decidable (t.Saved seat) :=
  inferInstanceAs (Decidable (∀ n ∈ saveBarriers, _))

/-- The records `_try_commit` finds exchanged. A party has six slots, and a selection is one. -/
def swapped (t : Trade) : Option (String × String) := do
  guard (t.confirmed = true)
  let postA ← t.post.memberA
  let postB ← t.post.memberB
  guard (t.Saved .memberA ∧ t.Saved .memberB)
  let preA ← t.pre.memberA
  let preB ← t.pre.memberB
  let aSlot ← t.selections.memberA
  let bSlot ← t.selections.memberB
  let recordA ← (preA[aSlot]?).join
  let recordB ← (preB[bSlot]?).join
  guard ((postA[aSlot]?).join = some recordB ∧ (postB[bSlot]?).join = some recordA)
  return (recordA, recordB)

end Trade

/-! ## The observer -/

/-- The session, and the code this model takes as given: `record` says of 100 bytes whether reading
them raises, and the hash of the record in them if they are one. -/
structure Config where
  attemptId : String
  localSeat : SourceSeat
  capacity : Nat
  sha256 : String → String
  record : Bytes → Except PUnit (Option String)

/-- What is published of a party; a snapshot is its version and the slots. -/
structure PartyView where
  status : String
  reason : Option String
  snapshot : Option (Nat × List PartySlot)

/-- `_run`: at the head of the loop, at `get`, with the rest of a payload, and at its end. -/
inductive Worker where
  | top
  | waiting
  | busy (seat : SourceSeat) (commands : List Command)
  | finished

structure Observer where
  pendingInvalidations : Dict SourceSeat String := .empty
  queue : List (SourceSeat × String × Bytes) := []
  stopping : Bool := false
  worker : Worker := .top
  assemblers : PerSeat RfuBlockAssembler := .both {}
  pendingRequest : Dict String Nat := .empty
  partyChunks : PerSeat (List (List PartySlot)) := .both []
  emitted : List (SourceSeat × Nat) := []
  versions : PerSeat Nat := .both 0
  parties : PerSeat PartyView := .both ⟨"unavailable", some "awaiting_complete_party", none⟩
  latestHashes : PerSeat (Option (List PartySlot)) := .both none
  tradeIndex : Nat := 0
  commits : Dict String Commit := .empty
  trade : Trade := { pre := .both none }
  trace : List Event := []

namespace Observer

variable (cfg : Config)

def log (o : Observer) (e : Event) : Observer := { o with trace := e :: o.trace }

/-- `_reset_trade_evidence`. -/
def resetTradeEvidence (o : Observer) (keepParties : Bool) : Observer :=
  { o with trade := { pre := if keepParties then o.latestHashes else .both none } }

/-- `_invalidate`. -/
def invalidate (o : Observer) (seat : SourceSeat) (reason : String) : Observer :=
  { o.resetTradeEvidence false with
    partyChunks := o.partyChunks.set seat []
    latestHashes := o.latestHashes.set seat none
    parties := o.parties.set seat ⟨"unavailable", some reason, none⟩
    trace := .invalidated seat reason :: o.trace }

def commitOf (o : Observer) (recordA recordB : String) : Commit :=
  let canonicalPair :=
    if recordA ≤ recordB then recordA ++ "|" ++ recordB else recordB ++ "|" ++ recordA
  let digest := cfg.sha256
    (cfg.attemptId ++ "|" ++ toString (o.tradeIndex + 1) ++ "|" ++ canonicalPair)
  ⟨"tc_" ++ String.ofList (digest.toList.take 24), o.tradeIndex + 1, recordA, recordB⟩

/-- `_try_commit`. -/
def tryCommit (o : Observer) : Observer :=
  match o.trade.swapped with
  | none => o
  | some (recordA, recordB) =>
    let commit := o.commitOf cfg recordA recordB
    { o.resetTradeEvidence true with
      tradeIndex := o.tradeIndex + 1
      commits := if (o.commits.get? commit.commitId).isSome then o.commits
        else o.commits.set commit.commitId commit
      trace := .committed commit :: o.trace }

/-- `_observe_link_command`. -/
def observeLinkCommand (o : Observer) (seat : SourceSeat) (command cursor : Nat) : Observer :=
  let o := o.log (.command seat command cursor)
  if command ∈ cancelCommands then o.resetTradeEvidence true
  else
    let trade := o.trade.command seat command cursor
    let o := if !o.trade.confirmed && trade.confirmed then o.log .confirmed else o
    { o with trade }.tryCommit cfg

/-- `_observe_save_count`. -/
def observeSaveCount (o : Observer) (seat : SourceSeat) (count : Nat) : Observer :=
  let o := o.log (.saved seat count)
  if o.trade.confirmed && 5 ≤ count && count ≤ 10 then
    { o with trade := o.trade.save seat count }.tryCommit cfg
  else o

/-- `_observe_completed_block`. -/
def observeCompletedBlock (o : Observer) (seat : SourceSeat) (payload : Bytes) : Observer :=
  if payload.length < 4 then o
  else
    let command := ofBytes (payload.take 2)
    let cursor := ofBytes ((payload.drop 2).take 2)
    if command ∈ linkCommands then o.observeLinkCommand cfg seat command cursor else o

/-- The slots of the records of a party block, none where a record is neither valid nor empty. -/
def readSlots : List Bytes → Except PUnit (Option (List PartySlot))
  | [] => .ok (some [])
  | record :: rest => do
    match ← cfg.record record with
    | some hash => return (← readSlots rest).map (some hash :: ·)
    | none =>
      if record.any (· ≠ 0) then return none
      else return (← readSlots rest).map (none :: ·)

/-- A party block is read: the third one completes the party. -/
def addChunk (o : Observer) (seat : SourceSeat) (slots : List PartySlot) : Observer :=
  let o := o.log (.partyBlock seat slots)
  let chunks := o.partyChunks.get seat ++ [slots]
  if chunks.length < 3 then { o with partyChunks := o.partyChunks.set seat chunks }
  else
    let six := (chunks.drop (chunks.length - 3)).flatten
    let version := o.versions.get seat + 1
    { o with
      partyChunks := o.partyChunks.set seat []
      versions := o.versions.set seat version
      parties := o.parties.set seat ⟨"available", none, some (version, six)⟩
      latestHashes := o.latestHashes.set seat (some six)
      trade := o.trade.party seat six
      trace := .snapshot seat six :: o.trace }.tryCommit cfg

/-- `_consume_party_block`; where reading a record raises, this is what the observer is left in. -/
def consumePartyBlock (o : Observer) (seat : SourceSeat) (raw : Bytes) :
    Except Observer Observer :=
  if raw.length < 200 then .ok o
  else
    match readSlots cfg [raw.take 100, (raw.drop 100).take 100] with
    | .error _ => .error o
    | .ok none => .ok (o.invalidate seat "invalid_pokemon_checksum")
    | .ok (some slots) => .ok (o.addChunk cfg seat slots)

/-- The direction of what a seat sends. -/
def direction (seat : SourceSeat) : String := seat.label ++ "_out"

/-- The seat that answers a request of `seat`. -/
def responder (seat : SourceSeat) : SourceSeat :=
  if seat = cfg.localSeat then cfg.localSeat.peer else cfg.localSeat

/-- What `feed` returns, from the assembler it leaves. -/
def returned (assembler : RfuBlockAssembler) (seat : SourceSeat) (command : RfuCommand) :
    Option (Nat × RfuBlock) :=
  if command.opcode ∈ [opInit, opBlock, opReq] then
    assembler.activeBlock (direction seat, command.multiplayerId)
  else none

/-- The part of `_process` in which a command reaches the assembler of its seat: the observer, and
the block `feed` returned. -/
def feed (o : Observer) (seat : SourceSeat) (command : RfuCommand) :
    Observer × Option (Nat × RfuBlock) :=
  let pendingRequest := match command.requestType with
    | some requestType =>
      if command.opcode = opReq then
        o.pendingRequest.set (direction (responder cfg seat)) requestType
      else o.pendingRequest
    | none => o.pendingRequest
  let assembler := (o.assemblers.get seat).feed command (direction seat) none
  match returned assembler seat command with
  | none => ({ o with pendingRequest, assemblers := o.assemblers.set seat assembler }, none)
  | some (ref, block) =>
    if command.opcode = opInit then
      -- The block takes the type that was asked for, also when it loses one it had.
      let block := { block with requestType := pendingRequest.get? (direction seat) }
      let assembler := { assembler with blocks := assembler.blocks.set ref block }
      ({ o with
          pendingRequest := pendingRequest.erase (direction seat)
          assemblers := o.assemblers.set seat assembler }, some (ref, block))
    else
      ({ o with pendingRequest, assemblers := o.assemblers.set seat assembler }, some (ref, block))

/-- The block `feed` returned is observed if it is complete and was not. -/
def observeBlock (o : Observer) (seat : SourceSeat) (ref : Nat) (block : RfuBlock) :
    Except Observer Observer :=
  if !block.complete || (seat, ref) ∈ o.emitted then .ok o
  else
    let payload := block.payload.getD []
    let o := { o with emitted := (seat, ref) :: o.emitted }.observeCompletedBlock cfg seat payload
    if block.requestType = some 1 then o.consumePartyBlock cfg seat payload else .ok o

/-- One command of `_process`. -/
def observe (o : Observer) (seat : SourceSeat) (command : Command) : Except Observer Observer :=
  let o := if command.rfu.opcode = opExitStandby then o.observeSaveCount cfg seat command.word1
    else o
  match o.feed cfg seat command.rfu with
  | (o, none) => .ok o
  | (o, some (ref, block)) => o.observeBlock cfg seat ref block

/-- `_flush_invalidations`. -/
def flushInvalidations (o : Observer) : Observer :=
  o.pendingInvalidations.items.foldl (fun o item => o.invalidate item.1 item.2)
    { o with pendingInvalidations := .empty }

/-- `submit`. -/
def submit (o : Observer) (seat : SourceSeat) (role : String) (payload : Bytes) : Observer :=
  if o.stopping then o
  else if cfg.capacity ≠ 0 ∧ cfg.capacity ≤ o.queue.length then
    { o with pendingInvalidations := o.pendingInvalidations.set seat "observer_queue_overflow" }
  else { o with queue := o.queue ++ [(seat, role, payload)] }

/-! ## The steps -/

inductive Label where
  | submit (seat : SourceSeat) (role : String) (payload : Bytes)
  | stop
  | flush
  | take
  | observe
  | clear
  deriving DecidableEq, Repr

/-- `submit` and `stop` are called from other threads; the rest are steps of the worker, and what
`stop` does once the worker has ended. -/
def step (o : Observer) : Label → Option Observer
  | .submit seat role payload => some (o.submit cfg seat role payload)
  | .stop => some { o with stopping := true }
  | .flush =>
    match o.worker with
    | .top =>
      if o.stopping && o.queue.isEmpty && o.pendingInvalidations.items.isEmpty then
        some { o with worker := .finished }
      else some { o.flushInvalidations with worker := .waiting }
    | _ => none
  | .take =>
    match o.worker, o.queue with
    | .waiting, [] => some { o with worker := .top }
    | .waiting, (seat, role, payload) :: rest =>
      some { o with queue := rest, worker := .busy seat (payloadCommands role payload) }
    | _, _ => none
  | .observe =>
    match o.worker with
    | .busy _ [] => some { o with worker := .top }
    | .busy seat (command :: rest) =>
      match o.observe cfg seat command with
      | .ok o => some { o with worker := .busy seat rest }
      | .error o => some { o.invalidate seat "decoder_error" with worker := .top }
    | _ => none
  | .clear =>
    match o.worker with
    | .finished =>
      some { o with parties := .both ⟨"unavailable", some "session_ended", none⟩ }
    | _ => none

def fresh : Observer := {}

def system : System Observer Label := .ofStep (· = fresh) (step cfg)

end Observer

end SwitchTrade.Party

import Handrail.Concurrent.Programs
import Handrail.Concurrent.VersionedStore
import Handrail.Conversation.Vocabulary
import Handrail.JsonEquality
import Handrail.Js.JsonText

/-!
# The durable turn transport

Workers share one store of turn records. Each of their functions is a program that loads a record,
changes it and writes it back with compare-and-set; timers, flags, clocks, codecs and the delegate
transport are read from the outside. Records are JSON data, so their clones are the records themselves.
-/

namespace Handrail.Transports
open Js Concurrent Conversation

/-! ### Records -/

structure TurnResumePoint where
  lastAppliedEventId : Option JsString
  lastAppliedCursor : Option JsString
  lastAppliedRevision : Option JsNumber
deriving DecidableEq

def emptyCheckpoint : TurnResumePoint := ⟨none, none, none⟩

inductive TransportErrorCode where
  | invalidRequest
  | unauthenticated
  | forbidden
  | notFound
  | conflict
  | rateLimited
  | timeout
  | unavailable
  | internalError
deriving DecidableEq, Repr

structure TransportError where
  code : TransportErrorCode
  message : JsString
  retryable : Bool
  retryAfterMs : Option JsNumber
deriving DecidableEq

inductive TurnObservationResult where
  | completed (checkpoint : TurnResumePoint) (usageReceipt : Option Json)
  | cancelled (checkpoint : TurnResumePoint) (usageReceipt : Option Json)
  | disconnected (checkpoint : TurnResumePoint)
  | failed (checkpoint : TurnResumePoint) (error : TransportError) (usageReceipt : Option Json)

inductive DurableTurnStatus where
  | pending
  | running
  | completed
  | cancelled
  | failed
deriving DecidableEq, Repr

def terminalStatus (status : DurableTurnStatus) : Bool :=
  status == .completed || status == .cancelled || status == .failed

/-- `DurableApplicationTurnEvent` -/
structure DurableTurnEvent (Event : Type) where
  sequence : Nat
  checkpoint : TurnResumePoint
  event : Event
deriving DecidableEq

structure DurableTurnLease where
  ownerId : JsString
  /-- The time of the ISO string. -/
  expiresAt : Int
deriving DecidableEq

structure DurableTurnCancellation where
  mutationId : JsString
  idempotencyKey : JsString
  fingerprint : JsString
  reason : TurnCancellationReason
  requestedAt : Int
deriving DecidableEq

structure TurnKey where
  conversationId : JsString
  turnId : JsString
deriving DecidableEq

/-- `DurableApplicationTurnRecord` -/
structure DurableTurnRecord (Event : Type) where
  key : TurnKey
  mutationId : JsString
  idempotencyKey : JsString
  requestFingerprint : JsString
  request : Json
  cancelledBeforeStart : Bool
  delegateTurnId : Option JsString
  status : DurableTurnStatus
  attempt : Nat
  events : List (DurableTurnEvent Event)
  terminal : Option TurnObservationResult
  cancellation : Option DurableTurnCancellation
  lease : Option DurableTurnLease
  createdAt : Int
  updatedAt : Int

def DurableTurnRecord.ownedBy {Event : Type} (record : DurableTurnRecord Event) (workerId : JsString) : Bool :=
  record.lease.any fun lease => lease.ownerId == workerId

/-- `record.events.at(-1)?.checkpoint` -/
def DurableTurnRecord.lastCheckpoint {Event : Type} (record : DurableTurnRecord Event) : Option TurnResumePoint :=
  record.events.getLast?.map DurableTurnEvent.checkpoint

def durableApplicationTurnStartMatches {Event : Type} (current proposed : DurableTurnRecord Event) : Bool :=
  current.key == proposed.key && current.mutationId == proposed.mutationId &&
    current.idempotencyKey == proposed.idempotencyKey && current.requestFingerprint == proposed.requestFingerprint &&
    jsonValuesEqual current.request proposed.request

/-! ### Checks -/

/-- `identifier`: a letter or digit, and at most 255 letters, digits and characters of `._:@/` and `-`. -/
def isIdentifier (value : JsString) : Bool :=
  match value.units with
  | [] => false
  | first :: rest =>
    Pattern.isAlphanumeric first && decide (rest.length ≤ 255) &&
      rest.all fun c => Pattern.isAlphanumeric c || Pattern.oneOf "._:@/-" c

/-- `timestamp`, `none` when it throws. -/
def timestamp (value : Int) : Option Int := if value.natAbs ≤ 8640000000000000 then some value else none

/-- `normalizeCheckpoint`, `none` when it throws. -/
def normalizeCheckpoint (value : TurnResumePoint) : Option TurnResumePoint :=
  if value.lastAppliedRevision.all fun revision => revision.safeNat?.isSome then some value else none

def TurnResumePoint.names (checkpoint entry : TurnResumePoint) : Bool :=
  entry.lastAppliedEventId == checkpoint.lastAppliedEventId && entry.lastAppliedCursor == checkpoint.lastAppliedCursor &&
    (checkpoint.lastAppliedEventId.isSome || checkpoint.lastAppliedCursor.isSome ||
      entry.lastAppliedRevision.map JsNumber.safeNat? == checkpoint.lastAppliedRevision.map JsNumber.safeNat?)

def resumeIndex {Event : Type} (events : List (DurableTurnEvent Event)) (checkpoint : TurnResumePoint) : Option Nat :=
  if checkpoint = emptyCheckpoint then some 0
  else (events.findIdx? fun entry => checkpoint.names entry.checkpoint).map (· + 1)

/-- `observationStart`, `none` when it throws. -/
def observationStart {Event : Type} (record : DurableTurnRecord Event) (checkpoint : TurnResumePoint) : Option Nat :=
  resumeIndex record.events checkpoint

structure CancelTurnInput where
  key : TurnKey
  mutationId : JsString
  idempotencyKey : JsString
  reason : TurnCancellationReason
deriving DecidableEq

def cancellationFingerprint (input : CancelTurnInput) : JsString :=
  stringify (Json.object [("conversationId", .str input.key.conversationId), ("turnId", .str input.key.turnId),
    ("reason", literal input.reason)])

structure StartTurnInput where
  key : TurnKey
  mutationId : JsString
  idempotencyKey : JsString
deriving DecidableEq

/-! ### The outside -/

inductive Failure where
  | preparationCancelled
  | leaseLost
  | other
deriving DecidableEq

/-- What the delegate answers to `startTurn`. -/
inductive DelegateStart where
  | started (turnId : JsString)
  | failed (error : TransportError)
  | threw

inductive StreamItem (Event : Type) where
  | event (event : Event)
  | finished (result : TurnObservationResult)
  | threw

structure Outside (Event : Type) where
  /-- Successive readings of the clock. -/
  now : Nat → Int
  /-- The flag that ends a monitor. -/
  stopped : Bool
  disconnected : Bool
  /-- What `requestCodec.encode` and `requestCodec.fingerprint` return. -/
  encoded : Option (Json × JsString)
  /-- How the race of `requestCodec.decode` and its monitor ends, `none` with a request. -/
  decoded : Option Failure
  started : DelegateStart
  /-- The item after a number of events of one delegate start. -/
  item : Nat → StreamItem Event

structure DurableOptions (Event : Type) where
  leaseMilliseconds : Nat
  pollMilliseconds : Nat
  maximumAttempts : Nat
  maximumCasAttempts : Nat
  lease_range : 1000 ≤ leaseMilliseconds ∧ leaseMilliseconds ≤ 300000
  poll_range : 25 ≤ pollMilliseconds ∧ pollMilliseconds ≤ 30000
  attempts_range : 1 ≤ maximumAttempts ∧ maximumAttempts ≤ 100
  cas_range : 1 ≤ maximumCasAttempts ∧ maximumCasAttempts ≤ 100
  /-- `none` when it throws. -/
  checkpointForEvent : Event → Option TurnResumePoint

/-! ### Changes of a record -/

variable {Event : Type}

/-- The changes that the functions make through `update`. -/
inductive Mutation (Event : Type) where
  | claim
  | ready (attempt : Nat)
  | renewPreparation (attempt : Nat)
  | setDelegate (turnId : JsString)
  | renewLease
  | appendEvent (checkpoint : TurnResumePoint) (event : Event)
  | settle (result : TurnObservationResult)
  | cancel (input : CancelTurnInput)

inductive Mutated (Event : Type) where
  | unchanged
  | thrown (cause : Failure)
  | next (record : DurableTurnRecord Event)

/-- `{ ...record, updatedAt: timestamp(time), ... }` -/
def stamped (time : Int) (record : Int → DurableTurnRecord Event) : Mutated Event :=
  match timestamp time with
  | some time => .next (record time)
  | none => .thrown .other

/-- The record with a lease from `time` on. -/
def leased (options : DurableOptions Event) (workerId : JsString) (time : Int) (record : DurableTurnRecord Event) :
    Mutated Event :=
  match timestamp (time + options.leaseMilliseconds) with
  | some expiresAt => stamped time fun time => { record with
      lease := some ⟨workerId, expiresAt⟩
      updatedAt := time }
  | none => .thrown .other

def exhaustedError : TransportError :=
  ⟨.unavailable, js "The durable turn exhausted its recovery attempts.", false, none⟩

def stoppedError : TransportError :=
  ⟨.unavailable, js "The durable turn worker stopped before completion.", true, none⟩

def failedError : TransportError := ⟨.unavailable, js "The durable turn worker failed.", true, none⟩

def mutateClaim (options : DurableOptions Event) (workerId : JsString) (record : DurableTurnRecord Event)
    (outside : Outside Event) : Mutated Event :=
  let currentTime := outside.now 0
  if terminalStatus record.status then .unchanged
  else if record.lease.any fun lease => lease.ownerId != workerId && currentTime < lease.expiresAt then .unchanged
  else if options.maximumAttempts ≤ record.attempt then
    stamped currentTime fun time => { record with
      status := .failed
      lease := none
      updatedAt := time
      terminal := some (.failed (record.lastCheckpoint.getD emptyCheckpoint) exhaustedError none) }
  else leased options workerId currentTime { record with
    status := .running
    attempt := record.attempt + 1 }

def TurnObservationResult.checkpoint : TurnObservationResult → TurnResumePoint
  | .completed checkpoint _ | .cancelled checkpoint _ | .disconnected checkpoint | .failed checkpoint _ _ => checkpoint

def TurnObservationResult.usageReceipt : TurnObservationResult → Option Json
  | .completed _ receipt | .cancelled _ receipt | .failed _ _ receipt => receipt
  | .disconnected _ => none

def TurnObservationResult.isCancelled : TurnObservationResult → Bool
  | .cancelled .. => true
  | _ => false

def settlement (record : DurableTurnRecord Event) (result : TurnObservationResult) :
    DurableTurnStatus × TurnObservationResult :=
  let checkpoint := record.lastCheckpoint.getD result.checkpoint
  if record.cancellation.isSome || result.isCancelled then (.cancelled, .cancelled checkpoint result.usageReceipt)
  else match result with
    | .completed .. => (.completed, .completed checkpoint result.usageReceipt)
    | .failed _ error _ => (.failed, .failed checkpoint error result.usageReceipt)
    | _ => (.failed, .failed checkpoint stoppedError result.usageReceipt)

def mutateSettle (workerId : JsString) (result : TurnObservationResult) (record : DurableTurnRecord Event)
    (outside : Outside Event) : Mutated Event :=
  if terminalStatus record.status then .unchanged
  else if !record.ownedBy workerId then .thrown .leaseLost
  else stamped (outside.now 0) fun time => { record with
    status := (settlement record result).1
    terminal := some (settlement record result).2
    lease := none
    updatedAt := time }

def mutateCancel (input : CancelTurnInput) (record : DurableTurnRecord Event) (outside : Outside Event) : Mutated Event :=
  match timestamp (outside.now 0) with
  | some requestedAt => stamped (outside.now 1) fun time => { record with
      cancellation := some {
        mutationId := input.mutationId
        idempotencyKey := input.idempotencyKey
        fingerprint := cancellationFingerprint input
        reason := input.reason
        requestedAt := requestedAt }
      updatedAt := time }
  | none => .thrown .other

/-- The argument of `update` in each of the functions. -/
def mutate (options : DurableOptions Event) (workerId : JsString) (record : DurableTurnRecord Event)
    (outside : Outside Event) : Mutation Event → Mutated Event
  | .claim => mutateClaim options workerId record outside
  | .ready attempt =>
    if terminalStatus record.status || !record.ownedBy workerId || record.attempt != attempt then .unchanged
    else leased options workerId (outside.now 0) record
  | .renewPreparation attempt =>
    if outside.stopped then .unchanged
    else if terminalStatus record.status || !record.ownedBy workerId || record.attempt != attempt then
      .thrown .leaseLost
    else if record.cancellation.isSome then .thrown .preparationCancelled
    else leased options workerId (outside.now 0) record
  | .setDelegate turnId =>
    if !record.ownedBy workerId then .thrown .leaseLost
    else stamped (outside.now 0) fun time => { record with
      delegateTurnId := some turnId
      updatedAt := time }
  | .renewLease =>
    if !record.ownedBy workerId then .thrown .leaseLost
    else leased options workerId (outside.now 0) record
  | .appendEvent checkpoint event =>
    if !record.ownedBy workerId then .thrown .leaseLost
    else leased options workerId (outside.now 0) { record with
      events := record.events ++ [⟨record.events.length + 1, checkpoint, event⟩] }
  | .settle result => mutateSettle workerId result record outside
  | .cancel input => mutateCancel input record outside

/-! ### Programs -/

inductive Answer where
  | failed (code : TransportErrorCode)
  | started
  | resumed
  | alreadyTerminal
  | cancellationRequested
  | recoveryStarted
  | alreadyRunning
deriving DecidableEq

inductive Output (Event : Type) where
  | answered (answer : Answer)
  /-- An event of an observation, with the checkpoint it is kept under. -/
  | yielded (event : DurableTurnEvent Event)
  | resolved (result : TurnObservationResult)

inductive Label where
  | startTurn (workerId : JsString) (input : StartTurnInput)
  | cancelTurn (workerId : JsString) (input : CancelTurnInput)
  | cancelTurnBeforeStart (workerId : JsString) (input : CancelTurnInput)
  | resumeTurn (workerId : JsString) (key : TurnKey) (resumeFrom : TurnResumePoint)
  | recoverTurn (workerId : JsString) (key : TurnKey)
  | run (workerId : JsString) (key : TurnKey)
  /-- The delegate's events after the first `position` ones. -/
  | streaming (workerId : JsString) (key : TurnKey) (position : Nat)
  | preparing (workerId : JsString) (key : TurnKey) (attempt : Nat)
  | monitor (workerId : JsString) (key : TurnKey)
  | observing (key : TurnKey) (resumeFrom : TurnResumePoint) (index : Nat)

inductive Kind where
  | request
  | cancellation (input : CancelTurnInput)
  | run (workerId : JsString) (key : TurnKey)
  | monitor
  | observation (key : TurnKey) (resumeFrom : TurnResumePoint)
deriving DecidableEq

def Label.kind : Label → Kind
  | .startTurn .. | .resumeTurn .. | .recoverTurn .. => .request
  | .cancelTurn _ input | .cancelTurnBeforeStart _ input => .cancellation input
  | .run workerId key | .streaming workerId key _ => .run workerId key
  | .preparing .. | .monitor .. => .monitor
  | .observing key resumeFrom _ => .observation key resumeFrom

/-- A worker's `running` map holds one run of a turn. -/
def Kind.exclusive : Kind → Bool
  | .run .. => true
  | _ => false

abbrev DurableCall (Event : Type) := StoreCall TurnKey (Mutation Event) (DurableTurnRecord Event)

abbrev DurableProgram (Event : Type) := Program (DurableCall Event) StoreReply (Outside Event) Label (Output Event)

def answer (value : Answer) : DurableProgram Event := .emit (.answered value) .done

inductive Updated (Event : Type) where
  | thrown (cause : Failure)
  | returned (document : Option (Versioned (DurableTurnRecord Event)))

/-- `update`, with the attempts that are left. -/
def updateWithin (options : DurableOptions Event) (workerId : JsString) (key : TurnKey) (mutation : Mutation Event)
    (next : Updated Event → DurableProgram Event) : Nat → DurableProgram Event
  | 0 => next (.thrown .other)
  | attempts + 1 => .call (.load key) fun
    | none => next (.returned none)
    | some current => .read fun outside =>
      match mutate options workerId current.record outside mutation with
      | .unchanged => next (.returned (some current))
      | .thrown cause => next (.thrown cause)
      | .next record => .call (.write mutation key current.version record) fun
        | some document => next (.returned (some document))
        | none => updateWithin options workerId key mutation next attempts

section
variable (options : DurableOptions Event) (workerId : JsString) (key : TurnKey)

def update (mutation : Mutation Event) (next : Updated Event → DurableProgram Event) : DurableProgram Event :=
  updateWithin options workerId key mutation next options.maximumCasAttempts

/-- The `catch` of `run`. -/
def runFailed : Failure → DurableProgram Event
  | .preparationCancelled => update options workerId key (.settle (.cancelled emptyCheckpoint none)) fun _ => .done
  | .leaseLost => .done
  | .other => update options workerId key (.settle (.failed emptyCheckpoint failedError none)) fun _ => .done

/-- An update of `run` that is followed by nothing. -/
def settleRun (result : TurnObservationResult) : DurableProgram Event :=
  update options workerId key (.settle result) fun
    | .thrown cause => runFailed options workerId key cause
    | .returned _ => .done

/-- `run` from the dispatch to the delegate on. -/
def runDispatch : DurableProgram Event :=
  .read fun outside =>
    match outside.started with
    | .failed error => settleRun options workerId key (.failed emptyCheckpoint error none)
    | .threw => runFailed options workerId key .other
    | .started turnId => update options workerId key (.setDelegate turnId) fun
      | .thrown cause => runFailed options workerId key cause
      | .returned _ => .spawn (.monitor workerId key) fun _ => .jump (.streaming workerId key 0)

/-- `run` after the request is decoded. -/
def runReady (attempt : Nat) : DurableProgram Event :=
  update options workerId key (.ready attempt) fun
    | .thrown cause => runFailed options workerId key cause
    | .returned none => .done
    | .returned (some ready) =>
      if terminalStatus ready.record.status || !ready.record.ownedBy workerId || ready.record.attempt != attempt then .done
      else if ready.record.cancellation.isSome then
        settleRun options workerId key (.cancelled (ready.record.lastCheckpoint.getD emptyCheckpoint) none)
      else runDispatch options workerId key

def run : DurableProgram Event :=
  update options workerId key .claim fun
    | .thrown cause => runFailed options workerId key cause
    | .returned none => .done
    | .returned (some claimed) =>
      if terminalStatus claimed.record.status || !claimed.record.ownedBy workerId then .done
      else if claimed.record.cancellation.isSome then
        settleRun options workerId key (.cancelled (claimed.record.lastCheckpoint.getD emptyCheckpoint) none)
      else .spawn (.preparing workerId key claimed.record.attempt) fun _ => .read fun outside =>
        if claimed.record.cancelledBeforeStart then runFailed options workerId key .preparationCancelled
        else match outside.decoded with
          | some cause => runFailed options workerId key cause
          | none => runReady options workerId key claimed.record.attempt

/-- The loop of `run` over the delegate's events. -/
def streaming (position : Nat) : DurableProgram Event :=
  .read fun outside =>
    match outside.item position with
    | .event event =>
      match (options.checkpointForEvent event).bind normalizeCheckpoint with
      | none => runFailed options workerId key .other
      | some checkpoint => update options workerId key (.appendEvent checkpoint event) fun
        | .thrown cause => runFailed options workerId key cause
        | .returned _ => .jump (.streaming workerId key (position + 1))
    | .finished result => settleRun options workerId key result
    | .threw => runFailed options workerId key .other

/-- `Date.parse(expiresAt) - now() <= Math.max(pollMilliseconds * 2, leaseMilliseconds / 2)` -/
def renewalDue (record : DurableTurnRecord Event) (now : Int) : Bool :=
  record.lease.any fun lease =>
    decide (2 * (lease.expiresAt - now) ≤ max (4 * options.pollMilliseconds) options.leaseMilliseconds)

/-- The monitor of `decodeRequest`. -/
def preparing (attempt : Nat) : DurableProgram Event :=
  .read fun outside =>
    if outside.stopped then .done
    else .call (.load key) fun current => .read fun outside =>
      if outside.stopped then .done
      else match current with
        | none => .done
        | some current =>
          if terminalStatus current.record.status || !current.record.ownedBy workerId ||
              current.record.attempt != attempt || current.record.cancellation.isSome then .done
          else if renewalDue options current.record (outside.now 0) then
            update options workerId key (.renewPreparation attempt) fun
              | .thrown _ => .done
              | .returned _ => .jump (.preparing workerId key attempt)
          else .jump (.preparing workerId key attempt)

def monitor : DurableProgram Event :=
  .read fun outside =>
    if outside.stopped then .done
    else .call (.load key) fun
      | none => .done
      | some current => .read fun outside =>
        if terminalStatus current.record.status || !current.record.ownedBy workerId ||
            current.record.cancellation.isSome then .done
        else if renewalDue options current.record (outside.now 0) then
          update options workerId key .renewLease fun
            | .thrown _ => .done
            | .returned _ => .jump (.monitor workerId key)
        else .jump (.monitor workerId key)

def observing (resumeFrom : TurnResumePoint) (index : Nat) : DurableProgram Event :=
  .read fun outside =>
    if outside.disconnected then .done
    else .call (.load key) fun
      | none => .done
      | some current => .emitAll ((current.record.events.drop index).map .yielded) <|
        match current.record.terminal with
        | some terminal => .emit (.resolved terminal) .done
        | none => .jump (.observing key resumeFrom (max index current.record.events.length))

def resumeTurn (resumeFrom : TurnResumePoint) : DurableProgram Event :=
  if !isIdentifier key.conversationId || !isIdentifier key.turnId then answer (.failed .invalidRequest)
  else .call (.load key) fun
    | none => answer (.failed .notFound)
    | some current =>
      match (normalizeCheckpoint resumeFrom).bind (observationStart current.record) with
      | none => answer (.failed .invalidRequest)
      | some index =>
        let observe := .spawn (.observing key resumeFrom index) fun _ => answer .resumed
        if terminalStatus current.record.status then observe else .spawn (.run workerId key) fun _ => observe

def recoverTurn : DurableProgram Event :=
  if !isIdentifier key.conversationId || !isIdentifier key.turnId then answer (.failed .unavailable)
  else .call (.load key) fun
    | none => answer (.failed .notFound)
    | some current => .read fun outside =>
      if terminalStatus current.record.status then answer .alreadyTerminal
      else if current.record.lease.any fun lease => lease.ownerId != workerId && outside.now 0 < lease.expiresAt then
        answer .alreadyRunning
      else .spawn (.run workerId key) fun started => answer (if started then .recoveryStarted else .alreadyRunning)

end

section
variable (options : DurableOptions Event) (workerId : JsString)

def cancelTurn (input : CancelTurnInput) : DurableProgram Event :=
  let requested := .spawn (.run workerId input.key) fun _ => answer .cancellationRequested
  .call (.load input.key) fun
    | none => answer (.failed .notFound)
    | some current =>
      if terminalStatus current.record.status then answer .alreadyTerminal
      else match current.record.cancellation with
        | some cancellation =>
          if cancellation.idempotencyKey != input.idempotencyKey ||
              cancellation.fingerprint != cancellationFingerprint input then answer (.failed .conflict)
          else requested
        | none => update options workerId input.key (.cancel input) fun
          | .thrown _ => answer (.failed .unavailable)
          | .returned _ => requested

def reservedRecord (input : CancelTurnInput) (requestedAt : Int) : DurableTurnRecord Event where
  key := input.key
  mutationId := input.mutationId
  idempotencyKey := input.idempotencyKey
  requestFingerprint := cancellationFingerprint input
  request := .null
  cancelledBeforeStart := true
  delegateTurnId := none
  status := .cancelled
  attempt := 0
  events := []
  terminal := some (.cancelled emptyCheckpoint none)
  cancellation := some {
    mutationId := input.mutationId
    idempotencyKey := input.idempotencyKey
    fingerprint := cancellationFingerprint input
    reason := input.reason
    requestedAt := requestedAt }
  lease := none
  createdAt := requestedAt
  updatedAt := requestedAt

def cancelTurnBeforeStart (input : CancelTurnInput) : DurableProgram Event :=
  .read fun outside =>
    if !isIdentifier input.key.conversationId || !isIdentifier input.key.turnId || !isIdentifier input.mutationId ||
        !isIdentifier input.idempotencyKey then answer (.failed .unavailable)
    else match timestamp (outside.now 0) with
      | none => answer (.failed .unavailable)
      | some requestedAt => .call (.create input.key (reservedRecord input requestedAt)) fun (created, document) =>
        if created || durableApplicationTurnStartMatches document.record (reservedRecord input requestedAt) then
          answer .alreadyTerminal
        else .jump (.cancelTurn workerId input)

def pendingRecord (input : StartTurnInput) (request : Json) (requestFingerprint : JsString) (createdAt : Int) :
    DurableTurnRecord Event where
  key := input.key
  mutationId := input.mutationId
  idempotencyKey := input.idempotencyKey
  requestFingerprint := requestFingerprint
  request := request
  cancelledBeforeStart := false
  delegateTurnId := none
  status := .pending
  attempt := 0
  events := []
  terminal := none
  cancellation := none
  lease := none
  createdAt := createdAt
  updatedAt := createdAt

def startTurn (input : StartTurnInput) : DurableProgram Event :=
  .read fun outside =>
    if !isIdentifier input.key.conversationId || !isIdentifier input.key.turnId then answer (.failed .invalidRequest)
    else match outside.encoded, timestamp (outside.now 0) with
      | some (request, fingerprint), some createdAt =>
        if !isIdentifier fingerprint || !isIdentifier input.mutationId || !isIdentifier input.idempotencyKey then
          answer (.failed .invalidRequest)
        else .call (.create input.key (pendingRecord input request fingerprint createdAt)) fun (created, document) =>
          let observe := .spawn (.observing input.key emptyCheckpoint 0) fun _ => answer .started
          if created || durableApplicationTurnStartMatches document.record (pendingRecord input request fingerprint createdAt)
          then .spawn (.run workerId input.key) fun _ => observe
          else if document.record.cancelledBeforeStart && document.record.status == .cancelled &&
            document.record.terminal.any TurnObservationResult.isCancelled then observe
          else answer (.failed .conflict)
      | _, _ => answer (.failed .unavailable)

end

def durableCode (options : DurableOptions Event) :
    Code (Documents TurnKey (DurableTurnRecord Event)) (DurableCall Event) (Outside Event) Label (Output Event) Kind
      StoreReply where
  perform := performStoreCall
  body
    | .startTurn workerId input => startTurn workerId input
    | .cancelTurn workerId input => cancelTurn options workerId input
    | .cancelTurnBeforeStart workerId input => cancelTurnBeforeStart workerId input
    | .resumeTurn workerId key resumeFrom => resumeTurn workerId key resumeFrom
    | .recoverTurn workerId key => recoverTurn workerId key
    | .run workerId key => run options workerId key
    | .streaming workerId key position => streaming options workerId key position
    | .preparing workerId key attempt => preparing options workerId key attempt
    | .monitor workerId key => monitor options workerId key
    | .observing key resumeFrom index => observing key resumeFrom index
  kind := Label.kind
  exclusive := Kind.exclusive

def noTurns : System (Documents TurnKey (DurableTurnRecord Event)) (DurableCall Event) StoreReply (Outside Event) Label
    (Output Event) Kind := ⟨fun _ => none, []⟩

end Handrail.Transports

import Handrail.Conversation.ValidStates
import Handrail.Js.JsonReading

/-!
# `approval-proposal-store.ts`: the in-memory store

Approval proposals under optimistic versions. A pending proposal expires when it is read, or when a transition of it is
refused, after its time. An operation runs alone; what its caller's authorization and the clock answered is a reading.
-/

namespace Handrail.Conversation
open Js

/-- `String.prototype.localeCompare`, which the host's locale decides. -/
class Collation where
  localeCompare : JsString → JsString → Int

/-! ### Errors -/

inductive ApprovalProposalStoreOperation where
  | create
  | get
  | listGroup
  | transition
deriving DecidableEq, Repr

inductive ApprovalProposalStoreErrorCode where
  | permissionDenied
  | invalidInput
  | notFound
  | capacityExceeded
  | idempotencyConflict
  | versionConflict
  | invalidTransition
  | notExpired
  | unavailable
deriving DecidableEq, Repr

structure ApprovalProposalStoreError where
  code : ApprovalProposalStoreErrorCode
  operation : ApprovalProposalStoreOperation
deriving DecidableEq, Repr

/-! ### Records -/

/-- A `ConversationApprovalProposalRecord` as a store writes it; `proposalVersion + 1` is not checked. -/
structure StoredProposal where
  proposalId : Identifier
  groupId : Option Identifier
  turnId : Identifier
  toolCallId : Identifier
  toolName : Identifier
  reviewedArguments : ReviewedArguments
  status : ApprovalProposalStatus
  proposalVersion : Nat
  expiresAt : Timestamp
  createdAt : Timestamp
  updatedAt : Timestamp
  createdAttribution : Attribution
  latestAttribution : Attribution
  decisionAt : Option Timestamp
  decisionAttribution : Option Attribution
  decisionReason : Option JsString
  failureReason : Option JsString

def StoredProposal.fields (p : StoredProposal) : List (String × Json) :=
  [("proposal_id", identifierCodec.encode p.proposalId),
    ("group_id", (identifierCodec.nullable identifier_ne_null).encode p.groupId),
    ("turn_id", identifierCodec.encode p.turnId),
    ("tool_call_id", identifierCodec.encode p.toolCallId),
    ("tool_name", identifierCodec.encode p.toolName),
    ("reviewed_arguments", ReviewedArguments.codec.encode p.reviewedArguments),
    ("status", enumeration.encode p.status),
    ("proposal_version", .num (.ofNat p.proposalVersion)),
    ("expires_at", timestampCodec.encode p.expiresAt),
    ("created_at", timestampCodec.encode p.createdAt),
    ("updated_at", timestampCodec.encode p.updatedAt),
    ("created_attribution", Attribution.codec.encode p.createdAttribution),
    ("latest_attribution", Attribution.codec.encode p.latestAttribution),
    ("decision_at", (timestampCodec.nullable timestamp_ne_null).encode p.decisionAt),
    ("decision_attribution", (Attribution.codec.nullable Attribution.encode_ne_null).encode p.decisionAttribution),
    ("decision_reason", (Codec.string.nullable Codec.string_ne_null).encode p.decisionReason),
    ("failure_reason", (Codec.string.nullable Codec.string_ne_null).encode p.failureReason)]

def StoredProposal.toJson (p : StoredProposal) : Json := Json.object p.fields

def isConversationApprovalProposalRecord : Json → StateCheck Unit
  | .obj fields => isApprovalProposal fields
  | _ => .error .refused

def StoredProposal.record (p : StoredProposal) (positive : 1 ≤ p.proposalVersion)
    (safe : p.proposalVersion ≤ JsNumber.maxSafeInteger) : ApprovalProposalRecord where
  proposalId := p.proposalId
  groupId := p.groupId
  turnId := p.turnId
  toolCallId := p.toolCallId
  toolName := p.toolName
  reviewedArguments := p.reviewedArguments
  status := p.status
  proposalVersion := ⟨p.proposalVersion, positive, safe⟩
  expiresAt := p.expiresAt
  createdAt := p.createdAt
  updatedAt := p.updatedAt
  createdAttribution := p.createdAttribution
  latestAttribution := p.latestAttribution
  decisionAt := p.decisionAt
  decisionAttribution := p.decisionAttribution
  decisionReason := p.decisionReason
  failureReason := p.failureReason

/-! ### Limits -/

/-- `ApprovalProposalStoreLimits`, with the defaults. -/
structure ApprovalProposalStoreLimits where
  maxProposals := 1000
  maxIdempotencyRecords := 2000
  maxIdempotencyKeyLength := 256
  maxIdempotencyFingerprintLength := 256
deriving DecidableEq

/-- `resolveLimits`, `none` when it throws. -/
def resolveLimits (limits : ApprovalProposalStoreLimits) : Option ApprovalProposalStoreLimits :=
  let positive (n : Nat) : Bool := 0 < n && n ≤ JsNumber.maxSafeInteger
  if positive limits.maxProposals && positive limits.maxIdempotencyRecords &&
      positive limits.maxIdempotencyKeyLength && positive limits.maxIdempotencyFingerprintLength &&
      limits.maxIdempotencyKeyLength ≤ eventLimits.textLength &&
      limits.maxIdempotencyFingerprintLength ≤ eventLimits.textLength then some limits
  else none

/-! ### Inputs

Inputs have the types that the interface declares; the strings in them are any strings. -/

inductive SourceInput where
  | client (clientId : JsString) (deviceId : Option JsString)
  | runtime
  | sync
  | «import»

structure AttributionInput where
  actorType : ActorType
  actorId : Option JsString
  source : SourceInput

/-- `validateIdentifier` -/
def readIdentifier (text : JsString) : Option Identifier :=
  if valid : 0 < text.length ∧ text.length ≤ eventLimits.identifierLength then some ⟨text, .inr valid.1, valid.2⟩ else none

def readOptionalIdentifier : Option JsString → Option (Option Identifier)
  | none => some none
  | some text => (readIdentifier text).map some

def cloneAttribution (value : AttributionInput) : Option Attribution := do
  let id ← readOptionalIdentifier value.actorId
  let source ← match value.source with
    | .client clientId deviceId => do
      let clientId ← readIdentifier clientId
      let deviceId ← readOptionalIdentifier deviceId
      some (Source.client clientId deviceId)
    | .runtime => some .runtime
    | .sync => some .sync
    | .import => some .import
  some ⟨⟨value.actorType, id⟩, source⟩

/-- `[a-z0-9]` under the flags `iu`, which also fold the long s and the Kelvin sign. -/
def isOpaqueLetter (c : UInt16) : Bool := Pattern.isAlphanumeric c || c == 0x17f || c == 0x212a

/-- A letter or digit, then letters, digits, dots, underscores, colons, slashes and hyphens, under the flags `iu`. -/
def opaqueValuePattern : Pattern :=
  .all [.start, .unit isOpaqueLetter, .repeats (.unit fun c => isOpaqueLetter c || Pattern.oneOf "._:/-" c) 0 none,
    .finish]

def isBoundedOpaqueValue (value : JsString) (maximum : Nat) : Bool :=
  0 < value.length && value.length ≤ maximum && opaqueValuePattern.test value && !includes value (js "://")

def validateIdempotency (limits : ApprovalProposalStoreLimits) (idempotencyKey idempotencyFingerprint : JsString) : Bool :=
  isBoundedOpaqueValue idempotencyKey limits.maxIdempotencyKeyLength &&
    isBoundedOpaqueValue idempotencyFingerprint limits.maxIdempotencyFingerprintLength

structure CreateApprovalProposalInput where
  proposalId : JsString
  groupId : Option JsString
  turnId : JsString
  toolCallId : JsString
  toolName : JsString
  reviewedArguments : Json
  expiresAt : JsString
  attribution : AttributionInput
  idempotencyKey : JsString
  idempotencyFingerprint : JsString

structure CreateApprovalProposalSnapshot where
  proposalId : Identifier
  groupId : Option Identifier
  turnId : Identifier
  toolCallId : Identifier
  toolName : Identifier
  reviewedArguments : ReviewedArguments
  reviewed : reviewedArguments.Valid
  expiresAt : Timestamp
  attribution : Attribution
  idempotencyKey : JsString
  idempotencyFingerprint : JsString

/-- `validateCreateInput` and `snapshotCreateInput`, `none` when they throw `invalid_input`. -/
def snapshotCreateInput (limits : ApprovalProposalStoreLimits) (input : CreateApprovalProposalInput) :
    Option CreateApprovalProposalSnapshot := do
  let proposalId ← readIdentifier input.proposalId
  let groupId ← readOptionalIdentifier input.groupId
  let turnId ← readIdentifier input.turnId
  let toolCallId ← readIdentifier input.toolCallId
  let toolName ← readIdentifier input.toolName
  guard (validateIdempotency limits input.idempotencyKey input.idempotencyFingerprint)
  let expiresAt ← readTimestampText input.expiresAt
  match read : validateApprovalReviewedArguments (some input.reviewedArguments) with
  | .error _ => none
  | .ok reviewedArguments =>
    let attribution ← cloneAttribution input.attribution
    some { proposalId, groupId, turnId, toolCallId, toolName, reviewedArguments,
           reviewed := validateApprovalReviewedArguments_valid read, expiresAt, attribution,
           idempotencyKey := input.idempotencyKey, idempotencyFingerprint := input.idempotencyFingerprint }

structure TransitionApprovalProposalInput where
  proposalId : JsString
  expectedVersion : JsNumber
  status : ApprovalProposalStatus
  attribution : AttributionInput
  decisionReason : Option JsString
  failureReason : Option JsString
  idempotencyKey : JsString
  idempotencyFingerprint : JsString

/-- `["confirmed", "rejected", "expired"].includes(status)` -/
def isDecision (status : ApprovalProposalStatus) : Bool := [.confirmed, .rejected, .expired].contains status

/-- A reason that `isConversationApprovalReason` accepts. -/
abbrev IsReason (reason : JsString) : Prop := isConversationApprovalReason (some (.str reason)) = true

structure ProposalTransitionData where
  status : ApprovalProposalStatus
  decisionReason : Option JsString
  failureReason : Option JsString
  changes : status ≠ .pending
  decision : ∀ reason ∈ decisionReason, isDecision status = true ∧ IsReason reason
  failure : ∀ reason ∈ failureReason, IsReason reason
  failed : failureReason.isSome = true ↔ status = .failed

/-- What a transition to `expired` without a reason says. -/
def ProposalTransitionData.expired : ProposalTransitionData where
  status := .expired
  decisionReason := none
  failureReason := none
  changes := nofun
  decision := nofun
  failure := nofun
  failed := by simp

structure TransitionApprovalProposalSnapshot extends ProposalTransitionData where
  proposalId : Identifier
  expectedVersion : PositiveSafeInteger
  attribution : Attribution
  idempotencyKey : JsString
  idempotencyFingerprint : JsString

/-- `validateTransitionInput` and `snapshotTransitionInput`, `none` when they throw `invalid_input`. -/
def snapshotTransitionInput (limits : ApprovalProposalStoreLimits) (input : TransitionApprovalProposalInput) :
    Option TransitionApprovalProposalSnapshot := do
  let proposalId ← readIdentifier input.proposalId
  guard (validateIdempotency limits input.idempotencyKey input.idempotencyFingerprint)
  let expectedVersion ← readSafeInteger 1 input.expectedVersion
  if changes : input.status ≠ .pending then
    if decision : ∀ reason ∈ input.decisionReason, isDecision input.status = true ∧ IsReason reason then
      if failure : (∀ reason ∈ input.failureReason, IsReason reason) ∧
          (input.failureReason.isSome = true ↔ input.status = .failed) then
        let attribution ← cloneAttribution input.attribution
        some { status := input.status, decisionReason := input.decisionReason, failureReason := input.failureReason,
               changes, decision, failure := failure.1, failed := failure.2, proposalId, expectedVersion, attribution,
               idempotencyKey := input.idempotencyKey, idempotencyFingerprint := input.idempotencyFingerprint }
      else none
    else none
  else none

/-! ### Requests -/

/-- `stableStringify`: the text of `JSON.stringify`, with the keys of every object sorted. -/
def stableStringify (value : Json) : JsString := stringify value.canonical

def createRequestSignature (input : CreateApprovalProposalSnapshot) : JsString :=
  stableStringify (.object [("operation", .str (js "create")), ("proposalId", .str input.proposalId.text),
    ("groupId", (identifierCodec.nullable identifier_ne_null).encode input.groupId), ("turnId", .str input.turnId.text),
    ("toolCallId", .str input.toolCallId.text), ("toolName", .str input.toolName.text),
    ("reviewedArguments", ReviewedArguments.codec.encode input.reviewedArguments),
    ("expiresAt", .str input.expiresAt.text), ("attribution", Attribution.codec.encode input.attribution)])

def transitionRequestSignature (input : TransitionApprovalProposalSnapshot) : JsString :=
  stableStringify (.object [("operation", .str (js "transition")), ("proposalId", .str input.proposalId.text),
    ("expectedVersion", .num (.ofNat input.expectedVersion.value)), ("status", enumeration.encode input.status),
    ("attribution", Attribution.codec.encode input.attribution),
    ("decisionReason", (Codec.string.nullable Codec.string_ne_null).encode input.decisionReason),
    ("failureReason", (Codec.string.nullable Codec.string_ne_null).encode input.failureReason)])

/-- The signature of a transition names the proposal and the version that it starts from. -/
theorem transitionRequestSignature_inj {request other : TransitionApprovalProposalSnapshot}
    (same : transitionRequestSignature request = transitionRequestSignature other) :
    request.proposalId = other.proposalId ∧ request.expectedVersion.value = other.expectedVersion.value := by
  rw [transitionRequestSignature, transitionRequestSignature, stableStringify, stableStringify, stringify_canonical_inj,
    Json.roundTrip_object, Json.roundTrip_object] at same
  have named := Json.canonical_get (by simp [Json.keys, Json.fieldsOf]) same (by simp [Json.keys, Json.fieldsOf])
    (js "proposalId")
  have version := Json.canonical_get (by simp [Json.keys, Json.fieldsOf]) same (by simp [Json.keys, Json.fieldsOf])
    (js "expectedVersion")
  simp [Json.fieldsOf, List.lookup_cons, Json.canonical] at named version
  exact ⟨BoundedText.ext named, version⟩

/-! ### The store -/

/-- `IdempotencyRecord`, with the key that it is kept under. -/
structure IdempotencyRecord where
  key : JsString
  operation : ApprovalProposalStoreOperation
  fingerprint : JsString
  requestSignature : JsString
  result : StoredProposal

structure InMemoryApprovalProposalStore where
  limits : ApprovalProposalStoreLimits
  expiryAttribution : Attribution
  proposals : List StoredProposal
  idempotency : List IdempotencyRecord

/-- What the host answered during an operation: the authorization, and the text of the clock or `none` when it threw. -/
structure HostReading where
  permitted : Bool
  clock : Option JsString

/-- `#now`, `none` when it throws `unavailable`. -/
def HostReading.now (reading : HostReading) : Option Timestamp := reading.clock.bind readTimestampText

/-- `DEFAULT_EXPIRY_ATTRIBUTION` -/
def defaultExpiryAttribution : AttributionInput := ⟨.system, none, .runtime⟩

/-- `current.status === "pending" && Date.parse(now) >= Date.parse(current.expires_at)` -/
def StoredProposal.isDue (p : StoredProposal) (now : Timestamp) : Bool :=
  p.status == .pending && p.expiresAt.time ≤ now.time

def transitionProposal (current : StoredProposal) (input : ProposalTransitionData) (now : Timestamp)
    (attribution : Attribution) : StoredProposal :=
  { current with
    status := input.status
    proposalVersion := current.proposalVersion + 1
    updatedAt := now
    latestAttribution := attribution
    decisionAt := if isDecision input.status then some now else current.decisionAt
    decisionAttribution := if isDecision input.status then some attribution else current.decisionAttribution
    decisionReason := if isDecision input.status then input.decisionReason else current.decisionReason
    failureReason :=
      if input.status = .failed then input.failureReason
      else if input.status = .executing then none
      else current.failureReason }

/-- The checks of `transition` on a proposal that is not due, after those of its version and of the clock. -/
def checkTransition (current : StoredProposal) (request : TransitionApprovalProposalSnapshot) (now : Timestamp) :
    Except ApprovalProposalStoreErrorCode Unit :=
  if request.status = .expired ∧ now.time < current.expiresAt.time then .error .notExpired
  else if request.status = .executing ∧ current.expiresAt.time ≤ now.time then .error .invalidTransition
  else if !isLegalApprovalProposalTransition current.status request.status then .error .invalidTransition
  else if request.status ∈ [.expired, .executing, .executed, .failed] ∧ request.attribution.actor.type ≠ .system then
    .error .invalidInput
  else if request.status ∈ [.confirmed, .rejected] ∧ request.attribution.actor.type ∉ [.user, .system] then
    .error .invalidInput
  else .ok ()

def compareProposals [Collation] (left right : StoredProposal) : Int :=
  if left.createdAt.time = right.createdAt.time then
    Collation.localeCompare left.proposalId.text right.proposalId.text
  else left.createdAt.time - right.createdAt.time

/-- The proposal that `create` stores. -/
def CreateApprovalProposalSnapshot.proposal (request : CreateApprovalProposalSnapshot) (now : Timestamp) :
    StoredProposal where
  proposalId := request.proposalId
  groupId := request.groupId
  turnId := request.turnId
  toolCallId := request.toolCallId
  toolName := request.toolName
  reviewedArguments := request.reviewedArguments
  status := .pending
  proposalVersion := 1
  expiresAt := request.expiresAt
  createdAt := now
  updatedAt := now
  createdAttribution := request.attribution
  latestAttribution := request.attribution
  decisionAt := none
  decisionAttribution := none
  decisionReason := none
  failureReason := none

namespace InMemoryApprovalProposalStore
variable (store : InMemoryApprovalProposalStore)

/-- The constructor, `none` when it throws. -/
def new (limits : ApprovalProposalStoreLimits) (expiryAttribution : Option AttributionInput) :
    Option InMemoryApprovalProposalStore := do
  let limits ← resolveLimits limits
  let expiryAttribution ← cloneAttribution (expiryAttribution.getD defaultExpiryAttribution)
  some ⟨limits, expiryAttribution, [], []⟩

/-- `this.#proposals.get(proposalId)` -/
def find (proposalId : Identifier) : Option StoredProposal := store.proposals.find? (·.proposalId == proposalId)

/-- `this.#proposals.set(proposal.proposal_id, proposal)` -/
def set (proposal : StoredProposal) : InMemoryApprovalProposalStore :=
  { store with proposals := setFirst (·.proposalId == proposal.proposalId) proposal store.proposals }

def expireIfDue (proposal : StoredProposal) (now : Timestamp) : InMemoryApprovalProposalStore × StoredProposal :=
  if proposal.isDue now then
    let expired := transitionProposal proposal .expired now store.expiryAttribution
    (store.set expired, expired)
  else (store, proposal)

def idempotentResult (operation : ApprovalProposalStoreOperation) (key fingerprint requestSignature : JsString) :
    Except ApprovalProposalStoreError (Option StoredProposal) :=
  match store.idempotency.find? (·.key == key) with
  | none => .ok none
  | some retained =>
    if retained.operation ≠ operation ∨ retained.fingerprint ≠ fingerprint ∨
        retained.requestSignature ≠ requestSignature then
      .error ⟨.idempotencyConflict, operation⟩
    else .ok (some retained.result)

/-- `#retainIdempotency`: the oldest records go until there is room for one more. -/
def retainIdempotency (record : IdempotencyRecord) : InMemoryApprovalProposalStore :=
  let kept := store.idempotency.drop (store.idempotency.length + 1 - store.limits.maxIdempotencyRecords)
  { store with idempotency := setFirst (·.key == record.key) record kept }

/-- The serialized part of `create`. -/
def createStored (request : CreateApprovalProposalSnapshot) (now : Option Timestamp) :
    InMemoryApprovalProposalStore × Except ApprovalProposalStoreError StoredProposal :=
  let signature := createRequestSignature request
  match store.idempotentResult .create request.idempotencyKey request.idempotencyFingerprint signature with
  | .error error => (store, .error error)
  | .ok (some retry) => (store, .ok retry)
  | .ok none =>
    if (store.find request.proposalId).isSome then (store, .error ⟨.idempotencyConflict, .create⟩)
    else if store.limits.maxProposals ≤ store.proposals.length then (store, .error ⟨.capacityExceeded, .create⟩)
    else
      match now with
      | none => (store, .error ⟨.unavailable, .create⟩)
      | some now =>
        if request.expiresAt.time ≤ now.time then (store, .error ⟨.invalidInput, .create⟩)
        else if request.attribution.actor.type ≠ .system then (store, .error ⟨.invalidInput, .create⟩)
        else
          let proposal := request.proposal now
          ((store.set proposal).retainIdempotency
            ⟨request.idempotencyKey, .create, request.idempotencyFingerprint, signature, proposal⟩, .ok proposal)

/-- The serialized part of `get`. -/
def getStored (proposalId : Identifier) (now : Option Timestamp) :
    InMemoryApprovalProposalStore × Except ApprovalProposalStoreError (Option StoredProposal) :=
  match store.find proposalId with
  | none => (store, .ok none)
  | some proposal =>
    match now with
    | none => (store, .error ⟨.unavailable, .get⟩)
    | some now =>
      let (next, proposal) := store.expireIfDue proposal now
      (next, .ok (some proposal))

/-- The loop of `listGroup` over the values of the map, with the proposals of the group. -/
def expireGroup (groupId : Identifier) (now : Timestamp) :
    List StoredProposal → InMemoryApprovalProposalStore → InMemoryApprovalProposalStore × List StoredProposal
  | [], store => (store, [])
  | proposal :: rest, store =>
    if proposal.groupId = some groupId then
      let (next, listed) := store.expireIfDue proposal now
      let (last, others) := expireGroup groupId now rest next
      (last, listed :: others)
    else expireGroup groupId now rest store

/-- The serialized part of `listGroup`. -/
def listGroupStored [Collation] (groupId : Identifier) (now : Option Timestamp) :
    InMemoryApprovalProposalStore × Except ApprovalProposalStoreError (List StoredProposal) :=
  match now with
  | none => (store, .error ⟨.unavailable, .listGroup⟩)
  | some now =>
    let (next, listed) := expireGroup groupId now store.proposals store
    (next, .ok (listed.mergeSort fun left right => compareProposals left right ≤ 0))

/-- The serialized part of `transition`. -/
def transitionStored (request : TransitionApprovalProposalSnapshot) (now : Option Timestamp) :
    InMemoryApprovalProposalStore × Except ApprovalProposalStoreError StoredProposal :=
  let signature := transitionRequestSignature request
  match store.idempotentResult .transition request.idempotencyKey request.idempotencyFingerprint signature with
  | .error error => (store, .error error)
  | .ok (some retry) => (store, .ok retry)
  | .ok none =>
    match store.find request.proposalId with
    | none => (store, .error ⟨.notFound, .transition⟩)
    | some current =>
      if current.proposalVersion ≠ request.expectedVersion.value then (store, .error ⟨.versionConflict, .transition⟩)
      else
        match now with
        | none => (store, .error ⟨.unavailable, .transition⟩)
        | some now =>
          if now.time < current.updatedAt.time then (store, .error ⟨.unavailable, .transition⟩)
          else if current.isDue now && request.status != .expired then
            ((store.expireIfDue current now).1, .error ⟨.invalidTransition, .transition⟩)
          else
            match checkTransition current request now with
            | .error code => (store, .error ⟨code, .transition⟩)
            | .ok () =>
              let next := transitionProposal current request.toProposalTransitionData now request.attribution
              ((store.set next).retainIdempotency
                ⟨request.idempotencyKey, .transition, request.idempotencyFingerprint, signature, next⟩, .ok next)

/-! ### Calls -/

def create (input : CreateApprovalProposalInput) (reading : HostReading) :
    InMemoryApprovalProposalStore × Except ApprovalProposalStoreError StoredProposal :=
  match snapshotCreateInput store.limits input with
  | none => (store, .error ⟨.invalidInput, .create⟩)
  | some request =>
    if reading.permitted then store.createStored request reading.now
    else (store, .error ⟨.permissionDenied, .create⟩)

def get (proposalId : JsString) (reading : HostReading) :
    InMemoryApprovalProposalStore × Except ApprovalProposalStoreError (Option StoredProposal) :=
  match readIdentifier proposalId with
  | none => (store, .error ⟨.invalidInput, .get⟩)
  | some proposalId =>
    if reading.permitted then store.getStored proposalId reading.now
    else (store, .error ⟨.permissionDenied, .get⟩)

def listGroup [Collation] (groupId : JsString) (reading : HostReading) :
    InMemoryApprovalProposalStore × Except ApprovalProposalStoreError (List StoredProposal) :=
  match readIdentifier groupId with
  | none => (store, .error ⟨.invalidInput, .listGroup⟩)
  | some groupId =>
    if reading.permitted then store.listGroupStored groupId reading.now
    else (store, .error ⟨.permissionDenied, .listGroup⟩)

def transition (input : TransitionApprovalProposalInput) (reading : HostReading) :
    InMemoryApprovalProposalStore × Except ApprovalProposalStoreError StoredProposal :=
  match snapshotTransitionInput store.limits input with
  | none => (store, .error ⟨.invalidInput, .transition⟩)
  | some request =>
    if reading.permitted then store.transitionStored request reading.now
    else (store, .error ⟨.permissionDenied, .transition⟩)

end InMemoryApprovalProposalStore

inductive ApprovalStoreCall where
  | create (input : CreateApprovalProposalInput)
  | get (proposalId : JsString)
  | listGroup (groupId : JsString)
  | transition (input : TransitionApprovalProposalInput)

inductive ApprovalStoreResult where
  | proposal (proposal : StoredProposal)
  | found (proposal : Option StoredProposal)
  | listed (proposals : List StoredProposal)

def ApprovalStoreCall.expectedVersion : ApprovalStoreCall → Option Nat
  | .transition input => (readSafeInteger 1 input.expectedVersion).map SafeInteger.value
  | _ => none

namespace InMemoryApprovalProposalStore
variable [Collation]

def call (store : InMemoryApprovalProposalStore) (call : ApprovalStoreCall) (reading : HostReading) :
    InMemoryApprovalProposalStore × Except ApprovalProposalStoreError ApprovalStoreResult :=
  match call with
  | .create input => (store.create input reading).map id (Except.map .proposal)
  | .get proposalId => (store.get proposalId reading).map id (Except.map .found)
  | .listGroup groupId => (store.listGroup groupId reading).map id (Except.map .listed)
  | .transition input => (store.transition input reading).map id (Except.map .proposal)

def run (store : InMemoryApprovalProposalStore) (calls : List (ApprovalStoreCall × HostReading)) :
    InMemoryApprovalProposalStore :=
  calls.foldl (fun store call => (store.call call.1 call.2).1) store

end InMemoryApprovalProposalStore

end Handrail.Conversation

import Handrail.Conversation.Vocabulary

/-!
# `events.ts`

The durable events of a conversation and their parser. A parsed event keeps every field of the JSON
value; the order of its fields is not kept, since nothing reads it. The citation records of a
payload are the normalized records that the parser compared with the given ones.
-/

namespace Handrail.Conversation
open Js

/-- `CONVERSATION_EVENT_TYPES` -/
inductive ConversationEventType where
  | messageCreated
  | messageTextAppended
  | messageAttachmentReferenced
  | citationRecordsLinked
  | turnStarted
  | turnStatusChanged
  | turnAttemptStarted
  | turnRetryScheduled
  | turnRetryExhausted
  | turnCancellationRequested
  | turnCancellationUnsupported
  | turnCompleted
  | turnCancelled
  | turnFailed
  | toolCallRequested
  | toolCallDiscovered
  | toolCallStarted
  | toolCallApprovalRequired
  | approvalProposalCreated
  | approvalProposalStatusChanged
  | toolCallResultRecorded
  | toolLoopBudgetExhausted
  | usageReceiptLinked
  | metadataUpdated
  | titleUpdated
deriving DecidableEq, Repr

namespace ConversationEventType

def values : List ConversationEventType := [
  messageCreated, messageTextAppended, messageAttachmentReferenced, citationRecordsLinked, turnStarted,
  turnStatusChanged, turnAttemptStarted, turnRetryScheduled, turnRetryExhausted,
  turnCancellationRequested, turnCancellationUnsupported, turnCompleted, turnCancelled, turnFailed,
  toolCallRequested, toolCallDiscovered, toolCallStarted, toolCallApprovalRequired,
  approvalProposalCreated, approvalProposalStatusChanged, toolCallResultRecorded,
  toolLoopBudgetExhausted, usageReceiptLinked, metadataUpdated, titleUpdated]

def text : ConversationEventType → String
  | messageCreated => "message.created"
  | messageTextAppended => "message.text_appended"
  | messageAttachmentReferenced => "message.attachment_referenced"
  | citationRecordsLinked => "citation.records_linked"
  | turnStarted => "turn.started"
  | turnStatusChanged => "turn.status_changed"
  | turnAttemptStarted => "turn.attempt_started"
  | turnRetryScheduled => "turn.retry_scheduled"
  | turnRetryExhausted => "turn.retry_exhausted"
  | turnCancellationRequested => "turn.cancellation_requested"
  | turnCancellationUnsupported => "turn.cancellation_unsupported"
  | turnCompleted => "turn.completed"
  | turnCancelled => "turn.cancelled"
  | turnFailed => "turn.failed"
  | toolCallRequested => "tool_call.requested"
  | toolCallDiscovered => "tool_call.discovered"
  | toolCallStarted => "tool_call.started"
  | toolCallApprovalRequired => "tool_call.approval_required"
  | approvalProposalCreated => "approval.proposal_created"
  | approvalProposalStatusChanged => "approval.proposal_status_changed"
  | toolCallResultRecorded => "tool_call.result_recorded"
  | toolLoopBudgetExhausted => "tool_loop.budget_exhausted"
  | usageReceiptLinked => "usage.receipt_linked"
  | metadataUpdated => "conversation.metadata_updated"
  | titleUpdated => "conversation.title_updated"

def ofText (discriminator : JsString) : Option ConversationEventType :=
  values.find? fun type => js type.text == discriminator

end ConversationEventType

/-- `ConversationTurnError` -/
structure TurnError where
  code : Identifier
  message : BoundedText true 4096
  retryable : Bool
deriving DecidableEq, Repr

/-- `ConversationToolResultContentPart` -/
inductive ToolResultPart where
  | text (text : JsString)
  | json (value : Json)

/-- `ConversationCitationTarget` -/
inductive CitationTarget where
  | assistantMessage (messageId : Identifier)
  | toolResult (turnId toolCallId : Identifier)
deriving DecidableEq, Repr

/-- The statuses of `ApprovalProposalDecisionPayload`. -/
inductive DecisionStatus where
  | confirmed
  | rejected
  | expired
deriving DecidableEq, Repr

def DecisionStatus.status : DecisionStatus → ApprovalProposalStatus
  | confirmed => .confirmed
  | rejected => .rejected
  | expired => .expired

/-- What an `approval.proposal_status_changed` payload says of the status. -/
inductive ApprovalChange where
  | decision (status : DecisionStatus) (decisionReason : Option JsString)
  | executing
  | executed
  | failed (failureReason : JsString)
deriving DecidableEq, Repr

def ApprovalChange.status : ApprovalChange → ApprovalProposalStatus
  | decision status _ => status.status
  | executing => .executing
  | executed => .executed
  | failed _ => .failed

/-- The fields of an `approval.proposal_created` payload, beside its constant status and version. -/
structure ApprovalProposal where
  proposalId : Identifier
  groupId : Option Identifier
  turnId : Identifier
  toolCallId : Identifier
  toolName : Identifier
  expiresAt : Timestamp
  reviewedArguments : ReviewedArguments

inductive ConversationEventPayload where
  | messageCreated (messageId : Identifier) (role : MessageRole) (content : List (BoundedText true 1000000))
  | messageTextAppended (turnId messageId : Identifier) (text : BoundedText false 1000000)
  | messageAttachmentReferenced (messageId : Identifier) (attachment : AttachmentReference)
  | citationRecordsLinked (target : CitationTarget) (records : CitationRecordSet)
  | turnStarted (turnId : Identifier) (inputMessageIds : List Identifier)
      (continuationOfTurnId : Option Identifier)
  | turnStatusChanged (turnId : Identifier) (status : TurnStatus)
  | turnAttemptStarted (turnId : Identifier) (attempt : PositiveSafeInteger)
      (operation : TurnAttemptOperation)
  | turnRetryScheduled (turnId : Identifier) (attempt : PositiveSafeInteger)
      (reasonCategory : RetryReasonCategory) (delayMs : SafeInteger 0)
  | turnRetryExhausted (turnId : Identifier) (attempt : PositiveSafeInteger)
      (reasonCategory : RetryReasonCategory) (exhaustionReason : RetryExhaustionReason)
  | turnCancellationRequested (turnId : Identifier) (reason : TurnCancellationReason)
  | turnCancellationUnsupported (turnId : Identifier) (reason : TurnCancellationReason)
  | turnCompleted (turnId : Identifier) (outcome : TurnCompletionOutcome)
      (outputMessageIds : List Identifier)
  | turnCancelled (turnId : Identifier) (reason : TurnCancellationReason)
  | turnFailed (turnId : Identifier) (error : TurnError)
  | toolCallRequested (turnId toolCallId name : Identifier) (arguments : JsonObject)
  | toolCallDiscovered (turnId toolCallId : Identifier)
  | toolCallStarted (turnId toolCallId : Identifier)
  | toolCallApprovalRequired (turnId toolCallId : Identifier)
  | approvalProposalCreated (proposal : ApprovalProposal)
  | approvalProposalStatusChanged (proposalId : Identifier) (proposalVersion : PositiveSafeInteger)
      (change : ApprovalChange)
  | toolCallResultRecorded (turnId toolCallId : Identifier) (content : List ToolResultPart)
      (isError : Bool) (citationRecords : Option CitationRecordSet)
  | toolLoopBudgetExhausted (turnId : Identifier) (budget : ToolLoopBudget) (limit : PositiveSafeInteger)
  | usageReceiptLinked (turnId usageReceiptId : Identifier)
  | metadataUpdated (metadata : JsonObject)
  | titleUpdated (title : Option (BoundedText true 4096))

structure ConversationEvent where
  eventId : Identifier
  conversationId : Identifier
  revision : Nat
  occurredAt : Timestamp
  actor : Actor
  source : Source
  mutationId : Option Identifier
  metadata : Option JsonObject
  payload : ConversationEventPayload

/-! ### The payload parsers -/

/-- `value === literal` for a string literal. -/
def isLiteral (value : Option Json) (text : String) : Bool :=
  match value with
  | some (.str s) => s == js text
  | _ => false

/-- `value === n` -/
def isNumber (value : Option Json) (n : Nat) : Bool :=
  match value with
  | some (.num x) => JsNumber.strictEqual x (.ofNat n)
  | _ => false

/-- A failed check of `citations.ts`, reported by its message. -/
def caught {α : Type} (check : Checked α) : Checked α :=
  check.mapError fun e => ⟨JsString.empty, e.path ++ js ": " ++ e.message⟩

theorem caught_eq_ok {α : Type} {check : Checked α} {value : α} : caught check = .ok value ↔ check = .ok value := by
  unfold caught
  cases check <;> simp [Except.mapError]

def validateTextPart (value : Option Json) : Checked (BoundedText true 1000000) := do
  let object ← record "must be a JSON object" value
  requiredKeys object ["type", "text"]
  allowedKeys object ["type", "text"]
  if !isLiteral (Json.get object "type") "text" then under (js ".type") (fail (js "must equal \"text\""))
  else field object "text" (stringValue true eventLimits.textLength)

def validateToolResultPart (value : Option Json) : Checked ToolResultPart := do
  let object ← record "must be a JSON object" value
  if isLiteral (Json.get object "type") "text" then (validateTextPart value).map fun t => .text t.text
  else if isLiteral (Json.get object "type") "json" then do
    requiredKeys object ["type", "value"]
    allowedKeys object ["type", "value"]
    field object "value" fun value => do
      let json := value.getD .null
      validateJson jsonLimits json
      .ok (.json json)
  else under (js ".type") (fail (js "must equal \"text\" or \"json\""))

def contentArray {α : Type} (part : Option Json → Checked α) : Option Json → Checked (List α)
  | some (.arr (item :: rest)) => eachItem part 0 (item :: rest)
  | _ => fail (js "must be a non-empty array")

def validateTurnError (value : Option Json) : Checked TurnError := do
  let object ← record "must be a JSON object" value
  requiredKeys object ["code", "message", "retryable"]
  allowedKeys object ["code", "message", "retryable"]
  let code ← field object "code" identifier
  let message ← field object "message" (stringValue true eventLimits.titleLength)
  let retryable ← field object "retryable" booleanValue
  .ok { code, message, retryable }

/-- The text of one `message.text_appended` event. -/
def textChunk (value : Option Json) : Checked (BoundedText false 1000000) := do
  let text ← stringValue false eventLimits.textLength value
  if eventLimits.textChunkBytes < utf8ByteLength text.text then
    fail (js "must be at most " ++ decimal eventLimits.textChunkBytes ++ js " UTF-8 bytes")
  else .ok text

def validateCitationTarget (value : Option Json) : Checked CitationTarget := do
  let target ← record "must be a JSON object" value
  requiredKeys target ["type"]
  if isLiteral (Json.get target "type") "assistant_message" then do
    requiredKeys target ["message_id"]
    allowedKeys target ["type", "message_id"]
    let messageId ← field target "message_id" identifier
    .ok (.assistantMessage messageId)
  else if isLiteral (Json.get target "type") "tool_result" then do
    requiredKeys target ["turn_id", "tool_call_id"]
    allowedKeys target ["type", "turn_id", "tool_call_id"]
    let turnId ← field target "turn_id" identifier
    let toolCallId ← field target "tool_call_id" identifier
    .ok (.toolResult turnId toolCallId)
  else under (js ".type") (fail (js "must equal \"assistant_message\" or \"tool_result\""))

def CitationTarget.covers : CitationTarget → CitationAttachmentTarget → Bool
  | assistantMessage messageId, .assistantMessage linked => linked == messageId.text
  | toolResult _ toolCallId, .toolResult linked => linked == toolCallId.text
  | _, _ => false

section
variable [WebPlatform]

/-- The records of a `citation.records_linked` payload. -/
def linkedRecords (object : Fields) (target : CitationTarget) : Checked CitationRecordSet := do
  let records ← caught
    (deduplicateCitationRecords (Json.get object "sources") (Json.get object "citations"))
  if records.citations.isEmpty then
    under (js ".citations") (fail (js "must contain at least one citation link"))
  else if !(Json.get object "sources").any
        (jsonValuesEqual (.arr (records.sources.map CitationSource.codec.encode))) ||
      !(Json.get object "citations").any
        (jsonValuesEqual (.arr (records.citations.map Citation.codec.encode))) then
    fail (js "citation records must already be normalized and identity-deduplicated")
  else if !records.citations.all (target.covers ·.target) then
    under (js ".citations") (fail (js "must contain only links to the payload target"))
  else .ok records

/-- The `citation_records` of a tool result. -/
def resultRecords (toolCallId : Identifier) (value : Option Json) : Checked CitationRecordSet := do
  let records ← caught (normalizeCitationRecords value)
  if records.citations.isEmpty then
    under (js ".citations") (fail (js "must contain at least one citation link"))
  else if !value.any (jsonValuesEqual (CitationRecordSet.codec.encode records)) then
    fail (js "must already be normalized and identity-deduplicated")
  else if !records.citations.all (·.target == .toolResult toolCallId.text) then
    under (js ".citations") (fail (js "must contain only links to this tool result"))
  else .ok records

def parseApprovalProposal (object : Fields) : Checked ApprovalProposal := do
  requiredKeys object ["proposal_id", "turn_id", "tool_call_id", "tool_name", "status",
    "proposal_version", "expires_at", "reviewed_arguments"]
  allowedKeys object ["type", "proposal_id", "group_id", "turn_id", "tool_call_id", "tool_name",
    "status", "proposal_version", "expires_at", "reviewed_arguments"]
  let proposalId ← field object "proposal_id" identifier
  let groupId ← optionalField object "group_id" identifier
  let turnId ← field object "turn_id" identifier
  let toolCallId ← field object "tool_call_id" identifier
  let toolName ← field object "tool_name" identifier
  if !isLiteral (Json.get object "status") "pending" then
    under (js ".status") (fail (js "must equal \"pending\""))
  else if !isNumber (Json.get object "proposal_version") 1 then
    under (js ".proposal_version") (fail (js "must equal the initial version 1"))
  else
    let expiresAt ← field object "expires_at" validateTimestamp
    let reviewedArguments ← field object "reviewed_arguments" validateApprovalReviewedArguments
    .ok { proposalId, groupId, turnId, toolCallId, toolName, expiresAt, reviewedArguments }

def transitionStatuses : List ApprovalProposalStatus :=
  (Enumeration.values (α := ApprovalProposalStatus)).filter (· ≠ .pending)

def parseDecision (object : Fields) (status : DecisionStatus) : Checked ApprovalChange := do
  allowedKeys object ["type", "proposal_id", "proposal_version", "status", "decision_reason"]
  let reason ← optionalField object "decision_reason" validateApprovalReason
  .ok (.decision status reason)

def parseApprovalChange (object : Fields) (status : ApprovalProposalStatus) : Checked ApprovalChange :=
  match status with
  | .confirmed => parseDecision object .confirmed
  | .rejected => parseDecision object .rejected
  | .expired => parseDecision object .expired
  | .failed => do
    requiredKeys object ["failure_reason"]
    allowedKeys object ["type", "proposal_id", "proposal_version", "status", "failure_reason"]
    let reason ← field object "failure_reason" validateApprovalReason
    .ok (.failed reason)
  | .executing => do
    allowedKeys object ["type", "proposal_id", "proposal_version", "status"]
    .ok .executing
  -- `pending` is not among the transition statuses.
  | .executed | .pending => do
    allowedKeys object ["type", "proposal_id", "proposal_version", "status"]
    .ok .executed

def parseToolCallStage (object : Fields) (payload : Identifier → Identifier → ConversationEventPayload) :
    Checked ConversationEventPayload := do
  requiredKeys object ["turn_id", "tool_call_id"]
  allowedKeys object ["type", "turn_id", "tool_call_id"]
  let turnId ← field object "turn_id" identifier
  let toolCallId ← field object "tool_call_id" identifier
  .ok (payload turnId toolCallId)

def parseTurnReason (object : Fields)
    (payload : Identifier → TurnCancellationReason → ConversationEventPayload) :
    Checked ConversationEventPayload := do
  requiredKeys object ["turn_id", "reason"]
  allowedKeys object ["type", "turn_id", "reason"]
  let turnId ← field object "turn_id" identifier
  let reason ← field object "reason" (enumValue Enumeration.values)
  .ok (payload turnId reason)

/-- The cases of `validatePayload`. -/
def parsePayloadFields (object : Fields) : ConversationEventType → Checked ConversationEventPayload
  | .messageCreated => do
    requiredKeys object ["message_id", "role", "content"]
    allowedKeys object ["type", "message_id", "role", "content"]
    let messageId ← field object "message_id" identifier
    let role ← field object "role" (enumValue Enumeration.values)
    let content ← field object "content" (contentArray validateTextPart)
    .ok (.messageCreated messageId role content)
  | .messageTextAppended => do
    requiredKeys object ["turn_id", "message_id", "text"]
    allowedKeys object ["type", "turn_id", "message_id", "text"]
    let turnId ← field object "turn_id" identifier
    let messageId ← field object "message_id" identifier
    let text ← field object "text" textChunk
    .ok (.messageTextAppended turnId messageId text)
  | .messageAttachmentReferenced => do
    requiredKeys object ["message_id", "attachment"]
    allowedKeys object ["type", "message_id", "attachment"]
    let messageId ← field object "message_id" identifier
    let attachment ← field object "attachment" validateAttachmentReference
    .ok (.messageAttachmentReferenced messageId attachment)
  | .citationRecordsLinked => do
    requiredKeys object ["citation_records_version", "target", "sources", "citations"]
    allowedKeys object ["type", "citation_records_version", "target", "sources", "citations"]
    if !isNumber (Json.get object "citation_records_version") 1 then
      under (js ".citation_records_version") (fail (js "must equal 1"))
    else
      let target ← field object "target" validateCitationTarget
      let records ← linkedRecords object target
      .ok (.citationRecordsLinked target records)
  | .turnStarted => do
    requiredKeys object ["turn_id", "input_message_ids"]
    allowedKeys object ["type", "turn_id", "input_message_ids", "continuation_of_turn_id"]
    let turnId ← field object "turn_id" identifier
    let inputMessageIds ← field object "input_message_ids" (identifierArray false)
    let continuationOfTurnId ← optionalField object "continuation_of_turn_id" identifier
    .ok (.turnStarted turnId inputMessageIds continuationOfTurnId)
  | .turnStatusChanged => do
    requiredKeys object ["turn_id", "status"]
    allowedKeys object ["type", "turn_id", "status"]
    let turnId ← field object "turn_id" identifier
    let status ← field object "status" (enumValue Enumeration.values)
    .ok (.turnStatusChanged turnId status)
  | .turnAttemptStarted => do
    requiredKeys object ["turn_id", "attempt", "operation"]
    allowedKeys object ["type", "turn_id", "attempt", "operation"]
    let turnId ← field object "turn_id" identifier
    let attempt ← field object "attempt" positiveSafeInteger
    let operation ← field object "operation" (enumValue Enumeration.values)
    .ok (.turnAttemptStarted turnId attempt operation)
  | .turnRetryScheduled => do
    requiredKeys object ["turn_id", "attempt", "reason_category", "delay_ms"]
    allowedKeys object ["type", "turn_id", "attempt", "reason_category", "delay_ms"]
    let turnId ← field object "turn_id" identifier
    let attempt ← field object "attempt" positiveSafeInteger
    let reasonCategory ← field object "reason_category" (enumValue Enumeration.values)
    let delayMs ← field object "delay_ms" nonnegativeSafeInteger
    .ok (.turnRetryScheduled turnId attempt reasonCategory delayMs)
  | .turnRetryExhausted => do
    requiredKeys object ["turn_id", "attempt", "reason_category", "exhaustion_reason"]
    allowedKeys object ["type", "turn_id", "attempt", "reason_category", "exhaustion_reason"]
    let turnId ← field object "turn_id" identifier
    let attempt ← field object "attempt" positiveSafeInteger
    let reasonCategory ← field object "reason_category" (enumValue Enumeration.values)
    let exhaustionReason ← field object "exhaustion_reason" (enumValue Enumeration.values)
    .ok (.turnRetryExhausted turnId attempt reasonCategory exhaustionReason)
  | .turnCancellationRequested => parseTurnReason object .turnCancellationRequested
  | .turnCancellationUnsupported => parseTurnReason object .turnCancellationUnsupported
  | .turnCompleted => do
    requiredKeys object ["turn_id", "outcome", "output_message_ids"]
    allowedKeys object ["type", "turn_id", "outcome", "output_message_ids"]
    let turnId ← field object "turn_id" identifier
    let outcome ← field object "outcome" (enumValue Enumeration.values)
    let outputMessageIds ← field object "output_message_ids" (identifierArray true)
    .ok (.turnCompleted turnId outcome outputMessageIds)
  | .turnCancelled => parseTurnReason object .turnCancelled
  | .turnFailed => do
    requiredKeys object ["turn_id", "error"]
    allowedKeys object ["type", "turn_id", "error"]
    let turnId ← field object "turn_id" identifier
    let error ← field object "error" validateTurnError
    .ok (.turnFailed turnId error)
  | .toolCallRequested => do
    requiredKeys object ["turn_id", "tool_call_id", "name", "arguments"]
    allowedKeys object ["type", "turn_id", "tool_call_id", "name", "arguments"]
    let turnId ← field object "turn_id" identifier
    let toolCallId ← field object "tool_call_id" identifier
    let name ← field object "name" identifier
    let arguments ← field object "arguments" (validateObject jsonLimits)
    .ok (.toolCallRequested turnId toolCallId name arguments)
  | .toolCallDiscovered => parseToolCallStage object .toolCallDiscovered
  | .toolCallStarted => parseToolCallStage object .toolCallStarted
  | .toolCallApprovalRequired => parseToolCallStage object .toolCallApprovalRequired
  | .approvalProposalCreated => (parseApprovalProposal object).map .approvalProposalCreated
  | .approvalProposalStatusChanged => do
    requiredKeys object ["proposal_id", "proposal_version", "status"]
    let proposalId ← field object "proposal_id" identifier
    let proposalVersion ← field object "proposal_version" positiveSafeInteger
    let status ← field object "status" (enumValue transitionStatuses)
    let change ← parseApprovalChange object status
    .ok (.approvalProposalStatusChanged proposalId proposalVersion change)
  | .toolCallResultRecorded => do
    requiredKeys object ["turn_id", "tool_call_id", "content", "is_error"]
    allowedKeys object ["type", "turn_id", "tool_call_id", "content", "is_error", "citation_records"]
    let turnId ← field object "turn_id" identifier
    let toolCallId ← field object "tool_call_id" identifier
    let content ← field object "content" (contentArray validateToolResultPart)
    let isError ← field object "is_error" booleanValue
    let citationRecords ← optionalField object "citation_records" (resultRecords toolCallId)
    .ok (.toolCallResultRecorded turnId toolCallId content isError citationRecords)
  | .toolLoopBudgetExhausted => do
    requiredKeys object ["turn_id", "budget", "limit"]
    allowedKeys object ["type", "turn_id", "budget", "limit"]
    let turnId ← field object "turn_id" identifier
    let budget ← field object "budget" (enumValue Enumeration.values)
    let limit ← field object "limit" positiveSafeInteger
    .ok (.toolLoopBudgetExhausted turnId budget limit)
  | .usageReceiptLinked => do
    requiredKeys object ["turn_id", "usage_receipt_id"]
    allowedKeys object ["type", "turn_id", "usage_receipt_id"]
    let turnId ← field object "turn_id" identifier
    let usageReceiptId ← field object "usage_receipt_id" identifier
    .ok (.usageReceiptLinked turnId usageReceiptId)
  | .metadataUpdated => do
    requiredKeys object ["metadata"]
    allowedKeys object ["type", "metadata"]
    let metadata ← field object "metadata" validateMetadata
    .ok (.metadataUpdated metadata)
  | .titleUpdated => do
    requiredKeys object ["title"]
    allowedKeys object ["type", "title"]
    match Json.get object "title" with
    | some .null => .ok (.titleUpdated none)
    | value => do
      let title ← under (js ".title") (stringValue true eventLimits.titleLength value)
      .ok (.titleUpdated (some title))

def validatePayload (value : Option Json) : Checked ConversationEventPayload := do
  let object ← record "must be a JSON object" value
  requiredKeys object ["type"]
  let discriminator := match Json.get object "type" with
    | some (.str text) => ConversationEventType.ofText text
    | _ => none
  match discriminator with
  | none => under (js ".type") (fail (js "is not a supported durable event discriminator"))
  | some type => parsePayloadFields object type

def checkApprovalLifecycle (actor : Actor) (occurredAt : Timestamp) :
    ConversationEventPayload → Checked Unit
  | .approvalProposalCreated proposal =>
    if actor.type ≠ .system then
      under (js ".actor.type")
        (fail (js "approval proposals must be created by an explicit host system actor"))
    else if proposal.expiresAt.time ≤ occurredAt.time then
      under (js ".payload.expires_at") (fail (js "must be later than occurred_at"))
    else .ok ()
  | .approvalProposalStatusChanged _ _ change =>
    if actor.type ≠ .user ∧ actor.type ≠ .system then
      under (js ".actor.type")
        (fail (js "approval lifecycle changes require an explicit user or host system actor"))
    else if change.status ∈ [.expired, .executing, .executed, .failed] ∧ actor.type ≠ .system then
      under (js ".actor.type")
        (fail (js (Enumeration.text change.status) ++ js " lifecycle changes require a host system actor"))
    else .ok ()
  | _ => .ok ()

def parseMutationId (object : Fields) (source : Source) : Checked (Option Identifier) := do
  let mutationId ← optionalField object "mutation_id" identifier
  if mutationId.isSome ∧ source = .import then
    under (js ".mutation_id") (fail (js "is not supported for imported events"))
  else .ok mutationId

def parseConversationEvent (value : Json) : Checked ConversationEvent :=
  under (js "$event") do
    let object ← record "must be a JSON object" (some value)
    requiredKeys object ["version", "event_id", "conversation_id", "revision", "occurred_at", "actor",
      "source", "payload"]
    allowedKeys object ["version", "event_id", "conversation_id", "revision", "occurred_at", "actor",
      "source", "mutation_id", "metadata", "payload"]
    if !isNumber (Json.get object "version") 1 then under (js ".version") (fail (js "must equal 1"))
    else
      let eventId ← field object "event_id" identifier
      let conversationId ← field object "conversation_id" identifier
      let revision ← field object "revision"
        (safeInteger 1 "must be a positive safe integer monotonic revision")
      let occurredAt ← field object "occurred_at" validateTimestamp
      let actor ← field object "actor" validateActor
      let source ← field object "source" validateSource
      let mutationId ← parseMutationId object source
      let metadata ← optionalField object "metadata" validateMetadata
      let payload ← field object "payload" validatePayload
      checkApprovalLifecycle actor occurredAt payload
      .ok { eventId, conversationId, revision := revision.value, occurredAt, actor, source, mutationId,
            metadata, payload }

end

end Handrail.Conversation

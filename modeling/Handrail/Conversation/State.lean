import Handrail.Conversation.Events

/-!
# `state.ts`

The projected state of a conversation, with the JSON that it is written as. Only retained citation
records keep the field order of the JSON they were read from, since only they are compared as text.
-/

namespace Handrail.Conversation
open Js

/-- `ConversationTurnStateStatus` -/
inductive TurnStateStatus where
  | queued
  | running
  | waitingForToolResult
  | completed
  | cancelled
  | failed
deriving DecidableEq, Repr

instance : Enumeration TurnStateStatus where
  text
    | .queued => "queued"
    | .running => "running"
    | .waitingForToolResult => "waiting_for_tool_result"
    | .completed => "completed"
    | .cancelled => "cancelled"
    | .failed => "failed"
  values := [.queued, .running, .waitingForToolResult, .completed, .cancelled, .failed]
  mem_values a := by cases a <;> simp
  text_injective {a b} same := by cases a <;> cases b <;> simp_all

def TurnStatus.state : TurnStatus → TurnStateStatus
  | .queued => .queued
  | .running => .running
  | .waitingForToolResult => .waitingForToolResult

/-- `ConversationTurnCancellationStatus` -/
inductive TurnCancellationStatus where
  | requested
  | unsupported
  | cancelled
deriving DecidableEq, Repr

instance : Enumeration TurnCancellationStatus where
  text
    | .requested => "requested"
    | .unsupported => "unsupported"
    | .cancelled => "cancelled"
  values := [.requested, .unsupported, .cancelled]
  mem_values a := by cases a <;> simp
  text_injective {a b} same := by cases a <;> cases b <;> simp_all

/-- `ConversationMessageRecord`; the content is the list of its text parts. -/
structure MessageRecord where
  messageId : Identifier
  /-- `undefined` is `none` and `null` is `some none`. -/
  turnId : Option (Option Identifier)
  role : Option MessageRole
  content : List JsString
  attachments : List AttachmentReference
  createdAt : Option Timestamp
  attribution : Option Attribution
deriving DecidableEq, Repr

/-- `ConversationAttachmentRecord` -/
structure AttachmentRecord where
  messageId : Identifier
  attachmentId : JsString
  reference : AttachmentReference
  referencedAt : Timestamp
  attribution : Attribution
deriving DecidableEq, Repr

/-- `ConversationTurnRetryRecord` -/
inductive TurnRetryRecord where
  | attemptStarted (attempt : PositiveSafeInteger) (operation : TurnAttemptOperation)
      (occurredAt : Timestamp) (attribution : Attribution)
  | retryScheduled (attempt : PositiveSafeInteger) (reasonCategory : RetryReasonCategory)
      (delayMs : SafeInteger 0) (occurredAt : Timestamp) (attribution : Attribution)
  | retryExhausted (attempt : PositiveSafeInteger) (reasonCategory : RetryReasonCategory)
      (exhaustionReason : RetryExhaustionReason) (occurredAt : Timestamp) (attribution : Attribution)
deriving DecidableEq, Repr

def TurnRetryRecord.attribution : TurnRetryRecord → Attribution
  | attemptStarted _ _ _ attribution => attribution
  | retryScheduled _ _ _ _ attribution => attribution
  | retryExhausted _ _ _ _ attribution => attribution

/-- `ConversationTurnRecord` -/
structure TurnRecord where
  turnId : Identifier
  continuationOfTurnId : Option Identifier
  status : TurnStateStatus
  inputMessageIds : List Identifier
  outputMessageIds : List Identifier
  outcome : Option TurnCompletionOutcome
  cancellationReason : Option TurnCancellationReason
  cancellationStatus : Option TurnCancellationStatus
  cancellationRequestedReason : Option TurnCancellationReason
  remoteMayStillBeRunning : Bool
  error : Option TurnError
  retryHistory : List TurnRetryRecord
  startedAt : Option Timestamp
  terminalAt : Option Timestamp
  attribution : Option Attribution
deriving DecidableEq, Repr

/-- `ConversationToolResultRecord` -/
structure ToolResultRecord where
  content : List ToolResultPart
  isError : Bool
  citationRecords : Option CitationRecordSet
  recordedAt : Timestamp
  attribution : Attribution

/-- `ConversationToolCallRecord` -/
structure ToolCallRecord where
  toolCallId : Identifier
  turnId : Identifier
  name : Option Identifier
  arguments : Option JsonObject
  requestedAt : Option Timestamp
  discoveredAt : Option Timestamp
  startedAt : Option Timestamp
  approvalRequiredAt : Option Timestamp
  attribution : Option Attribution
  result : Option ToolResultRecord

/-- `ConversationApprovalProposalRecord` -/
structure ApprovalProposalRecord where
  proposalId : Identifier
  groupId : Option Identifier
  turnId : Identifier
  toolCallId : Identifier
  toolName : Identifier
  reviewedArguments : ReviewedArguments
  status : ApprovalProposalStatus
  proposalVersion : PositiveSafeInteger
  expiresAt : Timestamp
  createdAt : Timestamp
  updatedAt : Timestamp
  createdAttribution : Attribution
  latestAttribution : Attribution
  decisionAt : Option Timestamp
  decisionAttribution : Option Attribution
  decisionReason : Option JsString
  failureReason : Option JsString

/-- `ConversationToolLoopBudgetExhaustion` -/
structure ToolLoopBudgetExhaustion where
  turnId : Identifier
  budget : ToolLoopBudget
  limit : PositiveSafeInteger
  exhaustedAt : Timestamp
  attribution : Attribution
deriving DecidableEq, Repr

/-- `ConversationUsageReceiptLink` -/
structure UsageReceiptLink where
  usageReceiptId : Identifier
  turnId : Identifier
  linkedAt : Timestamp
  attribution : Attribution
deriving DecidableEq, Repr

/-- `ConversationReplayError` -/
inductive ReplayError where
  | revisionGap (conversationId eventId : Identifier) (expectedRevision receivedRevision : Nat)
  | staleRevision (conversationId eventId : Identifier) (expectedRevision receivedRevision : Nat)
  | conversationMismatch (conversationId eventId expectedConversationId : Identifier)
deriving DecidableEq, Repr

abbrev RetainedSource := Retained CitationSource.codec

abbrev RetainedCitation := Retained Citation.codec

structure ConversationState where
  conversationId : Option Identifier
  revision : Option Nat
  lastEventId : Option Identifier
  processedEventIds : List Identifier
  processedMutationIds : List Identifier
  messages : List MessageRecord
  attachments : List AttachmentRecord
  citationSources : List RetainedSource
  citations : List RetainedCitation
  turns : List TurnRecord
  activeTurnId : Option Identifier
  toolCalls : List ToolCallRecord
  approvalProposals : List ApprovalProposalRecord
  toolLoopBudgetExhaustions : List ToolLoopBudgetExhaustion
  usageReceiptLinks : List UsageReceiptLink
  metadata : JsonObject
  title : Option JsString
  replayError : Option ReplayError

def createInitialConversationState (conversationId : Option Identifier) : ConversationState where
  conversationId := conversationId
  revision := none
  lastEventId := none
  processedEventIds := []
  processedMutationIds := []
  messages := []
  attachments := []
  citationSources := []
  citations := []
  turns := []
  activeTurnId := none
  toolCalls := []
  approvalProposals := []
  toolLoopBudgetExhaustions := []
  usageReceiptLinks := []
  metadata := ⟨[]⟩
  title := none
  replayError := none

/-! ### The state as JSON -/

/-- A text part, `{ type: "text", text }`. -/
def textPartCodec : Codec JsString :=
  Codec.object ((Shape.tag "type" "text" (Shape.required "text" Codec.string Shape.nil)).equiv
    (fun text => (text, ())) (fun (text, ()) => text) (fun _ => rfl) (fun _ => rfl))

instance : textPartCodec.Leafless := inferInstanceAs (Codec.object (Shape.equiv _ _ _ _ _)).Leafless

def MessageRecord.shape : Shape MessageRecord :=
  (Shape.required "message_id" identifierCodec <|
    Shape.optional "turn_id" (identifierCodec.nullable identifier_ne_null) <|
    Shape.required "role" ((enumeration (α := MessageRole)).nullable enumeration_ne_null) <|
    Shape.required "content" textPartCodec.list <|
    Shape.required "attachments" AttachmentReference.codec.list <|
    Shape.required "created_at" (timestampCodec.nullable timestamp_ne_null) <|
    Shape.required "attribution" (Attribution.codec.nullable Attribution.encode_ne_null) Shape.nil).equiv
    (fun m => (m.messageId, m.turnId, m.role, m.content, m.attachments, m.createdAt, m.attribution, ()))
    (fun (a, b, c, d, e, f, g, ()) => ⟨a, b, c, d, e, f, g⟩) (fun _ => rfl) (fun _ => rfl)

def MessageRecord.codec : Codec MessageRecord := Codec.object MessageRecord.shape

instance : MessageRecord.codec.Leafless := inferInstanceAs (Codec.object (Shape.equiv _ _ _ _ _)).Leafless

def AttachmentRecord.shape : Shape AttachmentRecord :=
  (Shape.required "message_id" identifierCodec <|
    Shape.required "attachment_id" Codec.string <|
    Shape.required "reference" AttachmentReference.codec <|
    Shape.required "referenced_at" timestampCodec <|
    Shape.required "attribution" Attribution.codec Shape.nil).equiv
    (fun r => (r.messageId, r.attachmentId, r.reference, r.referencedAt, r.attribution, ()))
    (fun (a, b, c, d, e, ()) => ⟨a, b, c, d, e⟩) (fun _ => rfl) (fun _ => rfl)

def AttachmentRecord.codec : Codec AttachmentRecord := Codec.object AttachmentRecord.shape

instance : AttachmentRecord.codec.Leafless := inferInstanceAs (Codec.object (Shape.equiv _ _ _ _ _)).Leafless

def TurnError.shape : Shape TurnError :=
  (Shape.required "code" identifierCodec <|
    Shape.required "message" (boundedText true 4096) <|
    Shape.required "retryable" Codec.boolean Shape.nil).equiv
    (fun e => (e.code, e.message, e.retryable, ())) (fun (a, b, c, ()) => ⟨a, b, c⟩)
    (fun _ => rfl) (fun _ => rfl)

def TurnError.codec : Codec TurnError := Codec.object TurnError.shape

theorem TurnError.encode_ne_null (e : TurnError) : TurnError.codec.encode e ≠ .null := nofun

instance : TurnError.codec.Leafless := inferInstanceAs (Codec.object (Shape.equiv _ _ _ _ _)).Leafless

def TurnRetryRecord.codec : Codec TurnRetryRecord :=
  (Codec.either
    (Codec.object (Shape.tag "type" "turn.attempt_started" <|
      Shape.required "attempt" (safeIntegerCodec 1) <|
      Shape.required "operation" (enumeration (α := TurnAttemptOperation)) <|
      Shape.required "occurred_at" timestampCodec <|
      Shape.required "attribution" Attribution.codec Shape.nil))
    (Codec.either
      (Codec.object (Shape.tag "type" "turn.retry_scheduled" <|
        Shape.required "attempt" (safeIntegerCodec 1) <|
        Shape.required "reason_category" (enumeration (α := RetryReasonCategory)) <|
        Shape.required "delay_ms" (safeIntegerCodec 0) <|
        Shape.required "occurred_at" timestampCodec <|
        Shape.required "attribution" Attribution.codec Shape.nil))
      (Codec.object (Shape.tag "type" "turn.retry_exhausted" <|
        Shape.required "attempt" (safeIntegerCodec 1) <|
        Shape.required "reason_category" (enumeration (α := RetryReasonCategory)) <|
        Shape.required "exhaustion_reason" (enumeration (α := RetryExhaustionReason)) <|
        Shape.required "occurred_at" timestampCodec <|
        Shape.required "attribution" Attribution.codec Shape.nil))
      (Codec.tag_apart (by decide)))
    (fun {_ b} same => by
      cases b
      · exact Codec.tag_apart (by decide) same
      · exact Codec.tag_apart (by decide) same)).equiv
    (fun
      | .attemptStarted a b c d => .inl (a, b, c, d, ())
      | .retryScheduled a b c d e => .inr (.inl (a, b, c, d, e, ()))
      | .retryExhausted a b c d e => .inr (.inr (a, b, c, d, e, ())))
    (fun
      | .inl (a, b, c, d, ()) => .attemptStarted a b c d
      | .inr (.inl (a, b, c, d, e, ())) => .retryScheduled a b c d e
      | .inr (.inr (a, b, c, d, e, ())) => .retryExhausted a b c d e)
    (fun r => by cases r <;> rfl) (fun r => by rcases r with _ | _ | _ <;> rfl)

instance : TurnRetryRecord.codec.Leafless := inferInstanceAs (Codec.equiv _ _ _ _ _).Leafless

def TurnRecord.shape : Shape TurnRecord :=
  (Shape.required "turn_id" identifierCodec <|
    Shape.required "continuation_of_turn_id" (identifierCodec.nullable identifier_ne_null) <|
    Shape.required "status" (enumeration (α := TurnStateStatus)) <|
    Shape.required "input_message_ids" identifierCodec.list <|
    Shape.required "output_message_ids" identifierCodec.list <|
    Shape.required "outcome" ((enumeration (α := TurnCompletionOutcome)).nullable enumeration_ne_null) <|
    Shape.required "cancellation_reason" ((enumeration (α := TurnCancellationReason)).nullable enumeration_ne_null) <|
    Shape.required "cancellation_status" ((enumeration (α := TurnCancellationStatus)).nullable enumeration_ne_null) <|
    Shape.required "cancellation_requested_reason"
      ((enumeration (α := TurnCancellationReason)).nullable enumeration_ne_null) <|
    Shape.required "remote_may_still_be_running" Codec.boolean <|
    Shape.required "error" (TurnError.codec.nullable TurnError.encode_ne_null) <|
    Shape.required "retry_history" TurnRetryRecord.codec.list <|
    Shape.required "started_at" (timestampCodec.nullable timestamp_ne_null) <|
    Shape.required "terminal_at" (timestampCodec.nullable timestamp_ne_null) <|
    Shape.required "attribution" (Attribution.codec.nullable Attribution.encode_ne_null) Shape.nil).equiv
    (fun t => (t.turnId, t.continuationOfTurnId, t.status, t.inputMessageIds, t.outputMessageIds, t.outcome,
      t.cancellationReason, t.cancellationStatus, t.cancellationRequestedReason, t.remoteMayStillBeRunning,
      t.error, t.retryHistory, t.startedAt, t.terminalAt, t.attribution, ()))
    (fun (a, b, c, d, e, f, g, h, i, j, k, l, m, n, o, ()) => ⟨a, b, c, d, e, f, g, h, i, j, k, l, m, n, o⟩)
    (fun _ => rfl) (fun _ => rfl)

def TurnRecord.codec : Codec TurnRecord := Codec.object TurnRecord.shape

instance : TurnRecord.codec.Leafless := inferInstanceAs (Codec.object (Shape.equiv _ _ _ _ _)).Leafless

def ToolResultPart.codec : Codec ToolResultPart :=
  (Codec.either
    (Codec.object (Shape.tag "type" "text" (Shape.required "text" Codec.string Shape.nil)))
    (Codec.object (Shape.tag "type" "json" (Shape.required "value" Codec.json Shape.nil (Shape.fresh_nil "value"))))
    (Codec.tag_apart (by decide))).equiv
    (fun
      | .text content => .inl (content, ())
      | .json value => .inr (value, ()))
    (fun
      | .inl (content, ()) => .text content
      | .inr (value, ()) => .json value)
    (fun p => by cases p <;> rfl) (fun p => by rcases p with _ | _ <;> rfl)

def ToolResultRecord.shape : Shape ToolResultRecord :=
  (Shape.required "content" ToolResultPart.codec.list <|
    Shape.required "is_error" Codec.boolean <|
    Shape.optional "citation_records" CitationRecordSet.codec <|
    Shape.required "recorded_at" timestampCodec <|
    Shape.required "attribution" Attribution.codec Shape.nil).equiv
    (fun r => (r.content, r.isError, r.citationRecords, r.recordedAt, r.attribution, ()))
    (fun (a, b, c, d, e, ()) => ⟨a, b, c, d, e⟩) (fun _ => rfl) (fun _ => rfl)

def ToolResultRecord.codec : Codec ToolResultRecord := Codec.object ToolResultRecord.shape

theorem ToolResultRecord.encode_ne_null (r : ToolResultRecord) : ToolResultRecord.codec.encode r ≠ .null := nofun

def ToolCallRecord.shape : Shape ToolCallRecord :=
  (Shape.required "tool_call_id" identifierCodec <|
    Shape.required "turn_id" identifierCodec <|
    Shape.required "name" (identifierCodec.nullable identifier_ne_null) <|
    Shape.required "arguments" (Codec.jsonObject.nullable Codec.jsonObject_ne_null) <|
    Shape.required "requested_at" (timestampCodec.nullable timestamp_ne_null) <|
    Shape.required "discovered_at" (timestampCodec.nullable timestamp_ne_null) <|
    Shape.required "started_at" (timestampCodec.nullable timestamp_ne_null) <|
    Shape.required "approval_required_at" (timestampCodec.nullable timestamp_ne_null) <|
    Shape.required "attribution" (Attribution.codec.nullable Attribution.encode_ne_null) <|
    Shape.required "result" (ToolResultRecord.codec.nullable ToolResultRecord.encode_ne_null) Shape.nil).equiv
    (fun t => (t.toolCallId, t.turnId, t.name, t.arguments, t.requestedAt, t.discoveredAt, t.startedAt,
      t.approvalRequiredAt, t.attribution, t.result, ()))
    (fun (a, b, c, d, e, f, g, h, i, j, ()) => ⟨a, b, c, d, e, f, g, h, i, j⟩) (fun _ => rfl) (fun _ => rfl)

def ToolCallRecord.codec : Codec ToolCallRecord := Codec.object ToolCallRecord.shape

def ApprovalProposalRecord.shape : Shape ApprovalProposalRecord :=
  (Shape.required "proposal_id" identifierCodec <|
    Shape.required "group_id" (identifierCodec.nullable identifier_ne_null) <|
    Shape.required "turn_id" identifierCodec <|
    Shape.required "tool_call_id" identifierCodec <|
    Shape.required "tool_name" identifierCodec <|
    Shape.required "reviewed_arguments" ReviewedArguments.codec <|
    Shape.required "status" (enumeration (α := ApprovalProposalStatus)) <|
    Shape.required "proposal_version" (safeIntegerCodec 1) <|
    Shape.required "expires_at" timestampCodec <|
    Shape.required "created_at" timestampCodec <|
    Shape.required "updated_at" timestampCodec <|
    Shape.required "created_attribution" Attribution.codec <|
    Shape.required "latest_attribution" Attribution.codec <|
    Shape.required "decision_at" (timestampCodec.nullable timestamp_ne_null) <|
    Shape.required "decision_attribution" (Attribution.codec.nullable Attribution.encode_ne_null) <|
    Shape.required "decision_reason" (Codec.string.nullable Codec.string_ne_null) <|
    Shape.required "failure_reason" (Codec.string.nullable Codec.string_ne_null) Shape.nil).equiv
    (fun p => (p.proposalId, p.groupId, p.turnId, p.toolCallId, p.toolName, p.reviewedArguments, p.status,
      p.proposalVersion, p.expiresAt, p.createdAt, p.updatedAt, p.createdAttribution, p.latestAttribution,
      p.decisionAt, p.decisionAttribution, p.decisionReason, p.failureReason, ()))
    (fun (a, b, c, d, e, f, g, h, i, j, k, l, m, n, o, p, q, ()) =>
      ⟨a, b, c, d, e, f, g, h, i, j, k, l, m, n, o, p, q⟩) (fun _ => rfl) (fun _ => rfl)

def ApprovalProposalRecord.codec : Codec ApprovalProposalRecord := Codec.object ApprovalProposalRecord.shape

def ToolLoopBudgetExhaustion.shape : Shape ToolLoopBudgetExhaustion :=
  (Shape.required "turn_id" identifierCodec <|
    Shape.required "budget" (enumeration (α := ToolLoopBudget)) <|
    Shape.required "limit" (safeIntegerCodec 1) <|
    Shape.required "exhausted_at" timestampCodec <|
    Shape.required "attribution" Attribution.codec Shape.nil).equiv
    (fun x => (x.turnId, x.budget, x.limit, x.exhaustedAt, x.attribution, ()))
    (fun (a, b, c, d, e, ()) => ⟨a, b, c, d, e⟩) (fun _ => rfl) (fun _ => rfl)

def ToolLoopBudgetExhaustion.codec : Codec ToolLoopBudgetExhaustion := Codec.object ToolLoopBudgetExhaustion.shape

instance : ToolLoopBudgetExhaustion.codec.Leafless := inferInstanceAs (Codec.object (Shape.equiv _ _ _ _ _)).Leafless

def UsageReceiptLink.shape : Shape UsageReceiptLink :=
  (Shape.required "usage_receipt_id" identifierCodec <|
    Shape.required "turn_id" identifierCodec <|
    Shape.required "linked_at" timestampCodec <|
    Shape.required "attribution" Attribution.codec Shape.nil).equiv
    (fun x => (x.usageReceiptId, x.turnId, x.linkedAt, x.attribution, ()))
    (fun (a, b, c, d, ()) => ⟨a, b, c, d⟩) (fun _ => rfl) (fun _ => rfl)

def UsageReceiptLink.codec : Codec UsageReceiptLink := Codec.object UsageReceiptLink.shape

instance : UsageReceiptLink.codec.Leafless := inferInstanceAs (Codec.object (Shape.equiv _ _ _ _ _)).Leafless

def ReplayError.codec : Codec ReplayError :=
  (Codec.either
    (Codec.object (Shape.tag "type" "revision_gap" <|
      Shape.required "conversation_id" identifierCodec <| Shape.required "event_id" identifierCodec <|
      Shape.required "expected_revision" Codec.natural <|
      Shape.required "received_revision" Codec.natural Shape.nil))
    (Codec.either
      (Codec.object (Shape.tag "type" "stale_revision" <|
        Shape.required "conversation_id" identifierCodec <| Shape.required "event_id" identifierCodec <|
        Shape.required "expected_revision" Codec.natural <|
        Shape.required "received_revision" Codec.natural Shape.nil))
      (Codec.object (Shape.tag "type" "conversation_mismatch" <|
        Shape.required "conversation_id" identifierCodec <| Shape.required "event_id" identifierCodec <|
        Shape.required "expected_conversation_id" identifierCodec Shape.nil))
      (Codec.tag_apart (by decide)))
    (fun {_ b} same => by
      cases b
      · exact Codec.tag_apart (by decide) same
      · exact Codec.tag_apart (by decide) same)).equiv
    (fun
      | .revisionGap a b c d => .inl (a, b, c, d, ())
      | .staleRevision a b c d => .inr (.inl (a, b, c, d, ()))
      | .conversationMismatch a b c => .inr (.inr (a, b, c, ())))
    (fun
      | .inl (a, b, c, d, ()) => .revisionGap a b c d
      | .inr (.inl (a, b, c, d, ())) => .staleRevision a b c d
      | .inr (.inr (a, b, c, ())) => .conversationMismatch a b c)
    (fun e => by cases e <;> rfl) (fun e => by rcases e with _ | _ | _ <;> rfl)

instance : ReplayError.codec.Leafless := inferInstanceAs (Codec.equiv _ _ _ _ _).Leafless

theorem ReplayError.encode_ne_null (e : ReplayError) : ReplayError.codec.encode e ≠ .null := by
  cases e <;> nofun

def ConversationState.shape : Shape ConversationState :=
  (Shape.required "conversation_id" (identifierCodec.nullable identifier_ne_null) <|
    Shape.required "revision" (Codec.natural.nullable Codec.natural_ne_null) <|
    Shape.required "last_event_id" (identifierCodec.nullable identifier_ne_null) <|
    Shape.required "processed_event_ids" identifierCodec.list <|
    Shape.required "processed_mutation_ids" identifierCodec.list <|
    Shape.required "messages" MessageRecord.codec.list <|
    Shape.required "attachments" AttachmentRecord.codec.list <|
    Shape.required "citation_sources" (CitationSource.codec.retained CitationSource.plain).list <|
    Shape.required "citations" (Citation.codec.retained Citation.plain).list <|
    Shape.required "turns" TurnRecord.codec.list <|
    Shape.required "active_turn_id" (identifierCodec.nullable identifier_ne_null) <|
    Shape.required "tool_calls" ToolCallRecord.codec.list <|
    Shape.required "approval_proposals" ApprovalProposalRecord.codec.list <|
    Shape.required "tool_loop_budget_exhaustions" ToolLoopBudgetExhaustion.codec.list <|
    Shape.required "usage_receipt_links" UsageReceiptLink.codec.list <|
    Shape.required "metadata" Codec.jsonObject <|
    Shape.required "title" (Codec.string.nullable Codec.string_ne_null) <|
    Shape.required "replay_error" (ReplayError.codec.nullable ReplayError.encode_ne_null) Shape.nil).equiv
    (fun s => (s.conversationId, s.revision, s.lastEventId, s.processedEventIds, s.processedMutationIds,
      s.messages, s.attachments, s.citationSources, s.citations, s.turns, s.activeTurnId, s.toolCalls,
      s.approvalProposals, s.toolLoopBudgetExhaustions, s.usageReceiptLinks, s.metadata, s.title,
      s.replayError, ()))
    (fun (a, b, c, d, e, f, g, h, i, j, k, l, m, n, o, p, q, r, ()) =>
      ⟨a, b, c, d, e, f, g, h, i, j, k, l, m, n, o, p, q, r⟩) (fun _ => rfl) (fun _ => rfl)

def ConversationState.codec : Codec ConversationState := Codec.object ConversationState.shape

def ConversationState.toJson (s : ConversationState) : Json := ConversationState.codec.encode s

def ConversationState.ofJson (j : Json) : Option ConversationState := ConversationState.codec.decode j

def ConversationState.map (r : Rewriting) (s : ConversationState) : ConversationState :=
  ConversationState.codec.map r s

end Handrail.Conversation

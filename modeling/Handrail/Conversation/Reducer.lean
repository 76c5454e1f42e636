import Handrail.Conversation.State
import Handrail.Js.Arrays

/-!
# `reducer.ts`

`reduceConversationEvent` folds one durable event into the projected state: the envelope is checked
and accepted first, then the payload changes the projection or is ignored.
-/

namespace Handrail.Conversation
open Js

/-! ### Lookups -/

namespace ConversationState

def findMessage (s : ConversationState) (messageId : JsString) : Option MessageRecord :=
  s.messages.find? fun message => message.messageId.text == messageId

def findTurn (s : ConversationState) (turnId : Identifier) : Option TurnRecord :=
  s.turns.find? fun turn => turn.turnId == turnId

def findToolCall (s : ConversationState) (toolCallId : Identifier) : Option ToolCallRecord :=
  s.toolCalls.find? fun toolCall => toolCall.toolCallId == toolCallId

def findProposal (s : ConversationState) (proposalId : Identifier) : Option ApprovalProposalRecord :=
  s.approvalProposals.find? fun proposal => proposal.proposalId == proposalId

end ConversationState

/-! ### Messages -/

/-- `updateMessages` at the message's own index. -/
def updateMessage (s : ConversationState) (message : MessageRecord) : ConversationState :=
  { s with messages := replaceFirst (fun m => m.messageId.text == message.messageId.text) message s.messages }

def appendMessage (s : ConversationState) (message : MessageRecord) : ConversationState :=
  { s with messages := s.messages ++ [message] }

def placeholderMessage (messageId : Identifier) (attachments : List AttachmentReference) : MessageRecord where
  messageId := messageId
  turnId := none
  role := none
  content := []
  attachments := attachments
  createdAt := none
  attribution := none

def removeCitationsForAssistantMessage (s : ConversationState) (messageId : Identifier) :
    ConversationState :=
  { s with citations := s.citations.filter fun citation =>
      citation.record.target ≠ .assistantMessage messageId.text }

def appendMessageText (content : List JsString) (text : JsString) : List JsString :=
  match content.getLast? with
  | none => [text]
  | some last => content.dropLast ++ [last ++ text]

/-- `message.created` -/
def reduceMessageCreated (s : ConversationState) (occurredAt : Timestamp) (attribution : Attribution)
    (messageId : Identifier) (role : MessageRole) (content : List JsString) : ConversationState :=
  match s.findMessage messageId.text with
  | some current =>
    if current.role.isSome then s
    else
      let updated := updateMessage s { current with
        role := some role
        content := content
        createdAt := some occurredAt
        attribution := some attribution }
      if role = .assistant then updated else removeCitationsForAssistantMessage updated messageId
  | none => appendMessage s {
      messageId := messageId
      turnId := none
      role := some role
      content := content
      attachments := []
      createdAt := some occurredAt
      attribution := some attribution }

/-- `message.text_appended` -/
def reduceMessageTextAppended (s : ConversationState) (occurredAt : Timestamp) (attribution : Attribution)
    (turnId messageId : Identifier) (text : JsString) : ConversationState :=
  match s.findMessage messageId.text with
  | some current =>
    if (current.role ≠ none ∧ current.role ≠ some .assistant) ∨
        (current.role = some .assistant ∧ current.turnId ≠ some (some turnId)) then s
    else updateMessage s { current with
      turnId := some (some turnId)
      role := some .assistant
      content := appendMessageText current.content text
      createdAt := some (current.createdAt.getD occurredAt)
      attribution := some (current.attribution.getD attribution) }
  | none => appendMessage s {
      messageId := messageId
      turnId := some (some turnId)
      role := some .assistant
      content := [text]
      attachments := []
      createdAt := some occurredAt
      attribution := some attribution }

def linkAttachment (attachments : List AttachmentRecord) (record : AttachmentRecord) :
    List AttachmentRecord :=
  if attachments.any fun linked =>
      linked.messageId == record.messageId && linked.attachmentId == record.attachmentId then attachments
  else attachments ++ [record]

/-- `message.attachment_referenced` -/
def reduceMessageAttachmentReferenced (s : ConversationState) (occurredAt : Timestamp)
    (attribution : Attribution) (messageId : Identifier) (reference : AttachmentReference) :
    ConversationState :=
  let linked := { s with attachments := linkAttachment s.attachments {
    messageId := messageId
    attachmentId := reference.attachmentId
    reference := reference
    referencedAt := occurredAt
    attribution := attribution } }
  match s.findMessage messageId.text with
  | some message =>
    if message.attachments.any fun attachment => attachment.attachmentId == reference.attachmentId then linked
    else updateMessage linked { message with attachments := message.attachments ++ [reference] }
  | none => appendMessage linked (placeholderMessage messageId [reference])

/-! ### Citations -/

/-- `records` merged into the retained ones, `none` when a record's text differs from the retained
record of the same identity. -/
def mergeRecords {α : Type} (c : Codec α) (identity : α → JsString) :
    List (Retained c) → List α → Option (List (Retained c))
  | retained, [] => some retained
  | retained, current :: rest =>
    match retained.find? fun existing => identity existing.record == identity current with
    | some existing =>
      if stringify existing.json ≠ stringify (c.encode current) then none
      else mergeRecords c identity retained rest
    | none => mergeRecords c identity (retained ++ [Retained.write c current]) rest

def mergeCitationRecords (s : ConversationState) (records : CitationRecordSet) : Option ConversationState := do
  let sources ← mergeRecords CitationSource.codec CitationSource.sourceId s.citationSources records.sources
  let citations ← mergeRecords Citation.codec Citation.citationId s.citations records.citations
  some { s with citationSources := sources, citations := citations }

def placeholderToolCall (toolCallId turnId : Identifier) : ToolCallRecord where
  toolCallId := toolCallId
  turnId := turnId
  name := none
  arguments := none
  requestedAt := none
  discoveredAt := none
  startedAt := none
  approvalRequiredAt := none
  attribution := none
  result := none

def appendToolCall (s : ConversationState) (toolCall : ToolCallRecord) : ConversationState :=
  { s with toolCalls := s.toolCalls ++ [toolCall] }

/-- `citation.records_linked` -/
def reduceCitationRecordsLinked (s : ConversationState) (target : CitationTarget)
    (records : CitationRecordSet) : ConversationState :=
  match mergeCitationRecords s records with
  | none => s
  | some merged =>
    match target with
    | .assistantMessage messageId =>
      match s.findMessage messageId.text with
      | some message => if message.role ≠ none ∧ message.role ≠ some .assistant then s else merged
      | none => appendMessage merged (placeholderMessage messageId [])
    | .toolResult turnId toolCallId =>
      match s.findToolCall toolCallId with
      | some toolCall => if toolCall.turnId ≠ turnId then s else merged
      | none => appendToolCall merged (placeholderToolCall toolCallId turnId)

/-! ### Turns -/

namespace TurnRecord

def isTerminal (turn : TurnRecord) : Bool :=
  turn.status == .completed || turn.status == .cancelled || turn.status == .failed

/-- `emptyTurn` -/
def empty (turnId : Identifier) (status : TurnStateStatus) (attribution : Option Attribution) :
    TurnRecord where
  turnId := turnId
  continuationOfTurnId := none
  status := status
  inputMessageIds := []
  outputMessageIds := []
  outcome := none
  cancellationReason := none
  cancellationStatus := none
  cancellationRequestedReason := none
  remoteMayStillBeRunning := true
  error := none
  retryHistory := []
  startedAt := none
  terminalAt := none
  attribution := attribution

end TurnRecord

def isTerminalTurn (s : ConversationState) (turnId : Identifier) : Bool :=
  (s.findTurn turnId).any TurnRecord.isTerminal

def appendTurn (s : ConversationState) (turn : TurnRecord) (activeTurnId : Option Identifier) :
    ConversationState :=
  { s with turns := s.turns ++ [turn], activeTurnId := activeTurnId }

/-- `updateTurn` at the turn's own index. -/
def updateTurn (s : ConversationState) (turn : TurnRecord) (activeTurnId : Option Identifier) :
    ConversationState :=
  { s with
    turns := replaceFirst (fun t => t.turnId == turn.turnId) turn s.turns
    activeTurnId := activeTurnId }

/-- `turn.started` -/
def reduceTurnStarted (s : ConversationState) (occurredAt : Timestamp) (attribution : Attribution)
    (turnId : Identifier) (inputMessageIds : List Identifier) (continuationOfTurnId : Option Identifier) :
    ConversationState :=
  match s.findTurn turnId with
  | some turn =>
    if turn.isTerminal || turn.startedAt.isSome then s
    else updateTurn s { turn with
      inputMessageIds := inputMessageIds
      continuationOfTurnId := continuationOfTurnId
      startedAt := some occurredAt
      attribution := some attribution } (some turnId)
  | none => appendTurn s { TurnRecord.empty turnId .queued (some attribution) with
      continuationOfTurnId := continuationOfTurnId
      inputMessageIds := inputMessageIds
      startedAt := some occurredAt } (some turnId)

/-- `turn.status_changed` -/
def reduceTurnStatusChanged (s : ConversationState) (attribution : Attribution) (turnId : Identifier)
    (status : TurnStatus) : ConversationState :=
  match s.findTurn turnId with
  | some turn =>
    if turn.isTerminal then s else updateTurn s { turn with status := status.state } (some turnId)
  | none => appendTurn s (TurnRecord.empty turnId status.state (some attribution)) (some turnId)

def appendTurnRetryRecord (s : ConversationState) (turnId : Identifier) (retry : TurnRetryRecord) :
    ConversationState :=
  match s.findTurn turnId with
  | some turn => updateTurn s { turn with retryHistory := turn.retryHistory ++ [retry] } s.activeTurnId
  | none => appendTurn s { TurnRecord.empty turnId .queued (some retry.attribution) with
      retryHistory := [retry] } (some turnId)

def updateTurnCancellation (s : ConversationState) (turnId : Identifier) (status : TurnCancellationStatus)
    (reason : TurnCancellationReason) (attribution : Attribution) : ConversationState :=
  match s.findTurn turnId with
  | some turn =>
    if turn.isTerminal then s
    else updateTurn s { turn with
      cancellationStatus := some status
      cancellationRequestedReason := some reason
      remoteMayStillBeRunning := true } s.activeTurnId
  | none => appendTurn s { TurnRecord.empty turnId .queued (some attribution) with
      cancellationStatus := some status
      cancellationRequestedReason := some reason } (some turnId)

/-- The fields that a terminal event sets: the `terminal` argument of `terminateTurn`. -/
structure TerminalFields where
  status : TurnStateStatus
  outputMessageIds : List Identifier
  outcome : Option TurnCompletionOutcome
  cancellationReason : Option TurnCancellationReason
  error : Option TurnError
  /-- `cancellation_status` and `cancellation_requested_reason`, when the argument has them. -/
  cancellation : Option (TurnCancellationStatus × TurnCancellationReason)

def TerminalFields.apply (terminal : TerminalFields) (turn : TurnRecord) : TurnRecord :=
  { turn with
    status := terminal.status
    outputMessageIds := terminal.outputMessageIds
    outcome := terminal.outcome
    cancellationReason := terminal.cancellationReason
    remoteMayStillBeRunning := false
    error := terminal.error
    cancellationStatus := (terminal.cancellation.map (·.1)).or turn.cancellationStatus
    cancellationRequestedReason := (terminal.cancellation.map (·.2)).or turn.cancellationRequestedReason }

def terminateTurn (s : ConversationState) (turnId : Identifier) (terminalAt : Timestamp)
    (attribution : Attribution) (terminal : TerminalFields) : ConversationState :=
  match s.findTurn turnId with
  | some current =>
    if current.isTerminal then s
    else updateTurn s { terminal.apply current with terminalAt := some terminalAt }
      (if s.activeTurnId = some turnId then none else s.activeTurnId)
  | none => appendTurn s { terminal.apply (TurnRecord.empty turnId .queued (some attribution)) with
      terminalAt := some terminalAt } s.activeTurnId

/-! ### Tool calls -/

/-- `updateToolCall` at the tool call's own index. -/
def updateToolCall (s : ConversationState) (toolCall : ToolCallRecord) : ConversationState :=
  { s with toolCalls := replaceFirst (fun t => t.toolCallId == toolCall.toolCallId) toolCall s.toolCalls }

/-- `tool_call.requested` -/
def reduceToolCallRequested (s : ConversationState) (occurredAt : Timestamp) (attribution : Attribution)
    (turnId toolCallId name : Identifier) (arguments : JsonObject) : ConversationState :=
  if isTerminalTurn s turnId then s
  else match s.findToolCall toolCallId with
    | some current =>
      if current.name.isSome ∨ current.turnId ≠ turnId then s
      else updateToolCall s { current with
        name := some name
        arguments := some arguments
        requestedAt := some occurredAt
        attribution := some attribution }
    | none => appendToolCall s { placeholderToolCall toolCallId turnId with
        name := some name
        arguments := some arguments
        requestedAt := some occurredAt
        attribution := some attribution }

/-- The timestamp of a tool call that a lifecycle event sets: the `field` of the source. -/
inductive ToolCallStage where
  | discovered
  | started
  | approvalRequired
deriving DecidableEq, Repr

namespace ToolCallStage

def read : ToolCallStage → ToolCallRecord → Option Timestamp
  | discovered, toolCall => toolCall.discoveredAt
  | started, toolCall => toolCall.startedAt
  | approvalRequired, toolCall => toolCall.approvalRequiredAt

def stamp : ToolCallStage → ToolCallRecord → Timestamp → ToolCallRecord
  | discovered, toolCall, time => { toolCall with discoveredAt := some time }
  | started, toolCall, time => { toolCall with startedAt := some time }
  | approvalRequired, toolCall, time => { toolCall with approvalRequiredAt := some time }

end ToolCallStage

/-- `tool_call.discovered`, `tool_call.started` and `tool_call.approval_required` -/
def reduceToolCallStage (s : ConversationState) (occurredAt : Timestamp) (turnId toolCallId : Identifier)
    (stage : ToolCallStage) : ConversationState :=
  match s.findToolCall toolCallId with
  | some current =>
    if current.turnId ≠ turnId ∨ (stage.read current).isSome then s
    else updateToolCall s (stage.stamp current occurredAt)
  | none => appendToolCall s (stage.stamp (placeholderToolCall toolCallId turnId) occurredAt)

/-- `tool_call.result_recorded` -/
def reduceToolCallResultRecorded (s : ConversationState) (turnId toolCallId : Identifier)
    (result : ToolResultRecord) : ConversationState :=
  match s.findToolCall toolCallId with
  | some current =>
    if current.result.isSome ∨ current.turnId ≠ turnId then s
    else updateToolCall s { current with result := some result }
  | none => appendToolCall s { placeholderToolCall toolCallId turnId with result := some result }

/-! ### Approvals -/

theorem one_bounded : 1 ≤ 1 := Nat.le_refl 1

theorem one_safe : 1 ≤ JsNumber.maxSafeInteger := by decide

/-- `approval.proposal_created` -/
def reduceApprovalProposalCreated (s : ConversationState) (occurredAt : Timestamp)
    (attribution : Attribution) (payload : ApprovalProposal) : ConversationState :=
  if isTerminalTurn s payload.turnId ∨ (s.findProposal payload.proposalId).isSome then s
  else match s.findToolCall payload.toolCallId with
    | none => s
    | some toolCall =>
      if toolCall.turnId ≠ payload.turnId ∨ toolCall.name ≠ some payload.toolName then s
      else
        let proposal : ApprovalProposalRecord := {
          proposalId := payload.proposalId
          groupId := payload.groupId
          turnId := payload.turnId
          toolCallId := payload.toolCallId
          toolName := payload.toolName
          reviewedArguments := payload.reviewedArguments
          status := .pending
          proposalVersion := ⟨1, one_bounded, one_safe⟩
          expiresAt := payload.expiresAt
          createdAt := occurredAt
          updatedAt := occurredAt
          createdAttribution := attribution
          latestAttribution := attribution
          decisionAt := none
          decisionAttribution := none
          decisionReason := none
          failureReason := none }
        let required := if toolCall.approvalRequiredAt.isNone then
          updateToolCall s { toolCall with approvalRequiredAt := some occurredAt } else s
        { required with approvalProposals := s.approvalProposals ++ [proposal] }

def changedProposal (current : ApprovalProposalRecord) (occurredAt : Timestamp) (attribution : Attribution)
    (proposalVersion : PositiveSafeInteger) (change : ApprovalChange) : ApprovalProposalRecord :=
  let changed := { current with
    status := change.status
    proposalVersion := proposalVersion
    updatedAt := occurredAt
    latestAttribution := attribution }
  match change with
  | .decision _ reason => { changed with
      decisionAt := some occurredAt
      decisionAttribution := some attribution
      -- Without the field the reason of the current record stays.
      decisionReason := reason.or current.decisionReason }
  | .executing => { changed with failureReason := none }
  | .executed => changed
  | .failed reason => { changed with failureReason := some reason }

/-- `approval.proposal_status_changed` -/
def reduceApprovalProposalStatusChanged (s : ConversationState) (occurredAt : Timestamp)
    (attribution : Attribution) (proposalId : Identifier) (proposalVersion : PositiveSafeInteger)
    (change : ApprovalChange) : ConversationState :=
  match s.findProposal proposalId with
  | none => s
  | some current =>
    if proposalVersion.value ≠ current.proposalVersion.value + 1 ∨
        !isLegalApprovalProposalTransition current.status change.status then s
    else if (change.status = .expired ∧ occurredAt.time < current.expiresAt.time) ∨
        ((change.status = .confirmed ∨ change.status = .executing) ∧
          current.expiresAt.time ≤ occurredAt.time) then s
    else { s with
      approvalProposals := replaceFirst (fun p => p.proposalId == proposalId)
        (changedProposal current occurredAt attribution proposalVersion change) s.approvalProposals }

/-! ### Budgets and usage -/

/-- `tool_loop.budget_exhausted` -/
def reduceToolLoopBudgetExhausted (s : ConversationState) (exhaustion : ToolLoopBudgetExhaustion) :
    ConversationState :=
  if s.toolLoopBudgetExhaustions.any fun item =>
      item.turnId == exhaustion.turnId && item.budget == exhaustion.budget then s
  else { s with toolLoopBudgetExhaustions := s.toolLoopBudgetExhaustions ++ [exhaustion] }

/-- `usage.receipt_linked` -/
def reduceUsageReceiptLinked (s : ConversationState) (link : UsageReceiptLink) : ConversationState :=
  if s.usageReceiptLinks.any fun known => known.usageReceiptId == link.usageReceiptId then s
  else { s with usageReceiptLinks := s.usageReceiptLinks ++ [link] }

/-! ### The fold -/

/-- The cases of `reduceConversationEvent`, on a state whose envelope is accepted. -/
def reducePayload (s : ConversationState) (occurredAt : Timestamp) (attribution : Attribution) :
    ConversationEventPayload → ConversationState
  | .messageCreated messageId role content =>
    reduceMessageCreated s occurredAt attribution messageId role (content.map (·.text))
  | .messageTextAppended turnId messageId text =>
    reduceMessageTextAppended s occurredAt attribution turnId messageId text.text
  | .messageAttachmentReferenced messageId attachment =>
    reduceMessageAttachmentReferenced s occurredAt attribution messageId attachment
  | .citationRecordsLinked target records => reduceCitationRecordsLinked s target records
  | .turnStarted turnId inputMessageIds continuationOfTurnId =>
    reduceTurnStarted s occurredAt attribution turnId inputMessageIds continuationOfTurnId
  | .turnStatusChanged turnId status => reduceTurnStatusChanged s attribution turnId status
  | .turnAttemptStarted turnId attempt operation =>
    appendTurnRetryRecord s turnId (.attemptStarted attempt operation occurredAt attribution)
  | .turnRetryScheduled turnId attempt reasonCategory delayMs =>
    appendTurnRetryRecord s turnId (.retryScheduled attempt reasonCategory delayMs occurredAt attribution)
  | .turnRetryExhausted turnId attempt reasonCategory exhaustionReason =>
    appendTurnRetryRecord s turnId
      (.retryExhausted attempt reasonCategory exhaustionReason occurredAt attribution)
  | .turnCancellationRequested turnId reason => updateTurnCancellation s turnId .requested reason attribution
  | .turnCancellationUnsupported turnId reason =>
    updateTurnCancellation s turnId .unsupported reason attribution
  | .turnCompleted turnId outcome outputMessageIds =>
    terminateTurn s turnId occurredAt attribution {
      status := .completed
      outputMessageIds := outputMessageIds
      outcome := some outcome
      cancellationReason := none
      error := none
      cancellation := none }
  | .turnCancelled turnId reason =>
    terminateTurn s turnId occurredAt attribution {
      status := .cancelled
      outputMessageIds := []
      outcome := none
      cancellationReason := some reason
      error := none
      cancellation := some (.cancelled, reason) }
  | .turnFailed turnId error =>
    terminateTurn s turnId occurredAt attribution {
      status := .failed
      outputMessageIds := []
      outcome := none
      cancellationReason := none
      error := some error
      cancellation := none }
  | .toolCallRequested turnId toolCallId name arguments =>
    reduceToolCallRequested s occurredAt attribution turnId toolCallId name arguments
  | .toolCallDiscovered turnId toolCallId => reduceToolCallStage s occurredAt turnId toolCallId .discovered
  | .toolCallStarted turnId toolCallId => reduceToolCallStage s occurredAt turnId toolCallId .started
  | .toolCallApprovalRequired turnId toolCallId =>
    reduceToolCallStage s occurredAt turnId toolCallId .approvalRequired
  | .approvalProposalCreated proposal => reduceApprovalProposalCreated s occurredAt attribution proposal
  | .approvalProposalStatusChanged proposalId proposalVersion change =>
    reduceApprovalProposalStatusChanged s occurredAt attribution proposalId proposalVersion change
  | .toolCallResultRecorded turnId toolCallId content isError citationRecords =>
    reduceToolCallResultRecorded s turnId toolCallId {
      content := content
      isError := isError
      citationRecords := citationRecords
      recordedAt := occurredAt
      attribution := attribution }
  | .toolLoopBudgetExhausted turnId budget limit =>
    reduceToolLoopBudgetExhausted s {
      turnId := turnId
      budget := budget
      limit := limit
      exhaustedAt := occurredAt
      attribution := attribution }
  | .usageReceiptLinked turnId usageReceiptId =>
    reduceUsageReceiptLinked s {
      usageReceiptId := usageReceiptId
      turnId := turnId
      linkedAt := occurredAt
      attribution := attribution }
  | .metadataUpdated metadata => { s with metadata := metadata }
  | .titleUpdated title => { s with title := title.map (·.text) }

def acceptEnvelope (s : ConversationState) (event : ConversationEvent) : ConversationState :=
  { s with
    conversationId := some (s.conversationId.getD event.conversationId)
    revision := some event.revision
    lastEventId := some event.eventId
    processedEventIds := s.processedEventIds ++ [event.eventId]
    processedMutationIds := s.processedMutationIds ++ event.mutationId.toList
    replayError := none }

/-- `withReplayError`; an equal error leaves the state as it is. -/
def withReplayError (s : ConversationState) (error : ReplayError) : ConversationState :=
  { s with replayError := some error }

def ConversationState.isProcessed (s : ConversationState) (event : ConversationEvent) : Bool :=
  s.processedEventIds.contains event.eventId ||
    event.mutationId.any fun mutationId => s.processedMutationIds.contains mutationId

/-- The next revision of the state: `(state.revision ?? 0) + 1`. -/
def ConversationState.expectedRevision (s : ConversationState) : Nat := s.revision.getD 0 + 1

def ConversationState.envelopeError (s : ConversationState) (event : ConversationEvent) :
    Option ReplayError :=
  match s.conversationId.filter (· ≠ event.conversationId) with
  | some expected => some (.conversationMismatch event.conversationId event.eventId expected)
  | none =>
    if s.expectedRevision < event.revision then
      some (.revisionGap event.conversationId event.eventId s.expectedRevision event.revision)
    else if event.revision < s.expectedRevision then
      some (.staleRevision event.conversationId event.eventId s.expectedRevision event.revision)
    else none

def reduceConversationEvent (s : ConversationState) (event : ConversationEvent) : ConversationState :=
  if s.isProcessed event then s
  else match s.envelopeError event with
    | some error => withReplayError s error
    | none => reducePayload (acceptEnvelope s event) event.occurredAt ⟨event.actor, event.source⟩ event.payload

def foldEvents (s : ConversationState) (log : List ConversationEvent) : ConversationState :=
  log.foldl reduceConversationEvent s

@[simp] theorem foldEvents_nil (s : ConversationState) : foldEvents s [] = s := rfl

@[simp] theorem foldEvents_cons (s : ConversationState) (event : ConversationEvent)
    (log : List ConversationEvent) :
    foldEvents s (event :: log) = foldEvents (reduceConversationEvent s event) log := rfl

theorem foldEvents_append (s : ConversationState) (log tail : List ConversationEvent) :
    foldEvents s (log ++ tail) = foldEvents (foldEvents s log) tail := List.foldl_append

end Handrail.Conversation

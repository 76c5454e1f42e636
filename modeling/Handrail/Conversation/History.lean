import Handrail.Conversation.Restore

/-!
# Projected history

What one event can do to the records of a state: it adds records and completes placeholders, and
takes back nothing but the citations of a message that turns out not to be an assistant's.
-/

namespace Handrail.Conversation
open Js

/-! ### Later versions -/

def ExtendsLastPart (content later : List JsString) : Prop :=
  ∃ parts last text, content = parts ++ [last] ∧ later = parts ++ [last ++ text]

structure MessageRecord.Grows (m later : MessageRecord) : Prop where
  messageId : later.messageId = m.messageId
  role : m.role ≠ none → later.role = m.role
  content : m.role ≠ none → later.content = m.content ∨ ExtendsLastPart m.content later.content
  attachments : m.attachments <+: later.attachments

structure TurnRecord.KeepsEnd (t later : TurnRecord) : Prop where
  status : later.status = t.status
  outcome : later.outcome = t.outcome
  outputMessageIds : later.outputMessageIds = t.outputMessageIds
  error : later.error = t.error
  cancellationReason : later.cancellationReason = t.cancellationReason
  cancellationStatus : later.cancellationStatus = t.cancellationStatus
  cancellationRequestedReason : later.cancellationRequestedReason = t.cancellationRequestedReason
  remoteMayStillBeRunning : later.remoteMayStillBeRunning = t.remoteMayStillBeRunning
  terminalAt : later.terminalAt = t.terminalAt

structure TurnRecord.Grows (t later : TurnRecord) : Prop where
  turnId : later.turnId = t.turnId
  retryHistory : t.retryHistory <+: later.retryHistory
  ended : t.isTerminal = true → t.KeepsEnd later

structure ToolCallRecord.Grows (t later : ToolCallRecord) : Prop where
  toolCallId : later.toolCallId = t.toolCallId
  turnId : later.turnId = t.turnId
  name : ∀ x ∈ t.name, later.name = some x
  arguments : ∀ x ∈ t.arguments, later.arguments = some x
  result : ∀ x ∈ t.result, later.result = some x
  requestedAt : ∀ x ∈ t.requestedAt, later.requestedAt = some x
  discoveredAt : ∀ x ∈ t.discoveredAt, later.discoveredAt = some x
  startedAt : ∀ x ∈ t.startedAt, later.startedAt = some x
  approvalRequiredAt : ∀ x ∈ t.approvalRequiredAt, later.approvalRequiredAt = some x

structure ApprovalProposalRecord.Grows (p later : ApprovalProposalRecord) : Prop where
  proposalId : later.proposalId = p.proposalId
  step : later = p ∨ (isLegalApprovalProposalTransition p.status later.status = true ∧
    later.proposalVersion.value = p.proposalVersion.value + 1)

theorem MessageRecord.Grows.refl (m : MessageRecord) : m.Grows m :=
  ⟨rfl, fun _ => rfl, fun _ => .inl rfl, List.prefix_rfl⟩

theorem TurnRecord.Grows.refl (t : TurnRecord) : t.Grows t :=
  ⟨rfl, List.prefix_rfl, fun _ => ⟨rfl, rfl, rfl, rfl, rfl, rfl, rfl, rfl, rfl⟩⟩

theorem ToolCallRecord.Grows.refl (t : ToolCallRecord) : t.Grows t :=
  ⟨rfl, rfl, fun _ => id, fun _ => id, fun _ => id, fun _ => id, fun _ => id, fun _ => id, fun _ => id⟩

theorem ApprovalProposalRecord.Grows.refl (p : ApprovalProposalRecord) : p.Grows p := ⟨rfl, .inl rfl⟩

theorem ApprovalProposalRecord.Grows.final {p later : ApprovalProposalRecord} (grows : p.Grows later)
    (final : p.status = .rejected ∨ p.status = .expired ∨ p.status = .executed) : later = p := by
  rcases grows.step with same | ⟨legal, _⟩
  · exact same
  · rcases final with status | status | status <;>
      simp [status, isLegalApprovalProposalTransition, approvalProposalTransitions] at legal

def ConversationState.Withdrawn (s later : ConversationState) (x : RetainedCitation) : Prop :=
  ∃ m ∈ s.messages, ∃ m' ∈ later.messages, x.record.target = .assistantMessage m.messageId.text ∧
    m'.messageId = m.messageId ∧ m.role = none ∧ m'.role ≠ none ∧ m'.role ≠ some .assistant

structure ConversationState.Grows (s later : ConversationState) : Prop where
  messages : Grown MessageRecord.Grows s.messages later.messages
  attachments : s.attachments ⊆ later.attachments
  sources : s.citationSources ⊆ later.citationSources
  citations : ∀ x ∈ s.citations, x ∈ later.citations ∨ s.Withdrawn later x
  turns : Grown TurnRecord.Grows s.turns later.turns
  toolCalls : Grown ToolCallRecord.Grows s.toolCalls later.toolCalls
  proposals : Grown ApprovalProposalRecord.Grows s.approvalProposals later.approvalProposals
  budgets : s.toolLoopBudgetExhaustions ⊆ later.toolLoopBudgetExhaustions
  links : s.usageReceiptLinks ⊆ later.usageReceiptLinks
  eventIds : s.processedEventIds <+: later.processedEventIds
  mutationIds : s.processedMutationIds <+: later.processedMutationIds

section
variable (s : ConversationState)

theorem ConversationState.Grows.refl : s.Grows s where
  messages := grown_of_subset .refl (List.Subset.refl _)
  attachments := List.Subset.refl _
  sources := List.Subset.refl _
  citations _ member := .inl member
  turns := grown_of_subset .refl (List.Subset.refl _)
  toolCalls := grown_of_subset .refl (List.Subset.refl _)
  proposals := grown_of_subset .refl (List.Subset.refl _)
  budgets := List.Subset.refl _
  links := List.Subset.refl _
  eventIds := List.prefix_rfl
  mutationIds := List.prefix_rfl

theorem grows_of_messages {messages : List MessageRecord} (grown : Grown MessageRecord.Grows s.messages messages) :
    s.Grows { s with messages := messages } :=
  { ConversationState.Grows.refl s with messages := grown, citations := fun _ member => .inl member }

theorem grows_of_turns {turns : List TurnRecord} (active : Option Identifier)
    (grown : Grown TurnRecord.Grows s.turns turns) :
    s.Grows { s with
      turns := turns
      activeTurnId := active } :=
  { ConversationState.Grows.refl s with turns := grown, citations := fun _ member => .inl member }

theorem grows_of_toolCalls {toolCalls : List ToolCallRecord}
    (grown : Grown ToolCallRecord.Grows s.toolCalls toolCalls) : s.Grows { s with toolCalls := toolCalls } :=
  { ConversationState.Grows.refl s with toolCalls := grown, citations := fun _ member => .inl member }

theorem appendMessage_grows (message : MessageRecord) : s.Grows (appendMessage s message) :=
  grows_of_messages s (grown_of_subset .refl (List.subset_append_left ..))

theorem appendTurn_grows (turn : TurnRecord) (active : Option Identifier) : s.Grows (appendTurn s turn active) :=
  grows_of_turns s active (grown_of_subset .refl (List.subset_append_left ..))

theorem appendToolCall_grows (toolCall : ToolCallRecord) : s.Grows (appendToolCall s toolCall) :=
  grows_of_toolCalls s (grown_of_subset .refl (List.subset_append_left ..))

variable {s}

theorem updateMessage_grows {current message : MessageRecord}
    (found : s.findMessage message.messageId.text = some current) (later : current.Grows message) :
    s.Grows (updateMessage s message) :=
  grows_of_messages s (grown_replaceFirst .refl found later)

theorem updateTurn_grows {current turn : TurnRecord} (found : s.findTurn turn.turnId = some current)
    (later : current.Grows turn) (active : Option Identifier) : s.Grows (updateTurn s turn active) :=
  grows_of_turns s active (grown_replaceFirst .refl found later)

theorem updateToolCall_grows {current toolCall : ToolCallRecord}
    (found : s.findToolCall toolCall.toolCallId = some current) (later : current.Grows toolCall) :
    s.Grows (updateToolCall s toolCall) :=
  grows_of_toolCalls s (grown_replaceFirst .refl found later)

end

/-! ### Placeholders -/

structure ConversationState.Placeholders (s : ConversationState) : Prop where
  messages : ∀ m ∈ s.messages, (m.role = none → m.turnId = none) ∧ (m.turnId ≠ none → m.content ≠ [])
  toolCalls : ∀ t ∈ s.toolCalls, t.name = none → t.arguments = none ∧ t.requestedAt = none
  toolCallIds : (s.toolCalls.map ToolCallRecord.toolCallId).Nodup
  receiptIds : (s.usageReceiptLinks.map UsageReceiptLink.usageReceiptId).Nodup

theorem initial_placeholders (conversationId : Option Identifier) :
    (createInitialConversationState conversationId).Placeholders := by
  constructor <;> simp [createInitialConversationState]

section
variable {s : ConversationState}

theorem Placeholders.appendMessage (placeholders : s.Placeholders) {message : MessageRecord}
    (allowed : (message.role = none → message.turnId = none) ∧ (message.turnId ≠ none → message.content ≠ [])) :
    (appendMessage s message).Placeholders where
  messages m member := by
    rcases List.mem_append.mp member with old | new
    · exact placeholders.messages m old
    · rwa [List.mem_singleton.mp new]
  toolCalls := placeholders.toolCalls
  toolCallIds := placeholders.toolCallIds
  receiptIds := placeholders.receiptIds

theorem Placeholders.updateMessage (placeholders : s.Placeholders) {message : MessageRecord}
    (allowed : (message.role = none → message.turnId = none) ∧ (message.turnId ≠ none → message.content ≠ [])) :
    (updateMessage s message).Placeholders where
  messages := forall_replaceFirst placeholders.messages allowed
  toolCalls := placeholders.toolCalls
  toolCallIds := placeholders.toolCallIds
  receiptIds := placeholders.receiptIds

theorem Placeholders.appendToolCall (placeholders : s.Placeholders) {toolCall : ToolCallRecord}
    (none : s.findToolCall toolCall.toolCallId = none)
    (allowed : toolCall.name = .none → toolCall.arguments = .none ∧ toolCall.requestedAt = .none) :
    (appendToolCall s toolCall).Placeholders where
  messages := placeholders.messages
  toolCalls t member := by
    rcases List.mem_append.mp member with old | new
    · exact placeholders.toolCalls t old
    · rwa [List.mem_singleton.mp new]
  toolCallIds := by
    have fresh : toolCall.toolCallId ∉ s.toolCalls.map ToolCallRecord.toolCallId := by
      intro member
      obtain ⟨other, inside, same⟩ := List.mem_map.mp member
      exact List.find?_eq_none.mp none other inside (beq_iff_eq.mpr same)
    rw [Handrail.Conversation.appendToolCall, List.map_append, List.map_singleton, List.nodup_append]
    refine ⟨placeholders.toolCallIds, by simp, ?_⟩
    rintro id member _ last rfl
    rw [List.mem_singleton.mp last] at member
    exact fresh member
  receiptIds := placeholders.receiptIds

theorem Placeholders.updateToolCall (placeholders : s.Placeholders) {current toolCall : ToolCallRecord}
    (found : s.findToolCall toolCall.toolCallId = some current)
    (allowed : toolCall.name = .none → toolCall.arguments = .none ∧ toolCall.requestedAt = .none) :
    (updateToolCall s toolCall).Placeholders where
  messages := placeholders.messages
  toolCalls := forall_replaceFirst placeholders.toolCalls allowed
  toolCallIds := by
    have same : current.toolCallId = toolCall.toolCallId := by simpa using List.find?_some found
    rw [Handrail.Conversation.updateToolCall, map_replaceFirst found same.symm]
    exact placeholders.toolCallIds
  receiptIds := placeholders.receiptIds

/-! ### One payload -/

structure Advances (s later : ConversationState) : Prop where
  grows : s.Grows later
  placeholders : later.Placeholders

theorem Advances.refl (placeholders : s.Placeholders) : Advances s s := ⟨.refl s, placeholders⟩

theorem reduceMessageCreated_advances (placeholders : s.Placeholders) (occurredAt : Timestamp)
    (attribution : Attribution) (messageId : Identifier) (role : MessageRole) (content : List JsString) :
    Advances s (reduceMessageCreated s occurredAt attribution messageId role content) := by
  unfold reduceMessageCreated
  split
  · rename_i current found
    have id := identifier_of_find found
    split
    · exact .refl placeholders
    · rename_i unnamed
      have bare : current.role = none := by simpa using unnamed
      have noTurn := (placeholders.messages current (List.mem_of_find?_eq_some found)).1 bare
      have known : s.findMessage current.messageId.text = some current := id ▸ found
      have later : current.Grows { current with
          role := some role
          content := content
          createdAt := some occurredAt
          attribution := some attribution } :=
        ⟨rfl, fun some => (some bare).elim, fun some => (some bare).elim, List.prefix_rfl⟩
      have grows : s.Grows (updateMessage s { current with
          role := some role
          content := content
          createdAt := some occurredAt
          attribution := some attribution }) := updateMessage_grows known later
      have kept : (updateMessage s { current with
          role := some role
          content := content
          createdAt := some occurredAt
          attribution := some attribution }).Placeholders :=
        Placeholders.updateMessage placeholders ⟨nofun, fun some => (some noTurn).elim⟩
      simp only
      split
      · exact ⟨grows, kept⟩
      · rename_i other
        refine ⟨{ grows with citations := fun x member => ?_ },
          ⟨kept.messages, kept.toolCalls, kept.toolCallIds, kept.receiptIds⟩⟩
        by_cases target : x.record.target = .assistantMessage messageId.text
        · exact .inr ⟨current, List.mem_of_find?_eq_some found, _, mem_replaceFirst_self known, by rw [target, id],
            rfl, bare, nofun, fun same => other (Option.some.inj same)⟩
        · exact .inl (List.mem_filter.mpr ⟨member, by simpa using target⟩)
  · exact ⟨appendMessage_grows s _, Placeholders.appendMessage placeholders ⟨nofun, fun some => (some rfl).elim⟩⟩

theorem appendMessageText_extends {content : List JsString} (given : content ≠ []) (text : JsString) :
    ExtendsLastPart content (appendMessageText content text) := by
  obtain ⟨parts, last, rfl⟩ := (List.eq_nil_or_concat' content).resolve_left given
  exact ⟨parts, last, text, rfl, by simp [appendMessageText]⟩

theorem appendMessageText_ne_nil (content : List JsString) (text : JsString) : appendMessageText content text ≠ [] := by
  unfold appendMessageText
  split <;> simp

theorem reduceMessageTextAppended_advances (placeholders : s.Placeholders) (occurredAt : Timestamp)
    (attribution : Attribution) (turnId messageId : Identifier) (text : JsString) :
    Advances s (reduceMessageTextAppended s occurredAt attribution turnId messageId text) := by
  unfold reduceMessageTextAppended
  split
  · rename_i current found
    have id := identifier_of_find found
    split
    · exact .refl placeholders
    · rename_i taken
      simp only [not_or, not_and, not_not] at taken
      have known : s.findMessage current.messageId.text = some current := id ▸ found
      refine ⟨updateMessage_grows known ⟨rfl, fun some => ?_, fun some => ?_, List.prefix_rfl⟩,
        Placeholders.updateMessage placeholders ⟨nofun, fun _ => appendMessageText_ne_nil _ _⟩⟩
      · exact (taken.1 some).symm
      · have turn := taken.2 (taken.1 some)
        have written := (placeholders.messages current (List.mem_of_find?_eq_some found)).2 (by rw [turn]; nofun)
        exact .inr (appendMessageText_extends written text)
  · exact ⟨appendMessage_grows s _, Placeholders.appendMessage placeholders ⟨nofun, fun _ => List.cons_ne_nil _ _⟩⟩

theorem reduceMessageAttachmentReferenced_advances (placeholders : s.Placeholders) (occurredAt : Timestamp)
    (attribution : Attribution) (messageId : Identifier) (reference : AttachmentReference) :
    Advances s (reduceMessageAttachmentReferenced s occurredAt attribution messageId reference) := by
  have linked (record : AttachmentRecord) : s.attachments ⊆ linkAttachment s.attachments record := by
    unfold linkAttachment
    split
    · exact List.Subset.refl _
    · exact List.subset_append_left ..
  unfold reduceMessageAttachmentReferenced
  simp only
  split
  · rename_i message found
    have id := identifier_of_find found
    have known : s.findMessage message.messageId.text = some message := id ▸ found
    split
    · exact ⟨{ ConversationState.Grows.refl s with attachments := linked _ },
        ⟨placeholders.messages, placeholders.toolCalls, placeholders.toolCallIds, placeholders.receiptIds⟩⟩
    · have later : message.Grows { message with attachments := message.attachments ++ [reference] } :=
        ⟨rfl, fun _ => rfl, fun _ => .inl rfl, List.prefix_append ..⟩
      have grows : s.Grows (updateMessage s { message with attachments := message.attachments ++ [reference] }) :=
        updateMessage_grows known later
      have kept : (updateMessage s { message with attachments := message.attachments ++ [reference] }).Placeholders :=
        Placeholders.updateMessage placeholders (placeholders.messages message (List.mem_of_find?_eq_some found))
      exact ⟨{ grows with attachments := linked _ }, ⟨kept.messages, kept.toolCalls, kept.toolCallIds, kept.receiptIds⟩⟩
  · have grows := appendMessage_grows s (placeholderMessage messageId [reference])
    have kept : (appendMessage s (placeholderMessage messageId [reference])).Placeholders :=
      Placeholders.appendMessage placeholders ⟨fun _ => rfl, fun some => (some rfl).elim⟩
    exact ⟨{ grows with attachments := linked _ }, ⟨kept.messages, kept.toolCalls, kept.toolCallIds, kept.receiptIds⟩⟩

theorem findToolCall_eq {toolCallId : Identifier} {current : ToolCallRecord}
    (found : s.findToolCall toolCallId = some current) : current.toolCallId = toolCallId := by
  simpa using List.find?_some found

theorem reduceCitationRecordsLinked_advances (placeholders : s.Placeholders) (target : CitationTarget)
    (records : CitationRecordSet) : Advances s (reduceCitationRecordsLinked s target records) := by
  unfold reduceCitationRecordsLinked
  split
  · exact .refl placeholders
  · rename_i merged merges
    simp only [mergeCitationRecords, Option.bind_eq_bind, Option.bind_eq_some_iff, Option.some.injEq] at merges
    obtain ⟨sources, mergedSources, citations, mergedCitations, rfl⟩ := merges
    obtain ⟨newSources, rfl, _⟩ := mergeRecords_eq_some mergedSources
    obtain ⟨newCitations, rfl, _⟩ := mergeRecords_eq_some mergedCitations
    have kept : Advances s { s with
        citationSources := s.citationSources ++ newSources.map (Retained.write CitationSource.codec)
        citations := s.citations ++ newCitations.map (Retained.write Citation.codec) } :=
      ⟨{ ConversationState.Grows.refl s with
          sources := List.subset_append_left ..
          citations := fun x member => .inl (List.mem_append_left _ member) },
        ⟨placeholders.messages, placeholders.toolCalls, placeholders.toolCallIds, placeholders.receiptIds⟩⟩
    cases target with
    | assistantMessage messageId =>
      simp only
      split
      · split
        · exact .refl placeholders
        · exact kept
      · have grows := appendMessage_grows s (placeholderMessage messageId [])
        have bare : (appendMessage s (placeholderMessage messageId [])).Placeholders :=
          Placeholders.appendMessage placeholders ⟨fun _ => rfl, fun some => (some rfl).elim⟩
        exact ⟨{ grows with
            sources := List.subset_append_left ..
            citations := fun x member => .inl (List.mem_append_left _ member) },
          ⟨bare.messages, bare.toolCalls, bare.toolCallIds, bare.receiptIds⟩⟩
    | toolResult turnId toolCallId =>
      simp only
      split
      · split
        · exact .refl placeholders
        · exact kept
      · rename_i none
        have grows := appendToolCall_grows s (placeholderToolCall toolCallId turnId)
        have bare : (appendToolCall s (placeholderToolCall toolCallId turnId)).Placeholders :=
          Placeholders.appendToolCall placeholders none fun _ => ⟨rfl, rfl⟩
        exact ⟨{ grows with
            sources := List.subset_append_left ..
            citations := fun x member => .inl (List.mem_append_left _ member) },
          ⟨bare.messages, bare.toolCalls, bare.toolCallIds, bare.receiptIds⟩⟩

theorem Advances.of_turns (placeholders : s.Placeholders) {turns : List TurnRecord} {active : Option Identifier}
    (grows : s.Grows { s with
      turns := turns
      activeTurnId := active }) : Advances s { s with
        turns := turns
        activeTurnId := active } :=
  ⟨grows, ⟨placeholders.messages, placeholders.toolCalls, placeholders.toolCallIds, placeholders.receiptIds⟩⟩

theorem updateTurn_advances (placeholders : s.Placeholders) {turnId : Identifier} {current turn : TurnRecord}
    (found : s.findTurn turnId = some current) (later : current.Grows turn) (active : Option Identifier) :
    Advances s (updateTurn s turn active) := by
  have id : current.turnId = turnId := by simpa using List.find?_some found
  exact .of_turns placeholders (updateTurn_grows (by rw [later.turnId, id]; exact found) later active)

theorem reduceTurnStarted_advances (placeholders : s.Placeholders) (occurredAt : Timestamp)
    (attribution : Attribution) (turnId : Identifier) (inputMessageIds : List Identifier)
    (continuationOfTurnId : Option Identifier) :
    Advances s (reduceTurnStarted s occurredAt attribution turnId inputMessageIds continuationOfTurnId) := by
  unfold reduceTurnStarted
  split
  · rename_i turn found
    split
    · exact .refl placeholders
    · rename_i running
      simp only [Bool.or_eq_true, not_or] at running
      refine updateTurn_advances placeholders found ?_ _
      exact ⟨rfl, List.prefix_rfl, fun ended => (running.1 ended).elim⟩
  · exact .of_turns placeholders (appendTurn_grows s _ _)

theorem reduceTurnStatusChanged_advances (placeholders : s.Placeholders) (attribution : Attribution)
    (turnId : Identifier) (status : TurnStatus) :
    Advances s (reduceTurnStatusChanged s attribution turnId status) := by
  unfold reduceTurnStatusChanged
  split
  · rename_i turn found
    split
    · exact .refl placeholders
    · rename_i running
      refine updateTurn_advances placeholders found ?_ _
      exact ⟨rfl, List.prefix_rfl, fun ended => (running ended).elim⟩
  · exact .of_turns placeholders (appendTurn_grows s _ _)

theorem appendTurnRetryRecord_advances (placeholders : s.Placeholders) (turnId : Identifier) (retry : TurnRetryRecord) :
    Advances s (appendTurnRetryRecord s turnId retry) := by
  unfold appendTurnRetryRecord
  split
  · rename_i turn found
    refine updateTurn_advances placeholders found ?_ _
    exact ⟨rfl, List.prefix_append .., fun _ => ⟨rfl, rfl, rfl, rfl, rfl, rfl, rfl, rfl, rfl⟩⟩
  · exact .of_turns placeholders (appendTurn_grows s _ _)

theorem updateTurnCancellation_advances (placeholders : s.Placeholders) (turnId : Identifier)
    (status : TurnCancellationStatus) (reason : TurnCancellationReason) (attribution : Attribution) :
    Advances s (updateTurnCancellation s turnId status reason attribution) := by
  unfold updateTurnCancellation
  split
  · rename_i turn found
    split
    · exact .refl placeholders
    · rename_i running
      refine updateTurn_advances placeholders found ?_ _
      exact ⟨rfl, List.prefix_rfl, fun ended => (running ended).elim⟩
  · exact .of_turns placeholders (appendTurn_grows s _ _)

theorem terminateTurn_advances (placeholders : s.Placeholders) (turnId : Identifier) (terminalAt : Timestamp)
    (attribution : Attribution) (terminal : TerminalFields) :
    Advances s (terminateTurn s turnId terminalAt attribution terminal) := by
  unfold terminateTurn
  split
  · rename_i turn found
    split
    · exact .refl placeholders
    · rename_i running
      refine updateTurn_advances placeholders found ?_ _
      exact ⟨rfl, List.prefix_rfl, fun ended => (running ended).elim⟩
  · exact .of_turns placeholders (appendTurn_grows s _ _)

theorem reduceToolCallRequested_advances (placeholders : s.Placeholders) (occurredAt : Timestamp)
    (attribution : Attribution) (turnId toolCallId name : Identifier) (arguments : JsonObject) :
    Advances s (reduceToolCallRequested s occurredAt attribution turnId toolCallId name arguments) := by
  unfold reduceToolCallRequested
  split
  · exact .refl placeholders
  · split
    · rename_i current found
      have id := findToolCall_eq found
      split
      · exact .refl placeholders
      · rename_i unnamed
        simp only [not_or, Bool.not_eq_true, Option.isSome_eq_false_iff, Option.isNone_iff_eq_none] at unnamed
        obtain ⟨noArguments, noRequest⟩ :=
          placeholders.toolCalls current (List.mem_of_find?_eq_some found) unnamed.1
        have known : s.findToolCall current.toolCallId = some current := id ▸ found
        refine ⟨updateToolCall_grows known ⟨rfl, rfl, fun x given => ?_, fun x given => ?_, fun _ => (fun given => given),
          fun x given => ?_, fun _ => (fun given => given), fun _ => (fun given => given), fun _ => (fun given => given)⟩,
          Placeholders.updateToolCall placeholders known nofun⟩
        · rw [unnamed.1] at given
          cases given
        · rw [noArguments] at given
          cases given
        · rw [noRequest] at given
          cases given
    · rename_i none
      exact ⟨appendToolCall_grows s _, Placeholders.appendToolCall placeholders none nofun⟩

theorem stamp_grows (stage : ToolCallStage) {toolCall : ToolCallRecord} (unset : stage.read toolCall = none)
    (time : Timestamp) : toolCall.Grows (stage.stamp toolCall time) := by
  have absent {x : Timestamp} (given : x ∈ stage.read toolCall) : stage.read (stage.stamp toolCall time) = some x := by
    rw [unset] at given
    cases given
  cases stage with
  | discovered => exact { ToolCallRecord.Grows.refl toolCall with discoveredAt := fun _ => absent }
  | started => exact { ToolCallRecord.Grows.refl toolCall with startedAt := fun _ => absent }
  | approvalRequired => exact { ToolCallRecord.Grows.refl toolCall with approvalRequiredAt := fun _ => absent }

theorem stamp_bare (stage : ToolCallStage) {toolCall : ToolCallRecord} (time : Timestamp)
    (bare : toolCall.name = none → toolCall.arguments = none ∧ toolCall.requestedAt = none) :
    (stage.stamp toolCall time).name = none →
      (stage.stamp toolCall time).arguments = none ∧ (stage.stamp toolCall time).requestedAt = none := by
  cases stage <;> exact bare

theorem stamp_toolCallId (stage : ToolCallStage) (toolCall : ToolCallRecord) (time : Timestamp) :
    (stage.stamp toolCall time).toolCallId = toolCall.toolCallId := by
  cases stage <;> rfl

theorem reduceToolCallStage_advances (placeholders : s.Placeholders) (occurredAt : Timestamp)
    (turnId toolCallId : Identifier) (stage : ToolCallStage) :
    Advances s (reduceToolCallStage s occurredAt turnId toolCallId stage) := by
  unfold reduceToolCallStage
  split
  · rename_i current found
    have id := findToolCall_eq found
    split
    · exact .refl placeholders
    · rename_i unset
      simp only [not_or, Bool.not_eq_true, Option.isSome_eq_false_iff, Option.isNone_iff_eq_none] at unset
      have known : s.findToolCall (stage.stamp current occurredAt).toolCallId = some current := by
        rw [stamp_toolCallId, id]
        exact found
      exact ⟨updateToolCall_grows known (stamp_grows stage unset.2 occurredAt),
        Placeholders.updateToolCall placeholders known
          (stamp_bare stage occurredAt (placeholders.toolCalls current (List.mem_of_find?_eq_some found)))⟩
  · rename_i none
    refine ⟨appendToolCall_grows s _, Placeholders.appendToolCall placeholders ?_
      (stamp_bare stage occurredAt fun _ => ⟨rfl, rfl⟩)⟩
    rw [stamp_toolCallId]
    exact none

theorem reduceToolCallResultRecorded_advances (placeholders : s.Placeholders) (turnId toolCallId : Identifier)
    (result : ToolResultRecord) : Advances s (reduceToolCallResultRecorded s turnId toolCallId result) := by
  unfold reduceToolCallResultRecorded
  split
  · rename_i current found
    have id := findToolCall_eq found
    split
    · exact .refl placeholders
    · rename_i unset
      simp only [not_or, Bool.not_eq_true, Option.isSome_eq_false_iff, Option.isNone_iff_eq_none] at unset
      have known : s.findToolCall current.toolCallId = some current := id ▸ found
      refine ⟨updateToolCall_grows known
        { ToolCallRecord.Grows.refl current with result := fun x given => ?_ },
        Placeholders.updateToolCall placeholders known
          (placeholders.toolCalls current (List.mem_of_find?_eq_some found))⟩
      rw [unset.1] at given
      cases given
  · rename_i none
    exact ⟨appendToolCall_grows s _, Placeholders.appendToolCall placeholders none fun _ => ⟨rfl, rfl⟩⟩

theorem reduceApprovalProposalCreated_advances (placeholders : s.Placeholders) (occurredAt : Timestamp)
    (attribution : Attribution) (proposal : ApprovalProposal) :
    Advances s (reduceApprovalProposalCreated s occurredAt attribution proposal) := by
  unfold reduceApprovalProposalCreated
  split
  · exact .refl placeholders
  · split
    · exact .refl placeholders
    · rename_i toolCall found
      split
      · exact .refl placeholders
      · have id := findToolCall_eq found
        have known : s.findToolCall toolCall.toolCallId = some toolCall := id ▸ found
        simp only
        split
        · rename_i unset
          have later : toolCall.Grows { toolCall with approvalRequiredAt := some occurredAt } :=
            { ToolCallRecord.Grows.refl toolCall with
              approvalRequiredAt := fun x given => by
                rw [Option.isNone_iff_eq_none.mp unset] at given
                cases given }
          have grows : s.Grows (updateToolCall s { toolCall with approvalRequiredAt := some occurredAt }) :=
            updateToolCall_grows known later
          have kept : (updateToolCall s { toolCall with approvalRequiredAt := some occurredAt }).Placeholders :=
            Placeholders.updateToolCall placeholders known (placeholders.toolCalls toolCall (List.mem_of_find?_eq_some found))
          exact ⟨{ grows with proposals := grown_of_subset .refl (List.subset_append_left ..) },
            ⟨kept.messages, kept.toolCalls, kept.toolCallIds, kept.receiptIds⟩⟩
        · exact ⟨{ ConversationState.Grows.refl s with
              proposals := grown_of_subset .refl (List.subset_append_left ..) },
            ⟨placeholders.messages, placeholders.toolCalls, placeholders.toolCallIds, placeholders.receiptIds⟩⟩

theorem reduceApprovalProposalStatusChanged_advances (placeholders : s.Placeholders) (occurredAt : Timestamp)
    (attribution : Attribution) (proposalId : Identifier) (proposalVersion : PositiveSafeInteger)
    (change : ApprovalChange) :
    Advances s (reduceApprovalProposalStatusChanged s occurredAt attribution proposalId proposalVersion change) := by
  unfold reduceApprovalProposalStatusChanged
  split
  · exact .refl placeholders
  · rename_i current found
    split
    · exact .refl placeholders
    · rename_i allowed
      simp only [not_or, not_not, Bool.not_eq_true', Bool.not_eq_false] at allowed
      split
      · exact .refl placeholders
      · have later : current.Grows (changedProposal current occurredAt attribution proposalVersion change) := by
          cases change <;> exact ⟨rfl, .inr ⟨allowed.2, allowed.1⟩⟩
        exact ⟨{ ConversationState.Grows.refl s with proposals := grown_replaceFirst .refl found later },
          ⟨placeholders.messages, placeholders.toolCalls, placeholders.toolCallIds, placeholders.receiptIds⟩⟩

theorem reducePayload_advances (placeholders : s.Placeholders) (occurredAt : Timestamp) (attribution : Attribution)
    (payload : ConversationEventPayload) : Advances s (reducePayload s occurredAt attribution payload) := by
  cases payload with
  | messageCreated => exact reduceMessageCreated_advances placeholders _ _ _ _ _
  | messageTextAppended => exact reduceMessageTextAppended_advances placeholders _ _ _ _ _
  | messageAttachmentReferenced => exact reduceMessageAttachmentReferenced_advances placeholders _ _ _ _
  | citationRecordsLinked => exact reduceCitationRecordsLinked_advances placeholders _ _
  | turnStarted => exact reduceTurnStarted_advances placeholders _ _ _ _ _
  | turnStatusChanged => exact reduceTurnStatusChanged_advances placeholders _ _ _
  | turnAttemptStarted | turnRetryScheduled | turnRetryExhausted =>
    exact appendTurnRetryRecord_advances placeholders _ _
  | turnCancellationRequested | turnCancellationUnsupported => exact updateTurnCancellation_advances placeholders _ _ _ _
  | turnCompleted | turnCancelled | turnFailed => exact terminateTurn_advances placeholders _ _ _ _
  | toolCallRequested => exact reduceToolCallRequested_advances placeholders _ _ _ _ _ _
  | toolCallDiscovered | toolCallStarted | toolCallApprovalRequired =>
    exact reduceToolCallStage_advances placeholders _ _ _ _
  | approvalProposalCreated => exact reduceApprovalProposalCreated_advances placeholders _ _ _
  | approvalProposalStatusChanged => exact reduceApprovalProposalStatusChanged_advances placeholders _ _ _ _ _
  | toolCallResultRecorded => exact reduceToolCallResultRecorded_advances placeholders _ _ _
  | toolLoopBudgetExhausted =>
    simp only [reducePayload, reduceToolLoopBudgetExhausted]
    split
    · exact .refl placeholders
    · exact ⟨{ ConversationState.Grows.refl s with budgets := List.subset_append_left .. },
        ⟨placeholders.messages, placeholders.toolCalls, placeholders.toolCallIds, placeholders.receiptIds⟩⟩
  | usageReceiptLinked turnId usageReceiptId =>
    simp only [reducePayload, reduceUsageReceiptLinked]
    split
    · exact .refl placeholders
    · rename_i unknown
      refine ⟨{ ConversationState.Grows.refl s with links := List.subset_append_left .. },
        ⟨placeholders.messages, placeholders.toolCalls, placeholders.toolCallIds, ?_⟩⟩
      rw [List.map_append, List.map_singleton, List.nodup_append]
      refine ⟨placeholders.receiptIds, by simp, ?_⟩
      rintro id member _ last rfl
      rw [List.mem_singleton.mp last] at member
      obtain ⟨known, inside, same⟩ := List.mem_map.mp member
      exact unknown (List.any_eq_true.mpr ⟨known, inside, beq_iff_eq.mpr same⟩)
  | metadataUpdated | titleUpdated =>
    exact ⟨{ ConversationState.Grows.refl s with citations := fun _ => .inl },
      ⟨placeholders.messages, placeholders.toolCalls, placeholders.toolCallIds, placeholders.receiptIds⟩⟩

theorem reduceConversationEvent_advances (placeholders : s.Placeholders) (event : ConversationEvent) :
    Advances s (reduceConversationEvent s event) := by
  unfold reduceConversationEvent
  split
  · exact .refl placeholders
  · split
    · exact ⟨{ ConversationState.Grows.refl s with citations := fun _ => .inl },
        ⟨placeholders.messages, placeholders.toolCalls, placeholders.toolCallIds, placeholders.receiptIds⟩⟩
    · have bare : (acceptEnvelope s event).Placeholders :=
        ⟨placeholders.messages, placeholders.toolCalls, placeholders.toolCallIds, placeholders.receiptIds⟩
      have step := reducePayload_advances bare event.occurredAt ⟨event.actor, event.source⟩ event.payload
      have envelope := reducePayload_envelope (acceptEnvelope s event) event.occurredAt ⟨event.actor, event.source⟩
        event.payload
      have eventIds : (reducePayload _ _ _ _).processedEventIds = s.processedEventIds ++ [event.eventId] :=
        congrArg Envelope.processedEventIds envelope
      have mutationIds : (reducePayload _ _ _ _).processedMutationIds =
          s.processedMutationIds ++ event.mutationId.toList := congrArg Envelope.processedMutationIds envelope
      refine ⟨{ step.grows with eventIds := ?_, mutationIds := ?_ }, step.placeholders⟩
      · rw [eventIds]
        exact List.prefix_append ..
      · rw [mutationIds]
        exact List.prefix_append ..

theorem foldEvents_placeholders (placeholders : s.Placeholders) (log : List ConversationEvent) :
    (foldEvents s log).Placeholders := by
  induction log generalizing s with
  | nil => exact placeholders
  | cons event rest ih => exact ih (reduceConversationEvent_advances placeholders event).placeholders

end

/-! ### Reachable states -/

structure ConversationState.KeepsHistory (s later : ConversationState) : Prop where
  messages : Keeps MessageRecord.messageId MessageRecord.Grows s.messages later.messages
  turns : Keeps TurnRecord.turnId TurnRecord.Grows s.turns later.turns
  toolCalls : Keeps ToolCallRecord.toolCallId ToolCallRecord.Grows s.toolCalls later.toolCalls
  proposals : Keeps ApprovalProposalRecord.proposalId ApprovalProposalRecord.Grows s.approvalProposals
    later.approvalProposals
  finalProposals : ∀ p ∈ s.approvalProposals, p.status = .rejected ∨ p.status = .expired ∨ p.status = .executed →
    p ∈ later.approvalProposals
  attachments : s.attachments ⊆ later.attachments
  sources : s.citationSources ⊆ later.citationSources
  citations : ∀ x ∈ s.citations, x ∈ later.citations ∨ s.Withdrawn later x
  budgets : s.toolLoopBudgetExhaustions ⊆ later.toolLoopBudgetExhaustions
  links : s.usageReceiptLinks ⊆ later.usageReceiptLinks
  eventIds : s.processedEventIds <+: later.processedEventIds
  mutationIds : s.processedMutationIds <+: later.processedMutationIds

section
variable [WebPlatform]

theorem keepsHistory_of_grows {s later : ConversationState} (grows : s.Grows later) (sound : later.Sound)
    (placeholders : later.Placeholders) : s.KeepsHistory later where
  messages := by
    refine grows.messages.keeps MessageRecord.Grows.messageId ?_
    have ids := sound.attachments.messageIds
    rwa [List.map_map] at ids
  turns := grows.turns.keeps TurnRecord.Grows.turnId sound.turns.turnIds
  toolCalls := grows.toolCalls.keeps ToolCallRecord.Grows.toolCallId placeholders.toolCallIds
  proposals := grows.proposals.keeps ApprovalProposalRecord.Grows.proposalId sound.approvals.proposalIds
  finalProposals p member final := by
    obtain ⟨after, inside, step⟩ := grows.proposals p member
    rwa [← step.final final]
  attachments := grows.attachments
  sources := grows.sources
  citations := grows.citations
  budgets := grows.budgets
  links := grows.links
  eventIds := grows.eventIds
  mutationIds := grows.mutationIds

/-- One more accepted event keeps the history of a folded state. -/
theorem projected_history_grows (conversationId : Option Identifier) {log : List ConversationEvent}
    (accepted : ∀ event ∈ log, Accepted event) {event : ConversationEvent} (next : Accepted event) :
    (foldEvents (createInitialConversationState conversationId) log).KeepsHistory
      (reduceConversationEvent (foldEvents (createInitialConversationState conversationId) log) event) := by
  have sound := foldEvents_sound (initial_sound conversationId) (valid_of_accepted accepted)
  have placeholders := foldEvents_placeholders (initial_placeholders conversationId) log
  have step := reduceConversationEvent_advances placeholders event
  obtain ⟨_, parsed⟩ := next
  have after := reduceConversationEvent_sound sound (parseConversationEvent_valid parsed)
  exact keepsHistory_of_grows step.grows after step.placeholders

end

/-- A user's message, created after a citation was linked to its id. -/
theorem projected_history_grows_user : ∃ _ : WebPlatform, ∃ log : List ConversationEvent, ∃ event,
    (foldEvents (createInitialConversationState none) log).citations.length = 1 ∧
    (reduceConversationEvent (foldEvents (createInitialConversationState none) log) event).citations = [] ∧
    (foldEvents (createInitialConversationState none) log).KeepsHistory
      (reduceConversationEvent (foldEvents (createInitialConversationState none) log) event) := by
  let _ := withoutUrls
  obtain ⟨events, accepted, checked⟩ := accepted_of_check
    [sampleLink 1 "first", sampleEvent 2 [("type", .str (js "message.created")), ("message_id", .str (js "message")),
      ("role", .str (js "user")), ("content", .arr [Json.object [("type", .str (js "text")),
        ("text", .str (js "Hello"))]])]]
    (fun events => events.length == 2 &&
      (foldEvents (createInitialConversationState none) (events.take 1)).citations.length == 1 &&
      (foldEvents (createInitialConversationState none) events).citations.isEmpty) (by decide +kernel)
  simp only [Bool.and_eq_true, beq_iff_eq, List.isEmpty_iff] at checked
  obtain ⟨⟨two, linked⟩, withdrawn⟩ := checked
  obtain ⟨link, message, rfl⟩ := List.length_eq_two.mp two
  refine ⟨withoutUrls, [link], message, linked, withdrawn, projected_history_grows none ?_ (accepted message (by simp))⟩
  exact fun event member => accepted event (List.mem_append_left [message] member)

end Handrail.Conversation

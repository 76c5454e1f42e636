import Handrail.Conversation.Log

/-!
# Folds of rewritten states

The reducer reads the JSON parts of a state only where it compares citation records as text. Apart
from that comparison it commutes with every rewriting of the JSON parts.
-/

namespace Handrail.Conversation
open Js

/-! ### Rewritten records -/

theorem ToolCallRecord.map_eq (r : Rewriting) (t : ToolCallRecord) :
    ToolCallRecord.codec.map r t = { t with
      arguments := t.arguments.map (JsonObject.map r)
      result := t.result.map (ToolResultRecord.codec.map r) } := by
  have names (a : Option Identifier) := Codec.Leafless.map_eq (c := identifierCodec.nullable identifier_ne_null) r a
  have times (a : Option Timestamp) := Codec.Leafless.map_eq (c := timestampCodec.nullable timestamp_ne_null) r a
  have actors (a : Option Attribution) := Codec.Leafless.map_eq (c := Attribution.codec.nullable Attribution.encode_ne_null) r a
  calc ToolCallRecord.codec.map r t
      = ⟨t.toolCallId, t.turnId, (identifierCodec.nullable identifier_ne_null).map r t.name,
          (Codec.jsonObject.nullable Codec.jsonObject_ne_null).map r t.arguments,
          (timestampCodec.nullable timestamp_ne_null).map r t.requestedAt,
          (timestampCodec.nullable timestamp_ne_null).map r t.discoveredAt,
          (timestampCodec.nullable timestamp_ne_null).map r t.startedAt,
          (timestampCodec.nullable timestamp_ne_null).map r t.approvalRequiredAt,
          (Attribution.codec.nullable Attribution.encode_ne_null).map r t.attribution,
          (ToolResultRecord.codec.nullable ToolResultRecord.encode_ne_null).map r t.result⟩ := rfl
    _ = _ := by simp only [names, times, actors]; rfl

theorem ApprovalProposalRecord.map_eq (r : Rewriting) (p : ApprovalProposalRecord) :
    ApprovalProposalRecord.codec.map r p =
      { p with reviewedArguments := ReviewedArguments.codec.map r p.reviewedArguments } := by
  have names (a : Option Identifier) := Codec.Leafless.map_eq (c := identifierCodec.nullable identifier_ne_null) r a
  have times (a : Option Timestamp) := Codec.Leafless.map_eq (c := timestampCodec.nullable timestamp_ne_null) r a
  have actor (a : Attribution) := Codec.Leafless.map_eq (c := Attribution.codec) r a
  have actors (a : Option Attribution) := Codec.Leafless.map_eq (c := Attribution.codec.nullable Attribution.encode_ne_null) r a
  have texts (a : Option JsString) := Codec.Leafless.map_eq (c := Codec.string.nullable Codec.string_ne_null) r a
  calc ApprovalProposalRecord.codec.map r p
      = ⟨p.proposalId, (identifierCodec.nullable identifier_ne_null).map r p.groupId, p.turnId, p.toolCallId, p.toolName,
          ReviewedArguments.codec.map r p.reviewedArguments, p.status, p.proposalVersion, p.expiresAt,
          p.createdAt, p.updatedAt, Attribution.codec.map r p.createdAttribution,
          Attribution.codec.map r p.latestAttribution, (timestampCodec.nullable timestamp_ne_null).map r p.decisionAt,
          (Attribution.codec.nullable Attribution.encode_ne_null).map r p.decisionAttribution,
          (Codec.string.nullable Codec.string_ne_null).map r p.decisionReason,
          (Codec.string.nullable Codec.string_ne_null).map r p.failureReason⟩ := rfl
    _ = _ := by simp only [names, times, actor, actors, texts]

theorem Citation.map_target (r : Rewriting) (c : Citation) : (Citation.codec.map r c).target = c.target :=
  Codec.Leafless.map_eq (c := CitationAttachmentTarget.codec) r c.target

theorem CitationSource.map_eq (r : Rewriting) (s : CitationSource) : CitationSource.codec.map r s = s :=
  Codec.Leafless.map_eq r s

theorem ConversationState.map_eq (r : Rewriting) (s : ConversationState) :
    s.map r = { s with
      citationSources := s.citationSources.map (Retained.map CitationSource.plain r)
      citations := s.citations.map (Retained.map Citation.plain r)
      toolCalls := s.toolCalls.map (ToolCallRecord.codec.map r)
      approvalProposals := s.approvalProposals.map (ApprovalProposalRecord.codec.map r)
      metadata := s.metadata.map r } := by
  have names (a : Option Identifier) := Codec.Leafless.map_eq (c := identifierCodec.nullable identifier_ne_null) r a
  have ids (a : List Identifier) := Codec.Leafless.map_eq (c := identifierCodec.list) r a
  have messages := Codec.Leafless.map_eq (c := MessageRecord.codec.list) r s.messages
  have attachments := Codec.Leafless.map_eq (c := AttachmentRecord.codec.list) r s.attachments
  have turns := Codec.Leafless.map_eq (c := TurnRecord.codec.list) r s.turns
  have budgets := Codec.Leafless.map_eq (c := ToolLoopBudgetExhaustion.codec.list) r s.toolLoopBudgetExhaustions
  have links := Codec.Leafless.map_eq (c := UsageReceiptLink.codec.list) r s.usageReceiptLinks
  have revision := Codec.Leafless.map_eq (c := Codec.natural.nullable Codec.natural_ne_null) r s.revision
  have title := Codec.Leafless.map_eq (c := Codec.string.nullable Codec.string_ne_null) r s.title
  have error := Codec.Leafless.map_eq (c := ReplayError.codec.nullable ReplayError.encode_ne_null) r s.replayError
  calc s.map r
      = ⟨(identifierCodec.nullable identifier_ne_null).map r s.conversationId,
        (Codec.natural.nullable Codec.natural_ne_null).map r s.revision,
          (identifierCodec.nullable identifier_ne_null).map r s.lastEventId, identifierCodec.list.map r s.processedEventIds,
          identifierCodec.list.map r s.processedMutationIds, MessageRecord.codec.list.map r s.messages,
          AttachmentRecord.codec.list.map r s.attachments,
          s.citationSources.map (Retained.map CitationSource.plain r),
          s.citations.map (Retained.map Citation.plain r), TurnRecord.codec.list.map r s.turns,
          (identifierCodec.nullable identifier_ne_null).map r s.activeTurnId, s.toolCalls.map (ToolCallRecord.codec.map r),
          s.approvalProposals.map (ApprovalProposalRecord.codec.map r),
          ToolLoopBudgetExhaustion.codec.list.map r s.toolLoopBudgetExhaustions,
          UsageReceiptLink.codec.list.map r s.usageReceiptLinks, s.metadata.map r,
          (Codec.string.nullable Codec.string_ne_null).map r s.title,
          (ReplayError.codec.nullable ReplayError.encode_ne_null).map r s.replayError⟩ := rfl
    _ = _ := by simp only [names, ids, messages, attachments, turns, budgets, links, revision, title, error]

section
variable (r : Rewriting) (s : ConversationState)

@[simp] theorem map_envelope : (s.map r).envelope = s.envelope := by rw [ConversationState.map_eq]; rfl

@[simp] theorem map_messages : (s.map r).messages = s.messages := by rw [ConversationState.map_eq]

@[simp] theorem map_turns : (s.map r).turns = s.turns := by rw [ConversationState.map_eq]

@[simp] theorem map_toolCalls : (s.map r).toolCalls = s.toolCalls.map (ToolCallRecord.codec.map r) := by
  rw [ConversationState.map_eq]

@[simp] theorem map_approvalProposals :
    (s.map r).approvalProposals = s.approvalProposals.map (ApprovalProposalRecord.codec.map r) := by
  rw [ConversationState.map_eq]

@[simp] theorem findMessage_map (messageId : JsString) : (s.map r).findMessage messageId = s.findMessage messageId := by
  rw [ConversationState.findMessage, map_messages, ConversationState.findMessage]

@[simp] theorem findTurn_map (turnId : Identifier) : (s.map r).findTurn turnId = s.findTurn turnId := by
  rw [ConversationState.findTurn, map_turns, ConversationState.findTurn]

@[simp] theorem isTerminalTurn_map (turnId : Identifier) : isTerminalTurn (s.map r) turnId = isTerminalTurn s turnId := by
  rw [isTerminalTurn, findTurn_map, isTerminalTurn]

@[simp] theorem findToolCall_map (toolCallId : Identifier) :
    (s.map r).findToolCall toolCallId = (s.findToolCall toolCallId).map (ToolCallRecord.codec.map r) := by
  have blind (t : ToolCallRecord) :
      ((ToolCallRecord.codec.map r t).toolCallId == toolCallId) = (t.toolCallId == toolCallId) := rfl
  rw [ConversationState.findToolCall, map_toolCalls, find?_map_of_blind blind, ConversationState.findToolCall]

@[simp] theorem findProposal_map (proposalId : Identifier) :
    (s.map r).findProposal proposalId = (s.findProposal proposalId).map (ApprovalProposalRecord.codec.map r) := by
  have blind (p : ApprovalProposalRecord) :
      ((ApprovalProposalRecord.codec.map r p).proposalId == proposalId) = (p.proposalId == proposalId) := rfl
  rw [ConversationState.findProposal, map_approvalProposals, find?_map_of_blind blind,
    ConversationState.findProposal]

end

/-! ### Rewritten payloads -/

namespace ConversationEventPayload

def map (r : Rewriting) : ConversationEventPayload → ConversationEventPayload
  | citationRecordsLinked target records =>
    citationRecordsLinked target (CitationRecordSet.codec.map r records)
  | toolCallRequested turnId toolCallId name arguments =>
    toolCallRequested turnId toolCallId name (arguments.map r)
  | approvalProposalCreated proposal =>
    approvalProposalCreated { proposal with
      reviewedArguments := ReviewedArguments.codec.map r proposal.reviewedArguments }
  | toolCallResultRecorded turnId toolCallId content isError citationRecords =>
    toolCallResultRecorded turnId toolCallId (content.map (ToolResultPart.codec.map r)) isError
      (citationRecords.map (CitationRecordSet.codec.map r))
  | metadataUpdated metadata => metadataUpdated (metadata.map r)
  | payload => payload

end ConversationEventPayload

def ConversationEvent.map (r : Rewriting) (event : ConversationEvent) : ConversationEvent :=
  { event with
    metadata := event.metadata.map (JsonObject.map r)
    payload := event.payload.map r }

/-! ### Merged records -/

def TextAgrees {α : Type} (c : Codec α) (plain : c.Plain) (identity : α → JsString) (r : Rewriting)
    (retained : List (Retained c)) (records : List α) : Prop :=
  ∀ x ∈ retained, ∀ a ∈ records, identity x.record = identity a →
    (stringify x.json = stringify (c.encode a) ↔
      stringify (x.map plain r).json = stringify (c.encode (c.map r a)))

section
variable {α : Type} {c : Codec α} {identity : α → JsString} {r : Rewriting} {retained : List (Retained c)}
  {records : List α}

theorem write_map (plain : c.Plain) (r : Rewriting) (a : α) :
    (Retained.write c a).map plain r = Retained.write c (c.map r a) := by
  apply Retained.ext
  cases r with
  | roundTrip => exact (c.encode_roundTrip a).symm
  | sorted => exact congrArg c.encode (plain a).symm

theorem mergeRecords_map (plain : c.Plain) (blind : ∀ a, identity (c.map r a) = identity a)
    (distinct : (records.map identity).Nodup) (agrees : TextAgrees c plain identity r retained records) :
    mergeRecords c identity (retained.map (Retained.map plain r)) (records.map (c.map r)) =
      (mergeRecords c identity retained records).map (List.map (Retained.map plain r)) := by
  induction records generalizing retained with
  | nil => rfl
  | cons current rest ih =>
    rw [List.map_cons, List.nodup_cons] at distinct
    have later : TextAgrees c plain identity r retained rest := fun x kept a member =>
      agrees x kept a (List.mem_cons_of_mem _ member)
    have found : (retained.map (Retained.map plain r)).find?
        (fun existing => identity existing.record == identity (c.map r current)) =
        (retained.find? fun existing => identity existing.record == identity current).map
          (Retained.map plain r) := by
      rw [blind, find?_map_of_blind]
      intro x
      rw [Retained.map_record, blind]
    rw [List.map_cons, mergeRecords, mergeRecords, found]
    cases known : retained.find? fun existing => identity existing.record == identity current with
    | none =>
      have grown : TextAgrees c plain identity r (retained ++ [Retained.write c current]) rest := by
        intro x kept a member same
        rcases List.mem_append.mp kept with old | new
        · exact later x old a member same
        · obtain rfl := List.mem_singleton.mp new
          exact (distinct.1 (List.mem_map.mpr ⟨a, member, same.symm⟩)).elim
      have next := ih distinct.2 grown
      rw [List.map_append, List.map_singleton, write_map] at next
      exact next
    | some existing =>
      have kept := List.mem_of_find?_eq_some known
      have same : identity existing.record = identity current := by simpa using List.find?_some known
      have texts := agrees existing kept current List.mem_cons_self same
      simp only [Option.map_some]
      by_cases equal : stringify existing.json = stringify (c.encode current)
      · rw [if_neg (not_not.mpr equal), if_neg (not_not.mpr (texts.mp equal))]
        exact ih distinct.2 later
      · rw [if_pos equal, if_pos fun mapped => equal (texts.mpr mapped)]
        rfl

/-- Retained records that are written as the codec writes them compare as their sorted forms do. -/
theorem textAgrees_of_written (plain : c.Plain) (written : ∀ x ∈ retained, x.json = c.encode x.record) :
    TextAgrees c plain identity .sorted retained records := by
  intro x kept a _ _
  rw [written x kept, plain a]
  rfl

end

/-- The comparisons that a payload makes with retained records have the same outcome on the
rewritten state. -/
def MergeAgrees (r : Rewriting) (s : ConversationState) : ConversationEventPayload → Prop
  | .citationRecordsLinked _ records =>
    TextAgrees CitationSource.codec CitationSource.plain CitationSource.sourceId r s.citationSources
      records.sources ∧
    TextAgrees Citation.codec Citation.plain Citation.citationId r s.citations records.citations
  | _ => True

/-- The records of a `citation.records_linked` payload have distinct identities. -/
def ConversationEventPayload.DistinctRecords : ConversationEventPayload → Prop
  | citationRecordsLinked _ records =>
    (records.sources.map CitationSource.sourceId).Nodup ∧
      (records.citations.map Citation.citationId).Nodup
  | _ => True

theorem mergeCitationRecords_map {r : Rewriting} {s : ConversationState} {target : CitationTarget}
    {records : CitationRecordSet}
    (distinct : (ConversationEventPayload.citationRecordsLinked target records).DistinctRecords)
    (agrees : MergeAgrees r s (.citationRecordsLinked target records)) :
    mergeCitationRecords (s.map r) (CitationRecordSet.codec.map r records) =
      (mergeCitationRecords s records).map (ConversationState.map r) := by
  have sources := mergeRecords_map CitationSource.plain (fun a => by rw [CitationSource.map_eq]) distinct.1 agrees.1
  have citations := mergeRecords_map Citation.plain (fun _ => rfl) distinct.2 agrees.2
  unfold mergeCitationRecords
  rw [ConversationState.map_eq]
  simp only [Option.bind_eq_bind]
  rw [show (CitationRecordSet.codec.map r records).sources =
      records.sources.map (CitationSource.codec.map r) from rfl, sources,
    show (CitationRecordSet.codec.map r records).citations =
      records.citations.map (Citation.codec.map r) from rfl, citations]
  cases mergeRecords CitationSource.codec CitationSource.sourceId s.citationSources records.sources with
  | none => rfl
  | some sources =>
    cases mergeRecords Citation.codec Citation.citationId s.citations records.citations with
    | none => rfl
    | some citations =>
      simp only [Option.map_some, Option.bind_some, ConversationState.map_eq]

/-! ### One event -/

section
variable {r : Rewriting} {s : ConversationState}

theorem updateMessage_map (message : MessageRecord) :
    (updateMessage s message).map r = updateMessage (s.map r) message := by
  simp only [updateMessage, ConversationState.map_eq]

theorem appendMessage_map (message : MessageRecord) :
    (appendMessage s message).map r = appendMessage (s.map r) message := by
  simp only [appendMessage, ConversationState.map_eq]

theorem updateTurn_map (turn : TurnRecord) (active : Option Identifier) :
    (updateTurn s turn active).map r = updateTurn (s.map r) turn active := by
  simp only [updateTurn, ConversationState.map_eq]

theorem appendTurn_map (turn : TurnRecord) (active : Option Identifier) :
    (appendTurn s turn active).map r = appendTurn (s.map r) turn active := by
  simp only [appendTurn, ConversationState.map_eq]

theorem updateToolCall_map (toolCall : ToolCallRecord) :
    (updateToolCall s toolCall).map r = updateToolCall (s.map r) (ToolCallRecord.codec.map r toolCall) := by
  have blind (t : ToolCallRecord) :
      ((ToolCallRecord.codec.map r t).toolCallId == toolCall.toolCallId) =
        (t.toolCallId == toolCall.toolCallId) := rfl
  simp only [updateToolCall, ConversationState.map_eq]
  rw [← replaceFirst_map blind]
  rfl

theorem appendToolCall_map (toolCall : ToolCallRecord) :
    (appendToolCall s toolCall).map r = appendToolCall (s.map r) (ToolCallRecord.codec.map r toolCall) := by
  simp only [appendToolCall, ConversationState.map_eq, List.map_append, List.map_singleton]

theorem placeholderToolCall_map (toolCallId turnId : Identifier) :
    ToolCallRecord.codec.map r (placeholderToolCall toolCallId turnId) = placeholderToolCall toolCallId turnId := by
  rw [ToolCallRecord.map_eq]
  rfl

theorem removeCitations_map (messageId : Identifier) :
    (removeCitationsForAssistantMessage s messageId).map r =
      removeCitationsForAssistantMessage (s.map r) messageId := by
  simp only [removeCitationsForAssistantMessage, ConversationState.map_eq, List.filter_map,
    Function.comp_def, Retained.map_record, Citation.map_target]

@[simp] theorem map_activeTurnId : (s.map r).activeTurnId = s.activeTurnId := by
  rw [ConversationState.map_eq]

theorem reduceMessageCreated_map (occurredAt : Timestamp) (attribution : Attribution) (messageId : Identifier)
    (role : MessageRole) (content : List JsString) :
    (reduceMessageCreated s occurredAt attribution messageId role content).map r =
      reduceMessageCreated (s.map r) occurredAt attribution messageId role content := by
  unfold reduceMessageCreated
  rw [findMessage_map]
  split
  · split
    · rfl
    · simp only
      split
      · exact updateMessage_map _
      · rw [removeCitations_map, updateMessage_map]
  · exact appendMessage_map _

theorem reduceMessageAttachmentReferenced_map (occurredAt : Timestamp) (attribution : Attribution)
    (messageId : Identifier) (reference : AttachmentReference) :
    (reduceMessageAttachmentReferenced s occurredAt attribution messageId reference).map r =
      reduceMessageAttachmentReferenced (s.map r) occurredAt attribution messageId reference := by
  unfold reduceMessageAttachmentReferenced
  rw [findMessage_map]
  have linked (attachments : List AttachmentRecord) :
      ({ s with attachments := attachments } : ConversationState).map r =
        { s.map r with attachments := attachments } := by simp only [ConversationState.map_eq]
  have kept : (s.map r).attachments = s.attachments := by rw [ConversationState.map_eq]
  rw [kept]
  split
  · split
    · exact linked _
    · rw [updateMessage_map, linked]
  · rw [appendMessage_map, linked]

theorem reduceCitationRecordsLinked_map {target : CitationTarget} {records : CitationRecordSet}
    (distinct : (ConversationEventPayload.citationRecordsLinked target records).DistinctRecords)
    (agrees : MergeAgrees r s (.citationRecordsLinked target records)) :
    (reduceCitationRecordsLinked s target records).map r =
      reduceCitationRecordsLinked (s.map r) target (CitationRecordSet.codec.map r records) := by
  unfold reduceCitationRecordsLinked
  rw [mergeCitationRecords_map distinct agrees]
  cases mergeCitationRecords s records with
  | none => rfl
  | some merged =>
    cases target with
    | assistantMessage messageId =>
      simp only [Option.map_some, findMessage_map]
      split
      · split <;> rfl
      · exact appendMessage_map _
    | toolResult turnId toolCallId =>
      simp only [Option.map_some, findToolCall_map]
      cases s.findToolCall toolCallId with
      | none =>
        simp only [Option.map_none]
        rw [appendToolCall_map, placeholderToolCall_map]
      | some toolCall =>
        simp only [Option.map_some, ToolCallRecord.map_eq]
        split <;> rfl

theorem reduceTurnStarted_map (occurredAt : Timestamp) (attribution : Attribution) (turnId : Identifier)
    (inputMessageIds : List Identifier) (continuationOfTurnId : Option Identifier) :
    (reduceTurnStarted s occurredAt attribution turnId inputMessageIds continuationOfTurnId).map r =
      reduceTurnStarted (s.map r) occurredAt attribution turnId inputMessageIds continuationOfTurnId := by
  unfold reduceTurnStarted
  rw [findTurn_map]
  split
  · split
    · rfl
    · exact updateTurn_map _ _
  · exact appendTurn_map _ _

theorem appendTurnRetryRecord_map (turnId : Identifier) (retry : TurnRetryRecord) :
    (appendTurnRetryRecord s turnId retry).map r = appendTurnRetryRecord (s.map r) turnId retry := by
  unfold appendTurnRetryRecord
  rw [findTurn_map, map_activeTurnId]
  split
  · exact updateTurn_map _ _
  · exact appendTurn_map _ _

theorem updateTurnCancellation_map (turnId : Identifier) (status : TurnCancellationStatus)
    (reason : TurnCancellationReason) (attribution : Attribution) :
    (updateTurnCancellation s turnId status reason attribution).map r =
      updateTurnCancellation (s.map r) turnId status reason attribution := by
  unfold updateTurnCancellation
  rw [findTurn_map, map_activeTurnId]
  split
  · split
    · rfl
    · exact updateTurn_map _ _
  · exact appendTurn_map _ _

theorem terminateTurn_map (turnId : Identifier) (terminalAt : Timestamp) (attribution : Attribution)
    (terminal : TerminalFields) :
    (terminateTurn s turnId terminalAt attribution terminal).map r =
      terminateTurn (s.map r) turnId terminalAt attribution terminal := by
  unfold terminateTurn
  rw [findTurn_map, map_activeTurnId]
  split
  · split
    · rfl
    · exact updateTurn_map _ _
  · exact appendTurn_map _ _

theorem reduceToolCallRequested_map (occurredAt : Timestamp) (attribution : Attribution)
    (turnId toolCallId name : Identifier) (arguments : JsonObject) :
    (reduceToolCallRequested s occurredAt attribution turnId toolCallId name arguments).map r =
      reduceToolCallRequested (s.map r) occurredAt attribution turnId toolCallId name (arguments.map r) := by
  unfold reduceToolCallRequested
  rw [isTerminalTurn_map, findToolCall_map]
  split
  · rfl
  · cases s.findToolCall toolCallId with
    | none =>
      simp only [Option.map_none]
      rw [appendToolCall_map, ToolCallRecord.map_eq]
      rfl
    | some current =>
      simp only [Option.map_some, ToolCallRecord.map_eq]
      split
      · rfl
      · rw [updateToolCall_map, ToolCallRecord.map_eq]
        rfl

theorem stamp_map (stage : ToolCallStage) (toolCall : ToolCallRecord) (time : Timestamp) :
    ToolCallRecord.codec.map r (stage.stamp toolCall time) =
      stage.stamp (ToolCallRecord.codec.map r toolCall) time := by
  rw [ToolCallRecord.map_eq, ToolCallRecord.map_eq]
  cases stage <;> rfl

theorem reduceToolCallStage_map (occurredAt : Timestamp) (turnId toolCallId : Identifier) (stage : ToolCallStage) :
    (reduceToolCallStage s occurredAt turnId toolCallId stage).map r =
      reduceToolCallStage (s.map r) occurredAt turnId toolCallId stage := by
  unfold reduceToolCallStage
  rw [findToolCall_map]
  cases s.findToolCall toolCallId with
  | none =>
    simp only [Option.map_none]
    rw [appendToolCall_map, stamp_map, placeholderToolCall_map]
  | some current =>
    have stamped : stage.read (ToolCallRecord.codec.map r current) = stage.read current := by
      rw [ToolCallRecord.map_eq]
      cases stage <;> rfl
    have turn : (ToolCallRecord.codec.map r current).turnId = current.turnId := rfl
    simp only [Option.map_some, stamped, turn]
    split
    · rfl
    · rw [updateToolCall_map, stamp_map]

theorem reduceToolCallResultRecorded_map (turnId toolCallId : Identifier) (result : ToolResultRecord) :
    (reduceToolCallResultRecorded s turnId toolCallId result).map r =
      reduceToolCallResultRecorded (s.map r) turnId toolCallId (ToolResultRecord.codec.map r result) := by
  unfold reduceToolCallResultRecorded
  rw [findToolCall_map]
  cases s.findToolCall toolCallId with
  | none =>
    simp only [Option.map_none]
    rw [appendToolCall_map, ToolCallRecord.map_eq]
    rfl
  | some current =>
    simp only [Option.map_some, ToolCallRecord.map_eq, Option.isSome_map]
    split
    · rfl
    · rw [updateToolCall_map, ToolCallRecord.map_eq]
      rfl

theorem reduceApprovalProposalCreated_map (occurredAt : Timestamp) (attribution : Attribution)
    (payload : ApprovalProposal) :
    (reduceApprovalProposalCreated s occurredAt attribution payload).map r =
      reduceApprovalProposalCreated (s.map r) occurredAt attribution
        { payload with reviewedArguments := ReviewedArguments.codec.map r payload.reviewedArguments } := by
  unfold reduceApprovalProposalCreated
  rw [isTerminalTurn_map, findToolCall_map, findProposal_map]
  simp only [Option.isSome_map]
  split
  · rfl
  · cases s.findToolCall payload.toolCallId with
    | none => rfl
    | some toolCall =>
      simp only [Option.map_some, ToolCallRecord.map_eq]
      split
      · rfl
      · have appended (t : ConversationState) (proposal : ApprovalProposalRecord) :
            ({ t with approvalProposals := s.approvalProposals ++ [proposal] } : ConversationState).map r =
              { t.map r with approvalProposals := (s.map r).approvalProposals ++
                [ApprovalProposalRecord.codec.map r proposal] } := by
          simp only [ConversationState.map_eq, List.map_append, List.map_singleton]
        rw [appended, ApprovalProposalRecord.map_eq]
        split
        · rw [updateToolCall_map, ToolCallRecord.map_eq]
        · rfl

theorem changedProposal_map (current : ApprovalProposalRecord) (occurredAt : Timestamp)
    (attribution : Attribution) (proposalVersion : PositiveSafeInteger) (change : ApprovalChange) :
    ApprovalProposalRecord.codec.map r (changedProposal current occurredAt attribution proposalVersion change) =
      changedProposal (ApprovalProposalRecord.codec.map r current) occurredAt attribution proposalVersion change := by
  rw [ApprovalProposalRecord.map_eq, ApprovalProposalRecord.map_eq]
  cases change <;> rfl

theorem reduceApprovalProposalStatusChanged_map (occurredAt : Timestamp) (attribution : Attribution)
    (proposalId : Identifier) (proposalVersion : PositiveSafeInteger) (change : ApprovalChange) :
    (reduceApprovalProposalStatusChanged s occurredAt attribution proposalId proposalVersion change).map r =
      reduceApprovalProposalStatusChanged (s.map r) occurredAt attribution proposalId proposalVersion change := by
  unfold reduceApprovalProposalStatusChanged
  rw [findProposal_map]
  cases s.findProposal proposalId with
  | none => rfl
  | some current =>
    have status : (ApprovalProposalRecord.codec.map r current).status = current.status := rfl
    have version : (ApprovalProposalRecord.codec.map r current).proposalVersion = current.proposalVersion := rfl
    have expires : (ApprovalProposalRecord.codec.map r current).expiresAt = current.expiresAt := rfl
    simp only [Option.map_some, status, version, expires]
    split
    · rfl
    · split
      · rfl
      · have blind (p : ApprovalProposalRecord) :
            ((ApprovalProposalRecord.codec.map r p).proposalId == proposalId) = (p.proposalId == proposalId) :=
          rfl
        simp only [ConversationState.map_eq, ← changedProposal_map]
        rw [← replaceFirst_map blind]

/-- The reducer commutes with a rewriting that keeps the outcome of its textual comparisons. -/
theorem reducePayload_map {payload : ConversationEventPayload} (distinct : payload.DistinctRecords)
    (agrees : MergeAgrees r s payload) (occurredAt : Timestamp) (attribution : Attribution) :
    (reducePayload s occurredAt attribution payload).map r =
      reducePayload (s.map r) occurredAt attribution (payload.map r) := by
  cases payload with
  | messageCreated => exact reduceMessageCreated_map _ _ _ _ _
  | messageTextAppended turnId messageId text =>
    simp only [reducePayload, ConversationEventPayload.map, reduceMessageTextAppended, findMessage_map]
    split
    · split
      · rfl
      · exact updateMessage_map _
    · exact appendMessage_map _
  | messageAttachmentReferenced => exact reduceMessageAttachmentReferenced_map _ _ _ _
  | citationRecordsLinked => exact reduceCitationRecordsLinked_map distinct agrees
  | turnStarted => exact reduceTurnStarted_map _ _ _ _ _
  | turnStatusChanged turnId status =>
    simp only [reducePayload, ConversationEventPayload.map, reduceTurnStatusChanged, findTurn_map]
    split
    · split
      · rfl
      · exact updateTurn_map _ _
    · exact appendTurn_map _ _
  | turnAttemptStarted | turnRetryScheduled | turnRetryExhausted => exact appendTurnRetryRecord_map _ _
  | turnCancellationRequested | turnCancellationUnsupported => exact updateTurnCancellation_map _ _ _ _
  | turnCompleted | turnCancelled | turnFailed => exact terminateTurn_map _ _ _ _
  | toolCallRequested => exact reduceToolCallRequested_map _ _ _ _ _ _
  | toolCallDiscovered | toolCallStarted | toolCallApprovalRequired => exact reduceToolCallStage_map _ _ _ _
  | approvalProposalCreated => exact reduceApprovalProposalCreated_map _ _ _
  | approvalProposalStatusChanged => exact reduceApprovalProposalStatusChanged_map _ _ _ _ _
  | toolCallResultRecorded turnId toolCallId content isError citationRecords =>
    refine (reduceToolCallResultRecorded_map _ _ _).trans ?_
    have attributed := Codec.Leafless.map_eq (c := Attribution.codec) r attribution
    have rewritten : ToolResultRecord.codec.map r ⟨content, isError, citationRecords, occurredAt, attribution⟩ =
        ⟨content.map (ToolResultPart.codec.map r), isError,
          citationRecords.map (CitationRecordSet.codec.map r), occurredAt,
          Attribution.codec.map r attribution⟩ := rfl
    rw [rewritten, attributed]
    rfl
  | toolLoopBudgetExhausted =>
    have kept : (s.map r).toolLoopBudgetExhaustions = s.toolLoopBudgetExhaustions := by
      rw [ConversationState.map_eq]
    simp only [reducePayload, ConversationEventPayload.map, reduceToolLoopBudgetExhausted, kept]
    split
    · rfl
    · simp only [ConversationState.map_eq]
  | usageReceiptLinked =>
    have kept : (s.map r).usageReceiptLinks = s.usageReceiptLinks := by rw [ConversationState.map_eq]
    simp only [reducePayload, ConversationEventPayload.map, reduceUsageReceiptLinked, kept]
    split
    · rfl
    · simp only [ConversationState.map_eq]
  | metadataUpdated | titleUpdated => simp only [reducePayload, ConversationEventPayload.map, ConversationState.map_eq]

theorem acceptEnvelope_map (event : ConversationEvent) :
    (acceptEnvelope s event).map r = acceptEnvelope (s.map r) (event.map r) := by
  simp only [acceptEnvelope, ConversationState.map_eq, ConversationEvent.map]

theorem reduceConversationEvent_map {event : ConversationEvent} (distinct : event.payload.DistinctRecords)
    (agrees : MergeAgrees r s event.payload) :
    (reduceConversationEvent s event).map r = reduceConversationEvent (s.map r) (event.map r) := by
  have processed : (s.map r).isProcessed (event.map r) = s.isProcessed event := by
    rw [ConversationState.map_eq]
    rfl
  have error : (s.map r).envelopeError (event.map r) = s.envelopeError event := by
    rw [ConversationState.map_eq]
    rfl
  unfold reduceConversationEvent
  rw [processed, error]
  split
  · rfl
  · split
    · simp only [withReplayError, ConversationState.map_eq]
    · have accepted : MergeAgrees r (acceptEnvelope s event) event.payload := by
        revert agrees
        generalize event.payload = payload
        cases payload <;> exact id
      rw [reducePayload_map distinct accepted, acceptEnvelope_map]
      rfl

end

end Handrail.Conversation

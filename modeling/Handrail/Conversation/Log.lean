import Handrail.Conversation.Reducer
import Mathlib.Data.List.Induction

/-!
# Logs and their folds

No payload changes the envelope of the state. In a contiguous log every event is accepted, so the
envelope of the fold is read off the log.
-/

namespace Handrail.Conversation
open Js

/-! ### The envelope of a state -/

structure Envelope where
  conversationId : Option Identifier
  revision : Option Nat
  lastEventId : Option Identifier
  processedEventIds : List Identifier
  processedMutationIds : List Identifier
  replayError : Option ReplayError

def ConversationState.envelope (s : ConversationState) : Envelope where
  conversationId := s.conversationId
  revision := s.revision
  lastEventId := s.lastEventId
  processedEventIds := s.processedEventIds
  processedMutationIds := s.processedMutationIds
  replayError := s.replayError

theorem mergeCitationRecords_envelope {s merged : ConversationState} {records : CitationRecordSet}
    (merges : mergeCitationRecords s records = some merged) : merged.envelope = s.envelope := by
  simp only [mergeCitationRecords, Option.bind_eq_bind, Option.bind_eq_some_iff, Option.some.injEq] at merges
  obtain ⟨_, _, _, _, rfl⟩ := merges
  rfl

theorem reduceCitationRecordsLinked_envelope (s : ConversationState) (target : CitationTarget)
    (records : CitationRecordSet) :
    (reduceCitationRecordsLinked s target records).envelope = s.envelope := by
  unfold reduceCitationRecordsLinked
  split
  · rfl
  · rename_i merged merges
    have same := mergeCitationRecords_envelope merges
    cases target with
    | assistantMessage messageId =>
      simp only
      split
      · split
        · rfl
        · exact same
      · exact same
    | toolResult turnId toolCallId =>
      simp only
      split
      · split
        · rfl
        · exact same
      · exact same

theorem reduceApprovalProposalCreated_envelope (s : ConversationState) (occurredAt : Timestamp)
    (attribution : Attribution) (payload : ApprovalProposal) :
    (reduceApprovalProposalCreated s occurredAt attribution payload).envelope = s.envelope := by
  unfold reduceApprovalProposalCreated
  split
  · rfl
  · split
    · rfl
    · split
      · rfl
      · simp only
        split <;> rfl

def ConversationState.ruled (s : ConversationState) :
    List RetainedSource × List RetainedCitation × List ApprovalProposalRecord :=
  (s.citationSources, s.citations, s.approvalProposals)

def ConversationEventPayload.isRuled : ConversationEventPayload → Bool
  | messageCreated .. | citationRecordsLinked .. | approvalProposalCreated .. | approvalProposalStatusChanged .. => true
  | _ => false

/-- The other payloads change neither the envelope nor the records and proposals that have rules. -/
theorem reducePayload_frame (s : ConversationState) (occurredAt : Timestamp) (attribution : Attribution)
    {payload : ConversationEventPayload} (other : payload.isRuled = false) :
    (reducePayload s occurredAt attribution payload).envelope = s.envelope ∧
      (reducePayload s occurredAt attribution payload).ruled = s.ruled := by
  cases payload with
  | messageCreated | citationRecordsLinked | approvalProposalCreated | approvalProposalStatusChanged => cases other
  | messageTextAppended turnId messageId text =>
    simp only [reducePayload, reduceMessageTextAppended]
    split
    · split <;> exact ⟨rfl, rfl⟩
    · exact ⟨rfl, rfl⟩
  | messageAttachmentReferenced messageId attachment =>
    simp only [reducePayload, reduceMessageAttachmentReferenced]
    split
    · split <;> exact ⟨rfl, rfl⟩
    · exact ⟨rfl, rfl⟩
  | turnStarted turnId inputMessageIds continuationOfTurnId =>
    simp only [reducePayload, reduceTurnStarted]
    split
    · split <;> exact ⟨rfl, rfl⟩
    · exact ⟨rfl, rfl⟩
  | turnStatusChanged turnId status =>
    simp only [reducePayload, reduceTurnStatusChanged]
    split
    · split <;> exact ⟨rfl, rfl⟩
    · exact ⟨rfl, rfl⟩
  | turnAttemptStarted | turnRetryScheduled | turnRetryExhausted =>
    simp only [reducePayload, appendTurnRetryRecord]
    split <;> exact ⟨rfl, rfl⟩
  | turnCancellationRequested | turnCancellationUnsupported =>
    simp only [reducePayload, updateTurnCancellation]
    split
    · split <;> exact ⟨rfl, rfl⟩
    · exact ⟨rfl, rfl⟩
  | turnCompleted | turnCancelled | turnFailed =>
    simp only [reducePayload, terminateTurn]
    split
    · split <;> exact ⟨rfl, rfl⟩
    · exact ⟨rfl, rfl⟩
  | toolCallRequested turnId toolCallId name arguments =>
    simp only [reducePayload, reduceToolCallRequested]
    split
    · exact ⟨rfl, rfl⟩
    · split
      · split <;> exact ⟨rfl, rfl⟩
      · exact ⟨rfl, rfl⟩
  | toolCallDiscovered | toolCallStarted | toolCallApprovalRequired =>
    simp only [reducePayload, reduceToolCallStage]
    split
    · split <;> exact ⟨rfl, rfl⟩
    · exact ⟨rfl, rfl⟩
  | toolCallResultRecorded turnId toolCallId content isError citationRecords =>
    simp only [reducePayload, reduceToolCallResultRecorded]
    split
    · split <;> exact ⟨rfl, rfl⟩
    · exact ⟨rfl, rfl⟩
  | toolLoopBudgetExhausted =>
    simp only [reducePayload, reduceToolLoopBudgetExhausted]
    split <;> exact ⟨rfl, rfl⟩
  | usageReceiptLinked =>
    simp only [reducePayload, reduceUsageReceiptLinked]
    split <;> exact ⟨rfl, rfl⟩
  | metadataUpdated | titleUpdated => exact ⟨rfl, rfl⟩

theorem reducePayload_envelope (s : ConversationState) (occurredAt : Timestamp) (attribution : Attribution)
    (payload : ConversationEventPayload) :
    (reducePayload s occurredAt attribution payload).envelope = s.envelope := by
  cases payload with
  | messageCreated messageId role content =>
    simp only [reducePayload, reduceMessageCreated]
    split
    · split
      · rfl
      · split <;> rfl
    · rfl
  | citationRecordsLinked target records => exact reduceCitationRecordsLinked_envelope s target records
  | approvalProposalCreated proposal => exact reduceApprovalProposalCreated_envelope s _ _ proposal
  | approvalProposalStatusChanged proposalId proposalVersion change =>
    simp only [reducePayload, reduceApprovalProposalStatusChanged]
    split
    · rfl
    · split
      · rfl
      · split <;> rfl
  | _ => exact (reducePayload_frame s occurredAt attribution rfl).1

/-! ### Accepted events -/

structure Continues (s : ConversationState) (event : ConversationEvent) : Prop where
  fresh : s.isProcessed event = false
  conversation : ∀ id ∈ s.conversationId, id = event.conversationId
  revision : event.revision = s.expectedRevision

variable {event : ConversationEvent}

theorem Continues.envelopeError {s : ConversationState}
    (continues : Continues s event) : s.envelopeError event = none := by
  have mismatch : s.conversationId.filter (· ≠ event.conversationId) = none := by
    rw [Option.filter_eq_none_iff]
    intro id given
    simpa using continues.conversation id given
  simp only [ConversationState.envelopeError, mismatch, continues.revision, Nat.lt_irrefl, ↓reduceIte]

theorem reduce_of_continues {s : ConversationState}
    (continues : Continues s event) :
    reduceConversationEvent s event = reducePayload (acceptEnvelope s event) event.occurredAt
      ⟨event.actor, event.source⟩ event.payload := by
  simp only [reduceConversationEvent, continues.fresh, continues.envelopeError, Bool.false_eq_true,
    ↓reduceIte]

theorem reduce_envelope {s : ConversationState} (continues : Continues s event) :
    (reduceConversationEvent s event).envelope = (acceptEnvelope s event).envelope := by
  rw [reduce_of_continues continues, reducePayload_envelope]

/-! ### Contiguous logs -/

structure Contiguous (conversationId : Identifier) (log : List ConversationEvent) : Prop where
  conversation : ∀ event ∈ log, event.conversationId = conversationId
  revisions : log.map ConversationEvent.revision = List.range' 1 log.length
  eventIds : (log.map ConversationEvent.eventId).Nodup
  mutationIds : (log.filterMap ConversationEvent.mutationId).Nodup

namespace Contiguous
variable {conversationId : Identifier} {log tail : List ConversationEvent} {event : ConversationEvent}

theorem left (contiguous : Contiguous conversationId (log ++ tail)) : Contiguous conversationId log where
  conversation := fun event member => contiguous.conversation event (List.mem_append_left _ member)
  revisions := by
    have revisions := contiguous.revisions
    rw [List.map_append, List.length_append, ← List.range'_append_1] at revisions
    exact (List.append_inj revisions (by simp)).1
  eventIds := by
    have ids := contiguous.eventIds
    rw [List.map_append] at ids
    exact (List.nodup_append.mp ids).1
  mutationIds := by
    have ids := contiguous.mutationIds
    rw [List.filterMap_append] at ids
    exact (List.nodup_append.mp ids).1

theorem take (contiguous : Contiguous conversationId log) (k : Nat) :
    Contiguous conversationId (log.take k) := by
  rw [← List.take_append_drop k log] at contiguous
  exact contiguous.left

theorem last_revision (contiguous : Contiguous conversationId (log ++ [event])) :
    event.revision = log.length + 1 := by
  have revisions := congrArg List.getLast? contiguous.revisions
  rw [List.map_append, List.map_singleton, List.getLast?_concat] at revisions
  simpa [List.getLast?_range', Nat.add_comm] using revisions

theorem last_eventId (contiguous : Contiguous conversationId (log ++ [event])) :
    event.eventId ∉ log.map ConversationEvent.eventId := by
  have ids := contiguous.eventIds
  rw [List.map_append, List.map_singleton] at ids
  exact fun member => (List.nodup_append.mp ids).2.2 _ member _ (List.mem_singleton.mpr rfl) rfl

theorem last_mutationId (contiguous : Contiguous conversationId (log ++ [event])) :
    ∀ mutationId ∈ event.mutationId, mutationId ∉ log.filterMap ConversationEvent.mutationId := by
  intro mutationId given member
  have ids := contiguous.mutationIds
  rw [List.filterMap_append] at ids
  have last : mutationId ∈ [event].filterMap ConversationEvent.mutationId :=
    List.mem_filterMap.mpr ⟨event, List.mem_singleton.mpr rfl, given⟩
  exact (List.nodup_append.mp ids).2.2 _ member _ last rfl

end Contiguous

def logEnvelope (conversationId : Identifier) (log : List ConversationEvent) : Envelope where
  conversationId := some conversationId
  revision := log.getLast?.map ConversationEvent.revision
  lastEventId := log.getLast?.map ConversationEvent.eventId
  processedEventIds := log.map ConversationEvent.eventId
  processedMutationIds := log.filterMap ConversationEvent.mutationId
  replayError := none

theorem Contiguous.lastRevision {conversationId : Identifier} {log : List ConversationEvent}
    (contiguous : Contiguous conversationId log) :
    (log.getLast?.map ConversationEvent.revision).getD 0 = log.length := by
  induction log using List.reverseRecOn with
  | nil => rfl
  | append_singleton log event _ =>
    rw [List.getLast?_concat, Option.map_some, Option.getD_some, contiguous.last_revision,
      List.length_append, List.length_singleton]

theorem continues_of_envelope {conversationId : Identifier} {log : List ConversationEvent} {s : ConversationState}
    (contiguous : Contiguous conversationId (log ++ [event]))
    (envelope : s.envelope = logEnvelope conversationId log) : Continues s event where
  fresh := by
    have ids : s.processedEventIds = log.map ConversationEvent.eventId :=
      congrArg Envelope.processedEventIds envelope
    have mutations : s.processedMutationIds = log.filterMap ConversationEvent.mutationId :=
      congrArg Envelope.processedMutationIds envelope
    rw [ConversationState.isProcessed, Bool.or_eq_false_iff, ids, mutations]
    constructor
    · rw [← Bool.not_eq_true, List.contains_iff_mem]
      exact contiguous.last_eventId
    · rw [← Bool.not_eq_true, Option.any_eq_true]
      rintro ⟨mutationId, given, member⟩
      exact contiguous.last_mutationId mutationId given (List.contains_iff_mem.mp member)
  conversation := by
    intro id given
    have same : s.conversationId = some conversationId := congrArg Envelope.conversationId envelope
    rw [same] at given
    rw [← Option.mem_some.mp given, contiguous.conversation event (by simp)]
  revision := by
    have same : s.revision = log.getLast?.map ConversationEvent.revision :=
      congrArg Envelope.revision envelope
    rw [ConversationState.expectedRevision, same, contiguous.left.lastRevision, contiguous.last_revision]

theorem foldEvents_envelope {conversationId : Identifier} {log : List ConversationEvent}
    (contiguous : Contiguous conversationId log) :
    (foldEvents (createInitialConversationState (some conversationId)) log).envelope =
      logEnvelope conversationId log := by
  induction log using List.reverseRecOn with
  | nil => rfl
  | append_singleton log event ih =>
    have before := ih contiguous.left
    have continues := continues_of_envelope contiguous before
    rw [foldEvents_append, foldEvents_cons, foldEvents_nil, reduce_envelope continues]
    have ids := congrArg Envelope.processedEventIds before
    have mutations := congrArg Envelope.processedMutationIds before
    have conversation := congrArg Envelope.conversationId before
    simp only [ConversationState.envelope, logEnvelope] at ids mutations conversation
    simp [ConversationState.envelope, acceptEnvelope, logEnvelope, ids, mutations, conversation,
      List.filterMap_cons]
    cases event.mutationId <;> rfl

end Handrail.Conversation

import Handrail.Conversation.History

/-!
# The projection of any events

Events in any order, repeated or of other conversations, fold to a state whose revision counts what
was taken, whose records have distinct ids, and whose links lead to retained records.
-/

namespace Handrail.Conversation
open Js

/-! ### Taken events -/

theorem continues_of_envelopeError {s : ConversationState} {event : ConversationEvent}
    (fresh : s.isProcessed event = false) (none : s.envelopeError event = none) : Continues s event := by
  unfold ConversationState.envelopeError at none
  split at none
  · cases none
  · rename_i mismatch
    rw [Option.filter_eq_none_iff] at mismatch
    split at none
    · cases none
    · split at none
      · cases none
      · exact ⟨fresh, fun id given => by simpa using mismatch id given, by omega⟩

theorem reduceConversationEvent_cases (s : ConversationState) (event : ConversationEvent) :
    (s.isProcessed event = true ∧ reduceConversationEvent s event = s) ∨
    (s.isProcessed event = false ∧ ∃ error, s.envelopeError event = some error ∧
      reduceConversationEvent s event = { s with replayError := some error }) ∨
    Continues s event := by
  unfold reduceConversationEvent
  cases known : s.isProcessed event with
  | true => exact .inl ⟨rfl, rfl⟩
  | false =>
    cases checked : s.envelopeError event with
    | some error => exact .inr (.inl ⟨rfl, error, rfl, rfl⟩)
    | none => exact .inr (.inr (continues_of_envelopeError known checked))

def takenEvents (s : ConversationState) : List ConversationEvent → List ConversationEvent
  | [] => []
  | event :: rest =>
    let later := takenEvents (reduceConversationEvent s event) rest
    if s.isProcessed event || (s.envelopeError event).isSome then later else event :: later

structure Envelope.Counts (envelope : Envelope) (taken : List ConversationEvent) : Prop where
  processed : envelope.processedEventIds = taken.map ConversationEvent.eventId
  revision : envelope.revision = if taken = [] then none else some taken.length
  eventIds : envelope.processedEventIds.Nodup
  mutationIds : envelope.processedMutationIds.Nodup

theorem initial_counts (conversationId : Option Identifier) :
    (createInitialConversationState conversationId).envelope.Counts [] := by
  constructor <;> simp [createInitialConversationState, ConversationState.envelope]

theorem Envelope.Counts.take {s : ConversationState} {taken : List ConversationEvent} (counts : s.envelope.Counts taken)
    {event : ConversationEvent} (continues : Continues s event) :
    (reduceConversationEvent s event).envelope.Counts (taken ++ [event]) := by
  have fresh := continues.fresh
  simp only [ConversationState.isProcessed, Bool.or_eq_false_iff, List.contains_eq_mem, decide_eq_false_iff_not] at fresh
  obtain ⟨newEvent, newMutation⟩ := fresh
  have revision : event.revision = taken.length + 1 := by
    rw [continues.revision, ConversationState.expectedRevision, show s.revision = _ from counts.revision]
    split
    · rename_i empty
      simp [empty]
    · rfl
  rw [reduce_envelope continues]
  constructor
  · exact (congrArg (· ++ [event.eventId]) counts.processed).trans (by simp)
  · simp [acceptEnvelope, ConversationState.envelope, revision]
  · refine List.nodup_append.mpr ⟨counts.eventIds, by simp, ?_⟩
    rintro id member _ last rfl
    rw [List.mem_singleton.mp last] at member
    exact newEvent member
  · refine List.nodup_append.mpr ⟨counts.mutationIds, ?_, ?_⟩
    · cases event.mutationId <;> simp
    · rintro id member _ last rfl
      rw [Option.mem_toList] at last
      rw [Option.mem_def.mp last, Option.any_some, decide_eq_false_iff_not] at newMutation
      exact newMutation member

theorem foldEvents_counts {s : ConversationState} {taken : List ConversationEvent} (counts : s.envelope.Counts taken)
    (log : List ConversationEvent) : (foldEvents s log).envelope.Counts (taken ++ takenEvents s log) := by
  induction log generalizing s taken with
  | nil => simpa [takenEvents] using counts
  | cons event rest ih =>
    rw [foldEvents_cons, takenEvents]
    rcases reduceConversationEvent_cases s event with ⟨known, same⟩ | ⟨fresh, error, refused, same⟩ | continues
    · simp only [known, Bool.true_or, ↓reduceIte]
      rw [same]
      exact ih counts
    · simp only [fresh, refused, Option.isSome_some, Bool.or_true, ↓reduceIte]
      have kept : (reduceConversationEvent s event).envelope.Counts taken := by
        rw [same]
        exact ⟨counts.processed, counts.revision, counts.eventIds, counts.mutationIds⟩
      exact ih kept
    · simp only [continues.fresh, continues.envelopeError, Option.isSome_none, Bool.or_self, Bool.false_eq_true,
        ↓reduceIte]
      have next := ih (counts.take continues)
      rwa [List.append_assoc] at next

/-! ### The projection -/

structure ConversationState.WellFormed (s : ConversationState) (taken : List ConversationEvent) : Prop where
  processed : s.processedEventIds = taken.map ConversationEvent.eventId
  unrevised : s.revision = none ↔ taken = []
  revision : ∀ r ∈ s.revision, r = s.processedEventIds.length
  eventIds : s.processedEventIds.Nodup
  mutationIds : s.processedMutationIds.Nodup
  messageIds : (s.messages.map MessageRecord.messageId).Nodup
  turnIds : (s.turns.map TurnRecord.turnId).Nodup
  toolCallIds : (s.toolCalls.map ToolCallRecord.toolCallId).Nodup
  proposalIds : (s.approvalProposals.map ApprovalProposalRecord.proposalId).Nodup
  receiptIds : (s.usageReceiptLinks.map UsageReceiptLink.usageReceiptId).Nodup
  sourceIds : (s.citationSources.map fun x => x.record.sourceId).Nodup
  citationIds : (s.citations.map fun x => x.record.citationId).Nodup
  activeTurn : ∀ t ∈ s.activeTurnId, ∃ turn ∈ s.turns, turn.turnId = t ∧ turn.isTerminal = false
  sources : ∀ x ∈ s.citations, ∃ source ∈ s.citationSources, source.record.sourceId = x.record.sourceId
  targets : ∀ x ∈ s.citations, Cited s.messages s.toolCalls x.record.target
  refused : ∀ event error, s.isProcessed event = false → s.envelopeError event = some error →
    reduceConversationEvent s event = { s with replayError := some error }

section
variable [WebPlatform]

theorem wellFormed_of_sound {s : ConversationState} (sound : s.Sound) (placeholders : s.Placeholders)
    {taken : List ConversationEvent} (counts : s.envelope.Counts taken) : s.WellFormed taken where
  processed := counts.processed
  unrevised := by
    rw [show s.revision = _ from counts.revision]
    split <;> simp_all
  revision r given := by
    have length : s.processedEventIds.length = taken.length := by
      rw [show s.processedEventIds = _ from counts.processed, List.length_map]
    rw [show s.revision = _ from counts.revision] at given
    split at given
    · cases given
    · exact (Option.some.inj given).symm.trans length.symm
  eventIds := counts.eventIds
  mutationIds := counts.mutationIds
  messageIds := by
    have ids := sound.attachments.messageIds
    rwa [List.map_map] at ids
  turnIds := sound.turns.turnIds
  toolCallIds := placeholders.toolCallIds
  proposalIds := sound.approvals.proposalIds
  receiptIds := placeholders.receiptIds
  sourceIds := by
    have ids := sound.citations.normal.sourceIds
    rwa [retainedRecords, List.map_map] at ids
  citationIds := by
    have ids := sound.citations.normal.citationIds
    rwa [retainedRecords, List.map_map] at ids
  activeTurn := sound.turns.active
  sources x member := by
    obtain ⟨record, inside, same⟩ := sound.citations.normal.linked x.record (List.mem_map.mpr ⟨x, member, rfl⟩)
    obtain ⟨source, kept, rfl⟩ := List.mem_map.mp inside
    exact ⟨source, kept, same⟩
  targets := sound.citations.cited
  refused event error fresh refused := by
    simp only [reduceConversationEvent, fresh, refused, Bool.false_eq_true, ↓reduceIte, withReplayError]

/-- Any accepted events fold to a well-formed state. -/
theorem projection_wellFormed (conversationId : Option Identifier) {log : List ConversationEvent}
    (accepted : ∀ event ∈ log, Accepted event) :
    (foldEvents (createInitialConversationState conversationId) log).WellFormed
      (takenEvents (createInitialConversationState conversationId) log) := by
  have sound := foldEvents_sound (initial_sound conversationId) (valid_of_accepted accepted)
  have placeholders := foldEvents_placeholders (initial_placeholders conversationId) log
  have counts := foldEvents_counts (initial_counts conversationId) log
  exact wellFormed_of_sound sound placeholders counts

end

/-- A link, the same link again, and an event that leaves out a revision. -/
theorem projection_wellFormed_repeated : ∃ _ : WebPlatform, ∃ log : List ConversationEvent,
    log.length = 3 ∧ (takenEvents (createInitialConversationState none) log).length = 1 ∧
    (foldEvents (createInitialConversationState none) log).WellFormed
      (takenEvents (createInitialConversationState none) log) := by
  let _ := withoutUrls
  obtain ⟨log, accepted, checked⟩ := accepted_of_check [sampleLink 1 "first", sampleLink 1 "first", sampleTitle 3]
    (fun log => log.length == 3 && (takenEvents (createInitialConversationState none) log).length == 1)
    (by decide +kernel)
  simp only [Bool.and_eq_true, beq_iff_eq] at checked
  exact ⟨withoutUrls, log, checked.1, checked.2, projection_wellFormed none accepted⟩

end Handrail.Conversation

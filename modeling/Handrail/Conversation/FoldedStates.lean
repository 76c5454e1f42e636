import Handrail.Conversation.Restore
import Handrail.Conversation.ValidStates
import Handrail.JsonSize

/-!
# Folded states pass their validation

A state that accepted events lead to, written as JSON and read back, passes its validation at every
event exactly when every event keeps the two rules that the reducer does not enforce.
-/

namespace Handrail.Conversation
open Js

/-! ### Sound records after a round trip -/

theorem wellFormed_roundTrip_fields (o : JsonObject) (intact : Codec.jsonObject.Intact o) :
    Codec.jsonObject.Intact (o.map .roundTrip) := by
  have same : (Json.obj o.fields).roundTrip.wellFormed = true := by
    rw [Json.wellFormed_roundTrip]
    exact intact
  rwa [Json.roundTrip_obj] at same

theorem ReviewedArguments.Valid.roundTrip {a : ReviewedArguments} (valid : a.Valid) :
    (ReviewedArguments.codec.map .roundTrip a).Valid := by
  cases a with
  | opaqueReference argumentRef => exact valid
  | redactedJson value =>
    obtain ⟨plain, short⟩ := validateBoundedObject_eq_ok.mp valid
    obtain ⟨_, distinct, accepted⟩ := validateObject_eq_ok.mp plain
    have names : Json.keys (value.map .roundTrip).fields = Json.keys value.fields := by
      simp [JsonObject.map, Json.keys, Function.comp_def]
    have written : Json.obj (value.map .roundTrip).fields = (Json.obj value.fields).roundTrip :=
      (Json.roundTrip_obj value.fields).symm
    show (ReviewedArguments.redactedJson (value.map .roundTrip)).Valid
    refine validateBoundedObject_eq_ok.mpr ⟨validateObject_eq_ok.mpr ⟨rfl, ?_, ?_⟩, ?_⟩
    · rw [names]
      exact distinct
    · rw [written, validateJson_roundTrip]
      exact accepted
    · rw [written, stringify_roundTrip]
      exact short

theorem ToolResultPart.intact_roundTrip {content : List ToolResultPart}
    (intact : ToolResultPart.codec.list.Intact content) :
    ToolResultPart.codec.list.Intact (ToolResultPart.codec.list.map .roundTrip content) := by
  intro part member
  obtain ⟨before, inside, rfl⟩ := List.mem_map.mp member
  have whole := intact before inside
  cases before with
  | text content => exact whole
  | json value => exact ⟨(Json.wellFormed_roundTrip value).trans whole.1, trivial⟩

section
variable [WebPlatform]

theorem ResultRecords.roundTrip {toolCallId : Identifier} {records : CitationRecordSet}
    (valid : ResultRecords toolCallId records) : ResultRecords toolCallId (CitationRecordSet.codec.map .roundTrip records) where
  normal := valid.normal.roundTrip
  limits := CitationRecordSet.WithinLimits.roundTrip.mpr valid.limits
  linked := fun none => valid.linked (List.map_eq_nil_iff.mp none)
  targets c member := by
    obtain ⟨before, inside, rfl⟩ := List.mem_map.mp member
    rw [Citation.map_target]
    exact valid.targets before inside

theorem ToolCallRecord.Sound.roundTrip {t : ToolCallRecord} (sound : t.Sound) :
    (ToolCallRecord.codec.map .roundTrip t).Sound := by
  rw [ToolCallRecord.map_eq]
  refine ⟨fun a given => ?_, fun r given => ?_, fun r given records inside => ?_⟩
  · obtain ⟨before, kept, rfl⟩ := Option.map_eq_some_iff.mp given
    exact wellFormed_roundTrip_fields before (sound.arguments before kept)
  · obtain ⟨before, kept, rfl⟩ := Option.map_eq_some_iff.mp given
    exact ToolResultPart.intact_roundTrip (sound.content before kept)
  · obtain ⟨before, kept, rfl⟩ := Option.map_eq_some_iff.mp given
    obtain ⟨cited, known, rfl⟩ := Option.map_eq_some_iff.mp inside
    exact (sound.records before kept cited known).roundTrip

variable {s : ConversationState}

omit [WebPlatform] in
theorem retainedRecords_roundTrip (sources : List RetainedSource) (citations : List RetainedCitation) :
    retainedRecords (sources.map (Retained.map CitationSource.plain .roundTrip))
        (citations.map (Retained.map Citation.plain .roundTrip)) =
      CitationRecordSet.codec.map .roundTrip (retainedRecords sources citations) := by
  simp only [retainedRecords, List.map_map, Function.comp_def, Retained.map_record]
  refine (congrArg₂ CitationRecordSet.mk ?_ ?_ : _ = CitationRecordSet.mk _ _)
  · exact (List.map_map ..).symm
  · exact (List.map_map ..).symm

theorem ConversationState.Sound.roundTrip (sound : s.Sound) : (s.map .roundTrip).Sound := by
  rw [ConversationState.map_eq]
  refine ⟨sound.attachments, sound.turns, ?_, ⟨?_, ?_, ?_, ?_⟩, ⟨?_, ?_, ?_⟩,
    wellFormed_roundTrip_fields s.metadata sound.metadata⟩
  · rw [List.forall_mem_map]
    exact fun t member => (sound.toolCalls t member).roundTrip
  · rw [List.forall_mem_map]
    intro x member
    rw [Retained.map_record, CitationSource.codec.encode_roundTrip, ← sound.citations.sourcesWritten x member]
    rfl
  · rw [List.forall_mem_map]
    intro x member
    rw [Retained.map_record, Citation.codec.encode_roundTrip, ← sound.citations.citationsWritten x member]
    rfl
  · rw [retainedRecords_roundTrip]
    exact sound.citations.normal.roundTrip
  · rw [List.forall_mem_map]
    intro x member
    rw [Retained.map_record, Citation.map_target]
    have cited := sound.citations.cited x member
    cases target : x.record.target with
    | assistantMessage messageId => rwa [target] at cited
    | toolResult toolCallId =>
      rw [target] at cited
      obtain ⟨t, inside, same⟩ := cited
      exact ⟨_, List.mem_map_of_mem inside, same⟩
  · rw [List.map_map]
    exact sound.approvals.proposalIds
  · rw [List.forall_mem_map]
    intro p member
    rw [ApprovalProposalRecord.map_eq]
    have whole := sound.approvals.each p member
    exact ⟨whole.reviewed.roundTrip, whole.expires, whole.creator, whole.pending, whole.decided,
      whole.decisionReason, whole.failureReason, whole.failed⟩
  · rw [List.forall_mem_map]
    intro p member
    obtain ⟨t, inside, toolCallId, turnId, name, required⟩ := sound.approvals.requested p member
    exact ⟨_, List.mem_map_of_mem inside, toolCallId, turnId, by rw [ToolCallRecord.map_eq]; exact name,
      by rw [ToolCallRecord.map_eq]; exact required⟩

omit [WebPlatform] in
theorem fits_roundTrip : (s.map .roundTrip).Fits ↔ s.Fits := by
  rw [ConversationState.map_eq]
  constructor
  · rintro ⟨records, times⟩
    simp only [retainedRecords_roundTrip, List.forall_mem_map] at records times
    exact ⟨CitationRecordSet.WithinLimits.roundTrip.mp records, times⟩
  · rintro ⟨records, times⟩
    refine ⟨?_, ?_⟩
    · simp only [retainedRecords_roundTrip]
      exact CitationRecordSet.WithinLimits.roundTrip.mpr records
    · simp only [List.forall_mem_map]
      exact times

end

/-! ### Fewer records -/

theorem stringify_records (r : CitationRecordSet) :
    (stringify (CitationRecordSet.codec.encode r)).units =
      (123 :: quoteUnits (js "sources") ++ [58] ++
        textUnits (.arr (r.sources.map CitationSource.codec.encode)) ++ [44] ++ quoteUnits (js "citations")) ++
        58 :: (91 :: itemUnits true (r.citations.map Citation.codec.encode) ++ 125 :: []) := by
  show textUnits (.obj [(js "sources", .arr (r.sources.map CitationSource.codec.encode)),
    (js "citations", .arr (r.citations.map Citation.codec.encode))]) = _
  simp [textUnits, fieldUnits]

theorem withinLimits_of_fewer {r fewer : CitationRecordSet} (limits : r.WithinLimits)
    (sources : fewer.sources = r.sources) (citations : fewer.citations.Sublist r.citations) :
    fewer.WithinLimits := by
  refine ⟨sources ▸ limits.sources, citations.length_le.trans limits.citations, ?_⟩
  have shorter := utf8Bytes_itemUnits_le (citations.map Citation.codec.encode) true
  have bytes := limits.bytes
  rw [utf8ByteLength, stringify_records, utf8Bytes_append_ascii (by decide), utf8Bytes_cons_ascii (by decide),
    utf8Bytes_append_ascii (by decide), utf8Bytes_cons_ascii (by decide)] at bytes ⊢
  rw [sources]
  omega

/-! ### One event -/

theorem mergeRecords_records {α : Type} {c : Codec α} {identity : α → JsString} {retained out : List (Retained c)}
    {records : List α} (distinct : (records.map identity).Nodup)
    (merges : mergeRecords c identity retained records = some out) :
    out.map Retained.record = retained.map Retained.record ++
      records.filter fun a => !retained.any fun x => identity x.record == identity a := by
  induction records generalizing retained with
  | nil =>
    obtain rfl := Option.some.inj merges
    simp
  | cons current rest ih =>
    rw [List.map_cons, List.nodup_cons] at distinct
    unfold mergeRecords at merges
    split at merges
    · rename_i existing found
      split at merges
      · cases merges
      · have known : (retained.any fun x => identity x.record == identity current) = true :=
          List.any_eq_true.mpr ⟨existing, List.mem_of_find?_eq_some found, by simpa using List.find?_some found⟩
        rw [ih distinct.2 merges, List.filter_cons, known]
        simp
    · rename_i fresh
      have unknown : (retained.any fun x => identity x.record == identity current) = false := by
        rw [List.any_eq_false]
        exact List.find?_eq_none.mp fresh
      rw [ih distinct.2 merges, List.filter_cons, unknown]
      have same : (rest.filter fun a => !(retained ++ [Retained.write c current]).any fun x =>
          identity x.record == identity a) =
          rest.filter fun a => !retained.any fun x => identity x.record == identity a := by
        refine List.filter_congr fun a member => ?_
        have other : identity current ≠ identity a := fun same => distinct.1 (same ▸ List.mem_map_of_mem member)
        simp [Retained.write, other]
      rw [same]
      simp [Retained.write]

namespace ConversationState

def withRecords (s : ConversationState) (records : CitationRecordSet) : CitationRecordSet where
  sources := s.citationSources.map Retained.record ++
    records.sources.filter fun a => !s.citationSources.any fun x => x.record.sourceId == a.sourceId
  citations := s.citations.map Retained.record ++
    records.citations.filter fun a => !s.citations.any fun x => x.record.citationId == a.citationId

def takesTarget (s : ConversationState) : CitationTarget → Bool
  | .assistantMessage messageId =>
    (s.findMessage messageId.text).all fun message => message.role.all (· == .assistant)
  | .toolResult turnId toolCallId => (s.findToolCall toolCallId).all fun toolCall => toolCall.turnId == turnId

/-- The change follows the current status and version of a proposal, at a time that fits its expiry. -/
def takesChange (current : ApprovalProposalRecord) (occurredAt : Timestamp) (proposalVersion : PositiveSafeInteger)
    (change : ApprovalChange) : Bool :=
  proposalVersion.value == current.proposalVersion.value + 1 &&
    isLegalApprovalProposalTransition current.status change.status &&
    !(change.status == .expired && decide (occurredAt.time < current.expiresAt.time)) &&
    !((change.status == .confirmed || change.status == .executing) &&
      decide (current.expiresAt.time ≤ occurredAt.time))

end ConversationState

/-- The rule that an event has to keep: a link that is taken leaves no more records than one record
set may have, and a change of a proposal that is taken is not dated before the proposal. -/
def StepFits (s : ConversationState) (event : ConversationEvent) : Prop :=
  match event.payload with
  | .citationRecordsLinked target records =>
    (mergeCitationRecords s records).isSome = true → s.takesTarget target = true → (s.withRecords records).WithinLimits
  | .approvalProposalStatusChanged proposalId proposalVersion change =>
    ∀ current ∈ s.findProposal proposalId,
      ConversationState.takesChange current event.occurredAt proposalVersion change = true →
        current.createdAt.time ≤ event.occurredAt.time
  | _ => True

/-- Every event of a log keeps its rule in the fold from `s`. -/
def StepsFit : ConversationState → List ConversationEvent → Prop
  | _, [] => True
  | s, event :: rest => StepFits s event ∧ StepsFit (reduceConversationEvent s event) rest

theorem Fits.congr {s t : ConversationState} (same : s.ruled = t.ruled) : s.Fits ↔ t.Fits := by
  obtain ⟨sources, citations, proposals⟩ : s.citationSources = t.citationSources ∧ s.citations = t.citations ∧
      s.approvalProposals = t.approvalProposals := by simpa [ConversationState.ruled] using same
  constructor
  · rintro ⟨records, times⟩
    exact ⟨by rwa [sources, citations] at records, by rwa [proposals] at times⟩
  · rintro ⟨records, times⟩
    exact ⟨by rwa [sources, citations], by rwa [proposals]⟩

theorem reduceMessageCreated_fits {s : ConversationState} (fits : s.Fits) (occurredAt : Timestamp)
    (attribution : Attribution) (messageId : Identifier) (role : MessageRole) (content : List JsString) :
    (reduceMessageCreated s occurredAt attribution messageId role content).Fits := by
  unfold reduceMessageCreated
  split
  · split
    · exact fits
    · simp only
      split
      · exact ⟨fits.records, fits.times⟩
      · refine ⟨withinLimits_of_fewer fits.records rfl ?_, fits.times⟩
        exact List.filter_sublist.map _
  · exact ⟨fits.records, fits.times⟩

section
variable [WebPlatform] {s : ConversationState}

omit [WebPlatform] in
theorem mergeCitationRecords_ruled {merged : ConversationState} {records : CitationRecordSet}
    (distinctSources : (records.sources.map CitationSource.sourceId).Nodup)
    (distinctCitations : (records.citations.map Citation.citationId).Nodup)
    (merges : mergeCitationRecords s records = some merged) :
    retainedRecords merged.citationSources merged.citations = s.withRecords records ∧
      merged.approvalProposals = s.approvalProposals := by
  simp only [mergeCitationRecords, Option.bind_eq_bind, Option.bind_eq_some_iff, Option.some.injEq] at merges
  obtain ⟨sources, mergedSources, citations, mergedCitations, rfl⟩ := merges
  refine ⟨?_, rfl⟩
  simp only [retainedRecords, ConversationState.withRecords, mergeRecords_records distinctSources mergedSources,
    mergeRecords_records distinctCitations mergedCitations]

theorem reduceCitationRecordsLinked_fits (fits : s.Fits) {target : CitationTarget} {records : CitationRecordSet}
    (normal : records.Normal) : (reduceCitationRecordsLinked s target records).Fits ↔
      ((mergeCitationRecords s records).isSome = true → s.takesTarget target = true →
        (s.withRecords records).WithinLimits) := by
  unfold reduceCitationRecordsLinked
  split
  · rename_i none
    simp [none, fits]
  · rename_i merged merges
    obtain ⟨records', proposals⟩ := mergeCitationRecords_ruled normal.sourceIds normal.citationIds merges
    have taken {t : ConversationState} (same : t.ruled = merged.ruled) : t.Fits ↔ (s.withRecords records).WithinLimits := by
      rw [Fits.congr same, ← records']
      exact ⟨fun after => after.records, fun limits => ⟨limits, proposals ▸ fits.times⟩⟩
    simp only [merges, Option.isSome_some, forall_const]
    cases target with
    | assistantMessage messageId =>
      simp only [ConversationState.takesTarget]
      split
      · rename_i message found
        rw [found]
        split
        · rename_i other
          have refused : message.role.all (· == .assistant) = false := by
            cases h : message.role <;> simp_all
          simp [refused, fits]
        · rename_i assistant
          have accepted : message.role.all (· == .assistant) = true := by
            cases h : message.role <;> simp_all
          simp [accepted, taken rfl]
      · rename_i none
        simp [none, taken (t := appendMessage merged _) rfl]
    | toolResult turnId toolCallId =>
      simp only [ConversationState.takesTarget]
      split
      · rename_i toolCall found
        rw [found]
        split
        · rename_i other
          simp [other, fits]
        · rename_i same
          simp [not_not.mp same, taken rfl]
      · rename_i none
        simp [none, taken (t := appendToolCall merged _) rfl]

omit [WebPlatform] in
theorem reduceApprovalProposalCreated_fits (fits : s.Fits) (occurredAt : Timestamp) (attribution : Attribution)
    (proposal : ApprovalProposal) : (reduceApprovalProposalCreated s occurredAt attribution proposal).Fits := by
  unfold reduceApprovalProposalCreated
  split
  · exact fits
  · split
    · exact fits
    · split
      · exact fits
      · simp only
        refine ⟨?_, ?_⟩
        · split <;> exact fits.records
        · intro p member
          rcases List.mem_append.mp member with old | new
          · exact fits.times p old
          · rw [List.mem_singleton.mp new]

omit [WebPlatform] in
theorem reduceApprovalProposalStatusChanged_fits (fits : s.Fits) (occurredAt : Timestamp)
    (attribution : Attribution) (proposalId : Identifier) (proposalVersion : PositiveSafeInteger)
    (change : ApprovalChange) :
    (reduceApprovalProposalStatusChanged s occurredAt attribution proposalId proposalVersion change).Fits ↔
      ∀ current ∈ s.findProposal proposalId,
        ConversationState.takesChange current occurredAt proposalVersion change = true →
          current.createdAt.time ≤ occurredAt.time := by
  unfold reduceApprovalProposalStatusChanged
  split
  · rename_i none
    simp [none, fits]
  · rename_i current found
    simp only [found, Option.mem_some_iff, forall_eq']
    split
    · rename_i refused
      have untaken : ConversationState.takesChange current occurredAt proposalVersion change = false := by
        simp only [ConversationState.takesChange]
        rcases refused with version | illegal
        · simp [version]
        · simp only [Bool.not_eq_true'] at illegal
          simp [illegal]
      simp [untaken, fits]
    · rename_i allowed
      split
      · rename_i refused
        have untaken : ConversationState.takesChange current occurredAt proposalVersion change = false := by
          simp only [ConversationState.takesChange]
          rcases refused with ⟨expired, early⟩ | ⟨confirmed, late⟩
          · simp [expired, early]
          · rcases confirmed with status | status <;> simp [status, late]
        simp [untaken, fits]
      · rename_i timely
        have taken : ConversationState.takesChange current occurredAt proposalVersion change = true := by
          simp only [not_or, not_not, Bool.not_eq_true', Bool.not_eq_false] at allowed
          simp only [not_or, not_and] at timely
          simp only [ConversationState.takesChange, Bool.and_eq_true, Bool.not_eq_true', beq_iff_eq,
            Bool.and_eq_false_iff, decide_eq_false_iff_not, Bool.or_eq_false_iff]
          refine ⟨⟨⟨allowed.1, allowed.2⟩, ?_⟩, ?_⟩
          · by_cases expired : change.status = .expired
            · exact .inr (timely.1 expired)
            · exact .inl (by simpa using expired)
          · by_cases confirmed : change.status = .confirmed ∨ change.status = .executing
            · exact .inr (timely.2 confirmed)
            · exact .inl (by simpa [not_or] using confirmed)
        simp only [taken, forall_const]
        have times : (changedProposal current occurredAt attribution proposalVersion change).createdAt = current.createdAt ∧
            (changedProposal current occurredAt attribution proposalVersion change).updatedAt = occurredAt := by
          cases change <;> exact ⟨rfl, rfl⟩
        constructor
        · intro after
          have order := after.times (changedProposal current occurredAt attribution proposalVersion change)
            (mem_replaceFirst_self found)
          rwa [times.1, times.2] at order
        · intro order
          refine ⟨fits.records, forall_replaceFirst fits.times ?_⟩
          rwa [times.1, times.2]

theorem reduce_fits (fits : s.Fits) {event : ConversationEvent} (valid : event.Valid)
    (continues : Continues s event) : (reduceConversationEvent s event).Fits ↔ StepFits s event := by
  rw [reduce_of_continues continues]
  have fits' : (acceptEnvelope s event).Fits := ⟨fits.records, fits.times⟩
  have payloadValid := valid.payload
  simp only [StepFits]
  cases h : event.payload with
  | messageCreated messageId role content =>
    simp only [iff_true]
    exact reduceMessageCreated_fits fits' _ _ _ _ _
  | citationRecordsLinked target records =>
    rw [h] at payloadValid
    have step : (reduceCitationRecordsLinked (acceptEnvelope s event) target records).Fits ↔ _ :=
      reduceCitationRecordsLinked_fits fits' payloadValid.1
    have merges : (mergeCitationRecords (acceptEnvelope s event) records).isSome = (mergeCitationRecords s records).isSome := by
      simp only [mergeCitationRecords, acceptEnvelope]
      cases mergeRecords CitationSource.codec CitationSource.sourceId s.citationSources records.sources with
      | none => rfl
      | some sources =>
        cases mergeRecords Citation.codec Citation.citationId s.citations records.citations <;> rfl
    rw [merges] at step
    exact step
  | approvalProposalCreated proposal =>
    simp only [iff_true]
    exact reduceApprovalProposalCreated_fits fits' _ _ _
  | approvalProposalStatusChanged proposalId proposalVersion change =>
    exact reduceApprovalProposalStatusChanged_fits fits' _ _ _ _ _
  | _ =>
    simp only [iff_true]
    exact (Fits.congr (reducePayload_frame _ _ _ rfl).2).mpr fits'

/-! ### The fold -/

omit [WebPlatform] in
theorem initial_fits (conversationId : Option Identifier) : (createInitialConversationState conversationId).Fits := by
  refine ⟨⟨Nat.zero_le _, Nat.zero_le _, ?_⟩, by simp [createInitialConversationState]⟩
  show utf8ByteLength (stringify (.object [("sources", .arr []), ("citations", .arr [])])) ≤ _
  decide +kernel

/-- Every state along a contiguous log keeps the two rules exactly when every event keeps its own. -/
theorem foldEvents_fits {conversationId : Identifier} {log tail : List ConversationEvent}
    (valid : ∀ event ∈ log ++ tail, event.Valid) (contiguous : Contiguous conversationId (log ++ tail))
    (fits : (foldEvents (createInitialConversationState (some conversationId)) log).Fits) :
    (∀ k ≤ tail.length, (foldEvents (createInitialConversationState (some conversationId))
        (log ++ tail.take k)).Fits) ↔
      StepsFit (foldEvents (createInitialConversationState (some conversationId)) log) tail := by
  induction tail generalizing log with
  | nil => simp [StepsFit, fits]
  | cons event rest ih =>
    have whole : log ++ event :: rest = log ++ [event] ++ rest := by simp
    have head : Contiguous conversationId (log ++ [event]) := by
      rw [whole] at contiguous
      exact contiguous.left
    have step := reduce_fits fits (valid event (by simp)) (continues_of_envelope head (foldEvents_envelope head.left))
    have next : reduceConversationEvent (foldEvents (createInitialConversationState (some conversationId)) log) event =
        foldEvents (createInitialConversationState (some conversationId)) (log ++ [event]) := by
      rw [foldEvents_append, foldEvents_cons, foldEvents_nil]
    rw [next] at step
    rw [whole] at valid contiguous
    rw [StepsFit, next, ← step]
    constructor
    · intro each
      have after := each 1 (by simp)
      refine ⟨by simpa using after, (ih valid contiguous (by simpa using after)).mp fun k inside => ?_⟩
      have later := each (k + 1) (by simpa using inside)
      simpa using later
    · rintro ⟨after, steps⟩ k inside
      cases k with
      | zero => simpa using fits
      | succ k =>
        have later := (ih valid contiguous after).mpr steps k (by simpa using inside)
        simpa using later

/-- The checkpoint revision of a log's first `k` events. -/
def revisionOf (k : Nat) : Option Nat := if k = 0 then none else some k

omit [WebPlatform] in
theorem Contiguous.revisionOf_take {conversationId : Identifier} {log : List ConversationEvent}
    (contiguous : Contiguous conversationId log) {k : Nat} (inside : k ≤ log.length) :
    (log.take k).getLast?.map ConversationEvent.revision = revisionOf k := by
  have length : (log.take k).length = k := by simpa using inside
  have last := (contiguous.take k).lastRevision
  rw [length] at last
  unfold revisionOf
  split
  · rename_i zero
    simp [zero]
  · rename_i positive
    cases h : (log.take k).getLast?.map ConversationEvent.revision with
    | none =>
      rw [h] at last
      exact (positive last.symm).elim
    | some revision =>
      rw [h] at last
      exact congrArg some last

/-- Along a contiguous log of accepted events every folded state is taken back from its JSON exactly
when every event keeps the rule of the validation that the reducer does not enforce. -/
theorem folded_states_validate {conversationId : Identifier} {log : List ConversationEvent}
    (accepted : ∀ event ∈ log, Accepted event) (contiguous : Contiguous conversationId log) :
    (∀ k ≤ log.length, isConversationState
        (foldEvents (createInitialConversationState (some conversationId)) (log.take k)).toJson.roundTrip
        (some conversationId.text) (revisionOf k) = .ok ()) ↔
      StepsFit (createInitialConversationState (some conversationId)) log := by
  have valid := valid_of_accepted accepted
  have run := @foldEvents_fits _ conversationId [] log valid contiguous (initial_fits _)
  simp only [List.nil_append, foldEvents_nil] at run
  rw [← run]
  refine forall₂_congr fun k inside => ?_
  have head : ∀ event ∈ log.take k, event.Valid := fun event member => valid event (List.mem_of_mem_take member)
  have sound := foldEvents_sound (initial_sound (some conversationId)) head
  have written : (foldEvents (createInitialConversationState (some conversationId)) (log.take k)).toJson.roundTrip =
      ((foldEvents (createInitialConversationState (some conversationId)) (log.take k)).map .roundTrip).toJson :=
    (ConversationState.codec.encode_roundTrip _).symm
  have envelope := foldEvents_envelope (contiguous.take k)
  rw [written, ← contiguous.revisionOf_take inside,
    isConversationState_encode (contiguous.take k) sound.roundTrip (by rw [map_envelope, envelope]), fits_roundTrip]

end

instance (r : CitationRecordSet) : Decidable r.WithinLimits :=
  decidable_of_iff (_ ∧ _ ∧ _) ⟨fun ⟨sources, citations, bytes⟩ => ⟨sources, citations, bytes⟩,
    fun ⟨sources, citations, bytes⟩ => ⟨sources, citations, bytes⟩⟩

instance (s : ConversationState) (event : ConversationEvent) : Decidable (StepFits s event) := by
  unfold StepFits
  cases event.payload <;> first
    | exact .isTrue trivial
    | exact inferInstanceAs (Decidable (_ → _ → _))
    | exact inferInstanceAs (Decidable (∀ current ∈ _, _ → _))

instance StepsFit.decidable : (s : ConversationState) → (log : List ConversationEvent) → Decidable (StepsFit s log)
  | _, [] => .isTrue trivial
  | s, event :: rest =>
    have := StepsFit.decidable (reduceConversationEvent s event) rest
    inferInstanceAs (Decidable (_ ∧ _))

/-- An event of `sampleConversationId` at a day of January 2024. -/
def sampleEventOn (revision day : Nat) (payload : List (String × Json)) : Json :=
  Json.object [("version", .num (.ofNat 1)),
    ("event_id", .str (js "event-" ++ decimal revision)), ("conversation_id", .str (js "conversation")),
    ("revision", .num (.ofNat revision)), ("occurred_at", .str (js "2024-01-0" ++ decimal day ++ js "T00:00:00Z")),
    ("actor", Json.object [("type", .str (js "system"))]),
    ("source", Json.object [("type", .str (js "runtime"))]),
    ("payload", Json.object payload)]

/-- A proposal that is created on the third of January and rejected on another day. -/
def sampleRejection (day : Nat) : List Json := [
  sampleEventOn 1 1 [("type", .str (js "tool_call.requested")), ("turn_id", .str (js "turn")),
    ("tool_call_id", .str (js "call")), ("name", .str (js "send")), ("arguments", Json.object [])],
  sampleEventOn 2 3 [("type", .str (js "approval.proposal_created")), ("proposal_id", .str (js "proposal")),
    ("turn_id", .str (js "turn")), ("tool_call_id", .str (js "call")), ("tool_name", .str (js "send")),
    ("status", .str (js "pending")), ("proposal_version", .num (.ofNat 1)),
    ("reviewed_arguments", Json.object [("type", .str (js "opaque_reference")), ("argument_ref", .str (js "ref"))]),
    ("expires_at", .str (js "2024-01-05T00:00:00Z"))],
  sampleEventOn 3 day [("type", .str (js "approval.proposal_status_changed")), ("proposal_id", .str (js "proposal")),
    ("proposal_version", .num (.ofNat 2)), ("status", .str (js "rejected"))]]

/-- A linked citation, and a proposal that is rejected in time. -/
theorem folded_states_validate_decision : ∃ _ : WebPlatform, ∃ log : List ConversationEvent,
    (foldEvents (createInitialConversationState (some sampleConversationId)) log).citations.length = 1 ∧
    (foldEvents (createInitialConversationState (some sampleConversationId)) log).approvalProposals.map
      ApprovalProposalRecord.status = [.rejected] ∧
    ∀ k ≤ log.length, isConversationState
      (foldEvents (createInitialConversationState (some sampleConversationId)) (log.take k)).toJson.roundTrip
      (some sampleConversationId.text) (revisionOf k) = .ok () := by
  let _ := withoutUrls
  obtain ⟨log, accepted, checked⟩ := accepted_of_check (sampleRejection 4 ++ [sampleLink 4 "first"])
    (fun log =>
      let state := foldEvents (createInitialConversationState (some sampleConversationId)) log
      state.citations.length == 1 && state.approvalProposals.map ApprovalProposalRecord.status == [.rejected] &&
        decide (Contiguous sampleConversationId log) &&
        decide (StepsFit (createInitialConversationState (some sampleConversationId)) log)) (by decide +kernel)
  simp only [Bool.and_eq_true, beq_iff_eq, decide_eq_true_eq] at checked
  obtain ⟨⟨⟨linked, rejected⟩, contiguous⟩, steps⟩ := checked
  exact ⟨withoutUrls, log, linked, rejected, (folded_states_validate accepted contiguous).mpr steps⟩

/-- The reducer takes the rejection and the validation refuses the state that it leaves. -/
theorem backdated_rejection_refused : ∃ _ : WebPlatform, ∃ log : List ConversationEvent,
    (∀ event ∈ log, Accepted event) ∧ Contiguous sampleConversationId log ∧
    isConversationState (foldEvents (createInitialConversationState (some sampleConversationId)) log).toJson.roundTrip
      (some sampleConversationId.text) (revisionOf log.length) = .error .refused := by
  let _ := withoutUrls
  obtain ⟨log, accepted, checked⟩ := accepted_of_check (sampleRejection 2)
    (fun log => decide (Contiguous sampleConversationId log) && decide (isConversationState
      (foldEvents (createInitialConversationState (some sampleConversationId)) log).toJson.roundTrip
        (some sampleConversationId.text) (revisionOf log.length) = .error .refused)) (by decide +kernel)
  simp only [Bool.and_eq_true, decide_eq_true_eq] at checked
  exact ⟨withoutUrls, log, accepted, checked.1, checked.2⟩

end Handrail.Conversation

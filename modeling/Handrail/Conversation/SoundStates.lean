import Handrail.Conversation.Invariants
import Handrail.Conversation.Log

/-!
# Sound states

Every accepted event keeps a state sound, whatever the order of the events.
-/

namespace Handrail.Conversation
open Js

section
variable [WebPlatform]

structure ConversationState.Sound (s : ConversationState) : Prop where
  attachments : AttachmentsAgree (s.messages.map MessageRecord.holder) s.attachments
  turns : TurnsSound s.turns s.activeTurnId
  toolCalls : ∀ t ∈ s.toolCalls, t.Sound
  citations : CitationsSound s.messages s.toolCalls s.citationSources s.citations
  approvals : ApprovalsSound s.toolCalls s.approvalProposals
  metadata : Codec.jsonObject.Intact s.metadata

theorem initial_sound (conversationId : Option Identifier) :
    (createInitialConversationState conversationId).Sound where
  attachments := by constructor <;> simp [createInitialConversationState]
  turns := by constructor <;> simp [createInitialConversationState]
  toolCalls := by simp [createInitialConversationState]
  citations := {
    sourcesWritten := by simp [createInitialConversationState]
    citationsWritten := by simp [createInitialConversationState]
    normal := by constructor <;> simp [retainedRecords, createInitialConversationState]
    cited := by simp [createInitialConversationState] }
  approvals := by constructor <;> simp [createInitialConversationState]
  metadata := show Json.wellFormed (.obj []) = true from rfl

/-! ### Messages -/

variable {s : ConversationState}

theorem appendMessage_sound (sound : s.Sound) {message : MessageRecord}
    (none : s.findMessage message.messageId.text = none) (bare : message.attachments = []) :
    (appendMessage s message).Sound where
  attachments := by
    have added := sound.attachments.add_message (fresh_of_find none)
    simpa [appendMessage, MessageRecord.holder, bare] using added
  turns := sound.turns
  toolCalls := sound.toolCalls
  citations := sound.citations.transfer fun _ _ cited => cited.append
  approvals := sound.approvals
  metadata := sound.metadata

theorem updateMessage_agree (sound : s.Sound) {current message : MessageRecord}
    (found : s.findMessage message.messageId.text = some current) (kept : message.attachments = current.attachments) :
    AttachmentsAgree ((updateMessage s message).messages.map MessageRecord.holder) s.attachments := by
  have id := identifier_of_find found
  rw [updateMessage, map_replaceFirst found (by rw [MessageRecord.holder, MessageRecord.holder, id, kept])]
  exact sound.attachments

theorem updateMessage_sound (sound : s.Sound) {current message : MessageRecord}
    (found : s.findMessage message.messageId.text = some current) (kept : message.attachments = current.attachments)
    (role : current.role = none ∨ current.role = some .assistant →
      message.role = none ∨ message.role = some .assistant) : (updateMessage s message).Sound where
  attachments := updateMessage_agree sound found kept
  turns := sound.turns
  toolCalls := sound.toolCalls
  citations := sound.citations.transfer fun _ _ cited => cited_replace found rfl cited fun _ => role
  approvals := sound.approvals
  metadata := sound.metadata

theorem reduceMessageCreated_sound (sound : s.Sound) (occurredAt : Timestamp) (attribution : Attribution)
    (messageId : Identifier) (role : MessageRole) (content : List JsString) :
    (reduceMessageCreated s occurredAt attribution messageId role content).Sound := by
  unfold reduceMessageCreated
  split
  · rename_i current found
    obtain rfl := identifier_of_find found
    split
    · exact sound
    · simp only
      split
      · rename_i assistant
        exact updateMessage_sound sound found rfl fun _ => .inr (congrArg some assistant)
      · -- The citations of the message go with its role.
        exact {
          attachments := updateMessage_agree sound found rfl
          turns := sound.turns
          toolCalls := sound.toolCalls
          citations := (sound.citations.filter _).transfer fun x member cited =>
            cited_replace found rfl cited fun target => by
              have other := (List.mem_filter.mp member).2
              exact ((of_decide_eq_true other) target).elim
          approvals := sound.approvals
          metadata := sound.metadata }
  · rename_i none
    exact appendMessage_sound sound none rfl

theorem reduceMessageTextAppended_sound (sound : s.Sound) (occurredAt : Timestamp) (attribution : Attribution)
    (turnId messageId : Identifier) (text : JsString) :
    (reduceMessageTextAppended s occurredAt attribution turnId messageId text).Sound := by
  unfold reduceMessageTextAppended
  split
  · rename_i current found
    obtain rfl := identifier_of_find found
    split
    · exact sound
    · exact updateMessage_sound sound found rfl fun _ => .inr rfl
  · rename_i none
    exact appendMessage_sound sound none rfl

/-! ### Attachments -/

theorem reduceMessageAttachmentReferenced_sound (sound : s.Sound) (occurredAt : Timestamp)
    (attribution : Attribution) (messageId : Identifier) (reference : AttachmentReference)
    (valid : validateAttachmentReference (some (AttachmentReference.codec.encode reference)) = .ok reference) :
    (reduceMessageAttachmentReferenced s occurredAt attribution messageId reference).Sound := by
  unfold reduceMessageAttachmentReferenced
  simp only
  generalize recorded : AttachmentRecord.mk messageId reference.attachmentId reference occurredAt attribution = r
  obtain rfl : r.messageId = messageId := by rw [← recorded]
  obtain rfl : r.reference = reference := by rw [← recorded]
  have identified : r.attachmentId = r.reference.attachmentId := by rw [← recorded]
  split
  · rename_i message found
    have id := identifier_of_find found
    have member : message.holder ∈ s.messages.map MessageRecord.holder :=
      List.mem_map_of_mem (List.mem_of_find?_eq_some found)
    have known := sound.attachments.known_iff member r.attachmentId
    rw [show message.holder.1 = r.messageId from id] at known
    split
    · rename_i attached
      obtain ⟨a, inside, same⟩ := List.any_eq_true.mp attached
      have recorded : r.key ∈ s.attachments.map AttachmentRecord.key :=
        known.mpr (List.mem_map.mpr ⟨a, inside, (eq_of_beq same).trans identified.symm⟩)
      rw [linkAttachment_known recorded]
      exact sound
    · rename_i unattached
      have fresh : r.key ∉ s.attachments.map AttachmentRecord.key := by
        intro recorded
        obtain ⟨a, inside, same⟩ := List.mem_map.mp (known.mp recorded)
        exact unattached (List.any_eq_true.mpr ⟨a, inside, beq_iff_eq.mpr (same.trans identified)⟩)
      rw [linkAttachment_fresh fresh]
      have added := sound.attachments.add_reference (List.mem_map.mpr ⟨_, member, id⟩) fresh identified valid
      have here : s.messages.find? (fun m => m.messageId.text == message.messageId.text) = some message := by
        rw [id]
        exact found
      exact {
        attachments := by
          have holders := holders_attach sound.attachments.messageIds here r.reference
          simp only [updateMessage]
          rw [holders, id]
          exact added
        turns := sound.turns
        toolCalls := sound.toolCalls
        citations := sound.citations.transfer fun _ _ cited =>
          cited_replace here rfl cited fun _ role => role
        approvals := sound.approvals
        metadata := sound.metadata }
  · rename_i none
    have unknown := fresh_of_find none
    have fresh : r.key ∉ s.attachments.map AttachmentRecord.key := by
      intro recorded
      obtain ⟨other, member, same⟩ := List.mem_map.mp recorded
      obtain ⟨h, inside, here, _⟩ := sound.attachments.attached other member
      have id : other.messageId = r.messageId := congrArg Prod.fst same
      exact unknown (List.mem_map.mpr ⟨h, inside, here.trans id⟩)
    rw [linkAttachment_fresh fresh]
    have added := (sound.attachments.add_message unknown).add_reference (r := r) (by simp) fresh identified valid
    have holders : ((s.messages.map MessageRecord.holder) ++ [(r.messageId, [])]).map
        (AttachmentsAgree.attach r.messageId r.reference) =
          s.messages.map MessageRecord.holder ++ [(r.messageId, [r.reference])] := by
      rw [List.map_append]
      congr 1
      · refine (List.map_congr_left fun h member => ?_).trans (List.map_id' _)
        have other : h.1 ≠ r.messageId := fun same => unknown (List.mem_map.mpr ⟨h, member, same⟩)
        rw [AttachmentsAgree.attach, if_neg other]
      · simp [AttachmentsAgree.attach]
    rw [holders] at added
    exact {
      attachments := by simpa [appendMessage, placeholderMessage, MessageRecord.holder] using added
      turns := sound.turns
      toolCalls := sound.toolCalls
      citations := sound.citations.transfer fun _ _ cited => cited.append
      approvals := sound.approvals
      metadata := sound.metadata }

/-! ### Citations -/

omit [WebPlatform] in
theorem covers_assistantMessage {messageId : Identifier} {linked : CitationAttachmentTarget}
    (covers : (CitationTarget.assistantMessage messageId).covers linked = true) :
    linked = .assistantMessage messageId.text := by
  cases linked with
  | assistantMessage id => rw [eq_of_beq covers]
  | toolResult => cases covers

omit [WebPlatform] in
theorem covers_toolResult {turnId toolCallId : Identifier} {linked : CitationAttachmentTarget}
    (covers : (CitationTarget.toolResult turnId toolCallId).covers linked = true) :
    linked = .toolResult toolCallId.text := by
  cases linked with
  | assistantMessage => cases covers
  | toolResult id => rw [eq_of_beq covers]

omit [WebPlatform] in
theorem mergeCitationRecords_eq_some {merged : ConversationState} {records : CitationRecordSet}
    (merges : mergeCitationRecords s records = some merged) :
    merged = { s with citationSources := merged.citationSources, citations := merged.citations } := by
  simp only [mergeCitationRecords, Option.bind_eq_bind, Option.bind_eq_some_iff, Option.some.injEq] at merges
  obtain ⟨_, _, _, _, rfl⟩ := merges
  rfl

theorem merged_sound (sound : s.Sound) {merged : ConversationState} {records : CitationRecordSet}
    (normal : records.Normal) (merges : mergeCitationRecords s records = some merged)
    (cited : ∀ c ∈ records.citations, Cited s.messages s.toolCalls c.target) : merged.Sound := by
  have citations := sound.citations.merge s.messages s.toolCalls normal merges cited fun _ _ cited => cited
  rw [mergeCitationRecords_eq_some merges]
  exact ⟨sound.attachments, sound.turns, sound.toolCalls, citations, sound.approvals, sound.metadata⟩

theorem placeholderToolCall_sound (toolCallId turnId : Identifier) :
    (placeholderToolCall toolCallId turnId).Sound := ⟨nofun, nofun, nofun⟩

theorem reduceCitationRecordsLinked_sound (sound : s.Sound) {target : CitationTarget} {records : CitationRecordSet}
    (normal : records.Normal) (covered : ∀ c ∈ records.citations, target.covers c.target = true) :
    (reduceCitationRecordsLinked s target records).Sound := by
  unfold reduceCitationRecordsLinked
  split
  · exact sound
  · rename_i merged merges
    cases target with
    | assistantMessage messageId =>
      simp only
      split
      · rename_i message found
        obtain rfl := identifier_of_find found
        split
        · exact sound
        · rename_i role
          refine merged_sound sound normal merges fun c member => ?_
          rw [covers_assistantMessage (covered c member)]
          refine ⟨message, List.mem_of_find?_eq_some found, rfl, ?_⟩
          by_contra other
          exact role (not_or.mp other)
      · rename_i none
        -- The placeholder takes the citations before its message is created.
        have unknown : s.findMessage (placeholderMessage messageId []).messageId.text = Option.none := none
        have placed := appendMessage_sound sound unknown rfl
        have citations := sound.citations.merge (s.messages ++ [placeholderMessage messageId []]) s.toolCalls
          normal merges (fun c member => by
            rw [covers_assistantMessage (covered c member)]
            exact ⟨placeholderMessage messageId [], by simp, rfl, .inl rfl⟩) fun _ _ cited => cited.append
        rw [mergeCitationRecords_eq_some merges]
        exact ⟨placed.attachments, placed.turns, placed.toolCalls, citations, placed.approvals, placed.metadata⟩
    | toolResult turnId toolCallId =>
      simp only
      split
      · rename_i toolCall found
        split
        · exact sound
        · refine merged_sound sound normal merges fun c member => ?_
          rw [covers_toolResult (covered c member)]
          have id : toolCall.toolCallId = toolCallId := by simpa using List.find?_some found
          exact ⟨toolCall, List.mem_of_find?_eq_some found, by rw [id]⟩
      · have extended := extends_append s.toolCalls [placeholderToolCall toolCallId turnId]
        have citations := sound.citations.merge s.messages
          (s.toolCalls ++ [placeholderToolCall toolCallId turnId]) normal merges (fun c member => by
            rw [covers_toolResult (covered c member)]
            exact ⟨placeholderToolCall toolCallId turnId, by simp, rfl⟩) fun _ _ cited => cited.extend extended
        rw [mergeCitationRecords_eq_some merges]
        exact {
          attachments := sound.attachments
          turns := sound.turns
          toolCalls := fun t member => by
            rcases List.mem_append.mp member with old | new
            · exact sound.toolCalls t old
            · rw [List.mem_singleton.mp new]
              exact placeholderToolCall_sound toolCallId turnId
          citations := citations
          approvals := sound.approvals.extend extended
          metadata := sound.metadata }

/-! ### Turns -/

theorem appendTurn_sound (sound : s.Sound) {turn : TurnRecord} {active : Option Identifier}
    (fresh : s.findTurn turn.turnId = none)
    (still : active = s.activeTurnId ∨ active = some turn.turnId ∧ turn.isTerminal = false) :
    (appendTurn s turn active).Sound :=
  ⟨sound.attachments, sound.turns.append fresh still, sound.toolCalls, sound.citations, sound.approvals,
    sound.metadata⟩

theorem updateTurn_sound (sound : s.Sound) {current turn : TurnRecord} {active : Option Identifier}
    (found : s.findTurn turn.turnId = some current)
    (still : ∀ t ∈ active, t = turn.turnId ∧ turn.isTerminal = false ∨ t ≠ turn.turnId ∧ t ∈ s.activeTurnId) :
    (updateTurn s turn active).Sound :=
  ⟨sound.attachments, sound.turns.replace found still, sound.toolCalls, sound.citations, sound.approvals,
    sound.metadata⟩

omit [WebPlatform] in
theorem findTurn_id {turnId : Identifier} {turn : TurnRecord} (found : s.findTurn turnId = some turn) :
    turn.turnId = turnId := by
  simpa using List.find?_some found

theorem updateTurn_same_sound (sound : s.Sound) {current turn : TurnRecord}
    (found : s.findTurn turn.turnId = some current) (same : turn.isTerminal = current.isTerminal) :
    (updateTurn s turn s.activeTurnId).Sound := by
  refine updateTurn_sound sound found fun t given => ?_
  by_cases here : t = turn.turnId
  · obtain ⟨active, member, id, running⟩ := sound.turns.active t given
    have only : active = current :=
      eq_of_find? sound.turns.turnIds found member (id.trans here)
    exact .inl ⟨here, by rw [same, ← only, running]⟩
  · exact .inr ⟨here, given⟩

theorem reduceTurnStarted_sound (sound : s.Sound) (occurredAt : Timestamp) (attribution : Attribution)
    (turnId : Identifier) (inputMessageIds : List Identifier) (continuationOfTurnId : Option Identifier) :
    (reduceTurnStarted s occurredAt attribution turnId inputMessageIds continuationOfTurnId).Sound := by
  unfold reduceTurnStarted
  split
  · rename_i turn found
    obtain rfl := findTurn_id found
    split
    · exact sound
    · rename_i open_
      simp only [Bool.or_eq_true, not_or, Bool.not_eq_true] at open_
      refine updateTurn_sound sound found fun t given => .inl ⟨(Option.mem_some.mp given).symm, open_.1⟩
  · rename_i none
    exact appendTurn_sound sound none (.inr ⟨rfl, rfl⟩)

theorem reduceTurnStatusChanged_sound (sound : s.Sound) (attribution : Attribution) (turnId : Identifier)
    (status : TurnStatus) : (reduceTurnStatusChanged s attribution turnId status).Sound := by
  unfold reduceTurnStatusChanged
  split
  · rename_i turn found
    obtain rfl := findTurn_id found
    split
    · exact sound
    · exact updateTurn_sound sound found fun t given =>
        .inl ⟨(Option.mem_some.mp given).symm, by cases status <;> rfl⟩
  · rename_i none
    exact appendTurn_sound sound none (.inr ⟨rfl, by cases status <;> rfl⟩)

theorem appendTurnRetryRecord_sound (sound : s.Sound) (turnId : Identifier) (retry : TurnRetryRecord) :
    (appendTurnRetryRecord s turnId retry).Sound := by
  unfold appendTurnRetryRecord
  split
  · rename_i turn found
    obtain rfl := findTurn_id found
    exact updateTurn_same_sound sound found rfl
  · rename_i none
    exact appendTurn_sound sound none (.inr ⟨rfl, rfl⟩)

theorem updateTurnCancellation_sound (sound : s.Sound) (turnId : Identifier) (status : TurnCancellationStatus)
    (reason : TurnCancellationReason) (attribution : Attribution) :
    (updateTurnCancellation s turnId status reason attribution).Sound := by
  unfold updateTurnCancellation
  split
  · rename_i turn found
    obtain rfl := findTurn_id found
    split
    · exact sound
    · exact updateTurn_same_sound sound found rfl
  · rename_i none
    exact appendTurn_sound sound none (.inr ⟨rfl, rfl⟩)

theorem terminateTurn_sound (sound : s.Sound) (turnId : Identifier) (terminalAt : Timestamp)
    (attribution : Attribution) (terminal : TerminalFields) :
    (terminateTurn s turnId terminalAt attribution terminal).Sound := by
  unfold terminateTurn
  split
  · rename_i turn found
    obtain rfl := findTurn_id found
    split
    · exact sound
    · refine updateTurn_sound sound found fun t given => .inr ?_
      split at given
      · cases given
      · rename_i other
        exact ⟨fun same => other (same ▸ Option.mem_def.mp given), given⟩
  · rename_i none
    exact appendTurn_sound sound none (.inl rfl)

/-! ### Tool calls -/

theorem appendToolCall_sound (sound : s.Sound) {toolCall : ToolCallRecord} (added : toolCall.Sound) :
    (appendToolCall s toolCall).Sound := by
  have extended := extends_append s.toolCalls [toolCall]
  refine ⟨sound.attachments, sound.turns, fun t member => ?_, sound.citations.extend extended,
    sound.approvals.extend extended, sound.metadata⟩
  rcases List.mem_append.mp member with old | new
  · exact sound.toolCalls t old
  · rwa [List.mem_singleton.mp new]

theorem updateToolCall_sound (sound : s.Sound) {current toolCall : ToolCallRecord}
    (found : s.findToolCall toolCall.toolCallId = some current) (changed : toolCall.Sound)
    (continues : current.Continues toolCall) : (updateToolCall s toolCall).Sound := by
  have extended : Extends s.toolCalls (updateToolCall s toolCall).toolCalls := extends_replace found continues
  exact ⟨sound.attachments, sound.turns, forall_replaceFirst sound.toolCalls changed,
    sound.citations.extend extended, sound.approvals.extend extended, sound.metadata⟩

omit [WebPlatform] in
theorem findToolCall_id {toolCallId : Identifier} {toolCall : ToolCallRecord}
    (found : s.findToolCall toolCallId = some toolCall) : toolCall.toolCallId = toolCallId := by
  simpa using List.find?_some found

theorem reduceToolCallRequested_sound (sound : s.Sound) (occurredAt : Timestamp) (attribution : Attribution)
    (turnId toolCallId name : Identifier) {arguments : JsonObject} (intact : Codec.jsonObject.Intact arguments) :
    (reduceToolCallRequested s occurredAt attribution turnId toolCallId name arguments).Sound := by
  have given : ∀ a ∈ some arguments, Codec.jsonObject.Intact a := by
    intro a member
    obtain rfl := Option.mem_some.mp member
    exact intact
  unfold reduceToolCallRequested
  split
  · exact sound
  · split
    · rename_i current found
      obtain rfl := findToolCall_id found
      have before := sound.toolCalls current (List.mem_of_find?_eq_some found)
      split
      · exact sound
      · rename_i unnamed
        simp only [not_or, Bool.not_eq_true, Option.isSome_eq_false_iff, Option.isNone_iff_eq_none] at unnamed
        refine updateToolCall_sound sound found ⟨given, before.content, before.records⟩
          ⟨rfl, rfl, fun name known => ?_, id⟩
        rw [unnamed.1] at known
        cases known
    · exact appendToolCall_sound sound ⟨given, nofun, nofun⟩

omit [WebPlatform] in
theorem stamp_continues (stage : ToolCallStage) (toolCall : ToolCallRecord) (time : Timestamp) :
    toolCall.Continues (stage.stamp toolCall time) := by
  cases stage with
  | discovered | started => exact ⟨rfl, rfl, fun _ given => given, id⟩
  | approvalRequired => exact ⟨rfl, rfl, fun _ given => given, fun _ => rfl⟩

theorem stamp_sound (stage : ToolCallStage) {toolCall : ToolCallRecord} (sound : toolCall.Sound) (time : Timestamp) :
    (stage.stamp toolCall time).Sound := by
  cases stage <;> exact ⟨sound.arguments, sound.content, sound.records⟩

theorem reduceToolCallStage_sound (sound : s.Sound) (occurredAt : Timestamp) (turnId toolCallId : Identifier)
    (stage : ToolCallStage) : (reduceToolCallStage s occurredAt turnId toolCallId stage).Sound := by
  unfold reduceToolCallStage
  split
  · rename_i current found
    obtain rfl := findToolCall_id found
    split
    · exact sound
    · have continues := stamp_continues stage current occurredAt
      refine updateToolCall_sound sound (by rw [continues.toolCallId]; exact found) ?_ continues
      exact stamp_sound stage (sound.toolCalls current (List.mem_of_find?_eq_some found)) occurredAt
  · exact appendToolCall_sound sound (stamp_sound stage (placeholderToolCall_sound toolCallId turnId) occurredAt)

theorem reduceToolCallResultRecorded_sound (sound : s.Sound) (turnId toolCallId : Identifier)
    {result : ToolResultRecord} (content : ToolResultPart.codec.list.Intact result.content)
    (records : ∀ records ∈ result.citationRecords, ResultRecords toolCallId records) :
    (reduceToolCallResultRecorded s turnId toolCallId result).Sound := by
  have givenContent : ∀ r ∈ some result, ToolResultPart.codec.list.Intact r.content := by
    intro r member
    obtain rfl := Option.mem_some.mp member
    exact content
  have givenRecords : ∀ r ∈ some result, ∀ records ∈ r.citationRecords, ResultRecords toolCallId records := by
    intro r member
    obtain rfl := Option.mem_some.mp member
    exact records
  unfold reduceToolCallResultRecorded
  split
  · rename_i current found
    obtain rfl := findToolCall_id found
    split
    · exact sound
    · refine updateToolCall_sound sound found ⟨?_, givenContent, givenRecords⟩
        ⟨rfl, rfl, fun _ given => given, id⟩
      exact (sound.toolCalls current (List.mem_of_find?_eq_some found)).arguments
  · exact appendToolCall_sound sound ⟨nofun, givenContent, givenRecords⟩

/-! ### Approvals -/

theorem reduceApprovalProposalCreated_sound (sound : s.Sound) {occurredAt : Timestamp} {attribution : Attribution}
    {payload : ApprovalProposal} (valid : (ConversationEventPayload.approvalProposalCreated payload).Valid)
    (lifecycle : checkApprovalLifecycle attribution.actor occurredAt (.approvalProposalCreated payload) = .ok ()) :
    (reduceApprovalProposalCreated s occurredAt attribution payload).Sound := by
  simp only [checkApprovalLifecycle] at lifecycle
  split at lifecycle
  · cases lifecycle
  · rename_i system
    split at lifecycle
    · cases lifecycle
    · rename_i later
      unfold reduceApprovalProposalCreated
      split
      · exact sound
      · rename_i known
        split
        · exact sound
        · rename_i toolCall found
          have member := List.mem_of_find?_eq_some found
          have id := findToolCall_id found
          split
          · exact sound
          · rename_i matched
            simp only [not_or, not_not] at known matched
            have fresh : s.findProposal payload.proposalId = none := by
              simpa [Option.isSome_iff_ne_none] using known.2
            have created : ApprovalProposalRecord.Sound {
                proposalId := payload.proposalId
                groupId := payload.groupId
                turnId := payload.turnId
                toolCallId := payload.toolCallId
                toolName := payload.toolName
                reviewedArguments := payload.reviewedArguments
                status := .pending
                proposalVersion := ⟨1, by decide, by decide⟩
                expiresAt := payload.expiresAt
                createdAt := occurredAt
                updatedAt := occurredAt
                createdAttribution := attribution
                latestAttribution := attribution
                decisionAt := none
                decisionAttribution := none
                decisionReason := none
                failureReason := none } := {
              reviewed := valid
              expires := Int.not_le.mp later
              creator := not_not.mp system
              pending := fun _ => ⟨rfl, rfl, rfl, rfl⟩
              decided := fun decided => (decided rfl).elim
              decisionReason := by simp
              failureReason := by simp
              failed := by simp }
            simp only
            split
            · -- The creation marks the tool call as requiring approval.
              have continues : toolCall.Continues { toolCall with approvalRequiredAt := some occurredAt } :=
                ⟨rfl, rfl, fun _ given => given, fun _ => rfl⟩
              have before := sound.toolCalls toolCall member
              have here : s.findToolCall toolCall.toolCallId = some toolCall := by rw [id, found]
              have required : (updateToolCall s { toolCall with approvalRequiredAt := some occurredAt }).Sound :=
                updateToolCall_sound sound here ⟨before.arguments, before.content, before.records⟩ continues
              refine ⟨required.attachments, required.turns, required.toolCalls, required.citations,
                required.approvals.create fresh created ⟨{ toolCall with approvalRequiredAt := some occurredAt },
                  mem_replaceFirst_self here, id, matched.1, matched.2, rfl⟩, required.metadata⟩
            · rename_i required
              refine ⟨sound.attachments, sound.turns, sound.toolCalls, sound.citations,
                sound.approvals.create fresh created ⟨toolCall, member, id, matched.1, matched.2, ?_⟩,
                sound.metadata⟩
              simpa [Option.isSome_iff_ne_none] using required

theorem reduceApprovalProposalStatusChanged_sound (sound : s.Sound) {occurredAt : Timestamp}
    {attribution : Attribution} {proposalId : Identifier} {proposalVersion : PositiveSafeInteger}
    {change : ApprovalChange} (valid : change.Valid)
    (lifecycle : checkApprovalLifecycle attribution.actor occurredAt
      (.approvalProposalStatusChanged proposalId proposalVersion change) = .ok ()) :
    (reduceApprovalProposalStatusChanged s occurredAt attribution proposalId proposalVersion change).Sound := by
  unfold reduceApprovalProposalStatusChanged
  split
  · exact sound
  · rename_i current found
    have member := List.mem_of_find?_eq_some found
    split
    · exact sound
    · rename_i accepted
      split
      · exact sound
      · simp only [not_or, not_not, Bool.not_eq_true', Bool.not_eq_false] at accepted
        have changed := changedProposal_sound (sound.approvals.each current member) accepted.1 accepted.2 valid
          lifecycle
        have same : (changedProposal current occurredAt attribution proposalVersion change).proposalId =
            current.proposalId := by cases change <;> rfl
        have requested : (changedProposal current occurredAt attribution proposalVersion change).Requested
            s.toolCalls := by
          have before := sound.approvals.requested current member
          cases change <;> exact before
        exact ⟨sound.attachments, sound.turns, sound.toolCalls, sound.citations,
          sound.approvals.replace found same changed requested, sound.metadata⟩

/-! ### The fold -/

theorem reducePayload_sound (sound : s.Sound) {occurredAt : Timestamp} {attribution : Attribution}
    {payload : ConversationEventPayload} (valid : payload.Valid)
    (lifecycle : checkApprovalLifecycle attribution.actor occurredAt payload = .ok ()) :
    (reducePayload s occurredAt attribution payload).Sound := by
  cases payload with
  | messageCreated => exact reduceMessageCreated_sound sound _ _ _ _ _
  | messageTextAppended => exact reduceMessageTextAppended_sound sound _ _ _ _ _
  | messageAttachmentReferenced => exact reduceMessageAttachmentReferenced_sound sound _ _ _ _ valid
  | citationRecordsLinked => exact reduceCitationRecordsLinked_sound sound valid.1 valid.2
  | turnStarted => exact reduceTurnStarted_sound sound _ _ _ _ _
  | turnStatusChanged => exact reduceTurnStatusChanged_sound sound _ _ _
  | turnAttemptStarted | turnRetryScheduled | turnRetryExhausted => exact appendTurnRetryRecord_sound sound _ _
  | turnCancellationRequested | turnCancellationUnsupported => exact updateTurnCancellation_sound sound _ _ _ _
  | turnCompleted | turnCancelled | turnFailed => exact terminateTurn_sound sound _ _ _ _
  | toolCallRequested => exact reduceToolCallRequested_sound sound _ _ _ _ _ valid
  | toolCallDiscovered | toolCallStarted | toolCallApprovalRequired => exact reduceToolCallStage_sound sound _ _ _ _
  | approvalProposalCreated => exact reduceApprovalProposalCreated_sound sound valid lifecycle
  | approvalProposalStatusChanged => exact reduceApprovalProposalStatusChanged_sound sound valid lifecycle
  | toolCallResultRecorded => exact reduceToolCallResultRecorded_sound sound _ _ valid.1 valid.2
  | toolLoopBudgetExhausted =>
    simp only [reducePayload, reduceToolLoopBudgetExhausted]
    split
    · exact sound
    · exact ⟨sound.attachments, sound.turns, sound.toolCalls, sound.citations, sound.approvals, sound.metadata⟩
  | usageReceiptLinked =>
    simp only [reducePayload, reduceUsageReceiptLinked]
    split
    · exact sound
    · exact ⟨sound.attachments, sound.turns, sound.toolCalls, sound.citations, sound.approvals, sound.metadata⟩
  | metadataUpdated =>
    exact ⟨sound.attachments, sound.turns, sound.toolCalls, sound.citations, sound.approvals, valid⟩
  | titleUpdated =>
    exact ⟨sound.attachments, sound.turns, sound.toolCalls, sound.citations, sound.approvals, sound.metadata⟩

theorem reduceConversationEvent_sound (sound : s.Sound) {event : ConversationEvent} (valid : event.Valid) :
    (reduceConversationEvent s event).Sound := by
  unfold reduceConversationEvent
  split
  · exact sound
  · split
    · exact ⟨sound.attachments, sound.turns, sound.toolCalls, sound.citations, sound.approvals, sound.metadata⟩
    · have accepted : (acceptEnvelope s event).Sound :=
        ⟨sound.attachments, sound.turns, sound.toolCalls, sound.citations, sound.approvals, sound.metadata⟩
      exact reducePayload_sound accepted valid.payload valid.lifecycle

theorem foldEvents_sound (sound : s.Sound) {log : List ConversationEvent} (valid : ∀ event ∈ log, event.Valid) :
    (foldEvents s log).Sound := by
  induction log generalizing s with
  | nil => exact sound
  | cons event rest ih =>
    rw [List.forall_mem_cons] at valid
    exact ih (reduceConversationEvent_sound sound valid.1) valid.2

end

end Handrail.Conversation

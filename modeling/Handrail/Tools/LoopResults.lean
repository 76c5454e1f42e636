import Handrail.Tools.LoopLedger

/-!
# The results that a tool loop records

What holds of the results in the log and of the outcomes that a loop is given holds of every result that it records.
-/

namespace Handrail.Tools
open Js Conversation Handrail.Runtime

/-- What `tool_call.result_recorded` says of a call. -/
structure RecordedResult where
  toolCallId : Identifier
  content : List ToolResultPart
  isError : Bool
  citationRecords : Option CitationRecordSet

def ToolResult.recorded (result : ToolResult) : RecordedResult :=
  ⟨result.toolCallId, result.content, result.isError, result.citationRecords⟩

def recordedResult (call : ToolCallRecord) : Option RecordedResult :=
  call.result.map fun result => ⟨call.toolCallId, result.content, result.isError, result.citationRecords⟩

def resultOf : ConversationEventPayload → Option RecordedResult
  | .toolCallResultRecorded _ toolCallId content isError citationRecords =>
    some ⟨toolCallId, content, isError, citationRecords⟩
  | _ => none

variable {P Q : RecordedResult → Prop} {s t : ConversationState} {call : ToolCallRecord}

def AllRecorded (P : RecordedResult → Prop) (calls : List ToolCallRecord) : Prop :=
  ∀ call ∈ calls, ∀ result, recordedResult call = some result → P result

/-! ### Events -/

theorem recorded_updateToolCall (state : AllRecorded P s.toolCalls)
    (new : ∀ result, recordedResult call = some result → P result) :
    AllRecorded P (updateToolCall s call).toolCalls := by
  intro other member result given
  rcases mem_replaceFirst member with rfl | old
  · exact new result given
  · exact state other old result given

theorem recorded_append {calls : List ToolCallRecord} (state : AllRecorded P calls)
    (new : ∀ result, recordedResult call = some result → P result) : AllRecorded P (calls ++ [call]) := by
  intro other member result given
  rcases List.mem_append.mp member with old | last
  · exact state other old result given
  · exact new result (List.mem_singleton.mp last ▸ given)

theorem recorded_reducePayload (state : AllRecorded P s.toolCalls) (occurredAt : Timestamp)
    (attribution : Attribution) {payload : ConversationEventPayload} (new : ∀ result, resultOf payload = some result → P result) :
    AllRecorded P (reducePayload s occurredAt attribution payload).toolCalls := by
  have kept {toolCallId : Identifier} {current : ToolCallRecord} (found : s.findToolCall toolCallId = some current) :
      ∀ result, recordedResult current = some result → P result := state current (List.mem_of_find?_eq_some found)
  have empty {call : ToolCallRecord} (none : call.result = none) : ∀ result, recordedResult call = some result → P result := by
    simp [recordedResult, none]
  cases payload with
  | citationRecordsLinked target records =>
    simp only [reducePayload, reduceCitationRecordsLinked]
    split
    · exact state
    · rename_i merges
      have calls := (mergeCitationRecords_same merges).2.1
      cases target with
      | assistantMessage | toolResult =>
        dsimp only
        split
        · split
          · exact state
          · exact calls ▸ state
        · first
          | exact calls ▸ state
          | exact recorded_append (calls ▸ state) (empty rfl)
  | toolCallRequested =>
    simp only [reducePayload, reduceToolCallRequested]
    split
    · exact state
    · split
      · rename_i found
        split
        · exact state
        · exact recorded_updateToolCall state fun _ given => kept found _ given
      · exact recorded_append state (empty rfl)
  | toolCallDiscovered | toolCallStarted | toolCallApprovalRequired =>
    simp only [reducePayload, reduceToolCallStage]
    split
    · rename_i found
      split
      · exact state
      · exact recorded_updateToolCall state fun _ given => kept found _ given
    · exact recorded_append state (empty rfl)
  | approvalProposalCreated =>
    simp only [reducePayload, reduceApprovalProposalCreated]
    split
    · exact state
    · split
      · exact state
      · rename_i found
        split
        · exact state
        · split
          · exact recorded_updateToolCall state fun _ given => kept found _ given
          · exact state
  | toolCallResultRecorded turnId toolCallId content isError citationRecords =>
    simp only [reducePayload, reduceToolCallResultRecorded]
    split
    · rename_i current found
      split
      · exact state
      · -- The record is found by the identifier of the event.
        have named : current.toolCallId = toolCallId := by simpa using List.find?_some found
        exact recorded_updateToolCall state fun result given => new result (named ▸ given)
    · exact recorded_append state new
  | messageCreated | messageTextAppended | messageAttachmentReferenced | turnStarted | turnStatusChanged
  | turnAttemptStarted | turnRetryScheduled | turnRetryExhausted | turnCancellationRequested
  | turnCancellationUnsupported | turnCompleted | turnCancelled | turnFailed | approvalProposalStatusChanged
  | toolLoopBudgetExhausted | usageReceiptLinked | metadataUpdated | titleUpdated =>
    refine Eq.mpr (congrArg (AllRecorded P) ?_) state
    simp only [reducePayload, reduceMessageCreated, reduceMessageTextAppended, reduceMessageAttachmentReferenced,
      reduceTurnStarted, reduceTurnStatusChanged, appendTurnRetryRecord, updateTurnCancellation, terminateTurn,
      reduceApprovalProposalStatusChanged, reduceToolLoopBudgetExhausted, reduceUsageReceiptLinked]
    repeat' split
    all_goals rfl

theorem recorded_reduce (state : AllRecorded P s.toolCalls) {event : ConversationEvent}
    (new : ∀ result, resultOf event.payload = some result → P result) :
    AllRecorded P (reduceConversationEvent s event).toolCalls := by
  unfold reduceConversationEvent
  split
  · exact state
  · split
    · exact state
    · exact recorded_reducePayload (s := acceptEnvelope s event) state _ _ new

theorem recorded_foldEvents (state : AllRecorded P s.toolCalls) {events : List ConversationEvent}
    (new : ∀ event ∈ events, ∀ result, resultOf event.payload = some result → P result) :
    AllRecorded P (foldEvents s events).toolCalls := by
  induction events generalizing s with
  | nil => exact state
  | cons event rest ih =>
    rw [List.forall_mem_cons] at new
    exact ih (recorded_reduce state new.1) new.2

theorem recorded_record (state : AllRecorded P s.toolCalls) {conversationId : Identifier} {stamp : Stamp}
    {payloads : List ConversationEventPayload} (new : ∀ payload ∈ payloads, ∀ result, resultOf payload = some result → P result)
    (recorded : recordToolLoopEvents conversationId s stamp payloads = some t) : AllRecorded P t.toolCalls := by
  obtain ⟨fresh, events, found, rfl, _, rfl⟩ := record_eq_some recorded
  exact recorded_foldEvents state fun event inside => new _ (unrecorded_sub found _ (List.mem_map_of_mem inside))

/-! ### Steps of a loop -/

/-- The results that a loop has read or been given. -/
def Phase.Recorded (P : RecordedResult → Prop) : Phase → Prop
  | .discovering calls | .counting calls => AllRecorded P calls
  | .executing ⟨batch, _, _, _⟩ | .recording batch => ∀ entry ∈ batch.results, P entry.2.recorded
  | .linking _ approvals | .requiring _ approvals => ∀ payload ∈ approvals, resultOf payload = none
  | _ => True

theorem Phase.Recorded.mono {phase : Phase} (recorded : phase.Recorded P) (more : ∀ result, P result → Q result) :
    phase.Recorded Q := by
  cases phase with
  | discovering | counting => exact fun call member result given => more result (recorded call member result given)
  | executing | recording => exact fun entry inside => more _ (recorded entry inside)
  | linking | requiring => exact recorded
  | inspecting | exhausting | continuing | observing | returned => trivial

structure HoldsOfResults (P : RecordedResult → Prop) (s : ConversationState) (phase : Phase) : Prop where
  state : AllRecorded P s.toolCalls
  phase : phase.Recorded P

variable {options : LoopOptions} {loop : ToolLoop} {reading : Reading} {next : Phase}

theorem HoldsOfResults.recordThen (state : AllRecorded P s.toolCalls) {payloads : List ConversationEventPayload}
    (new : ∀ payload ∈ payloads, ∀ result, resultOf payload = some result → P result) (after : next.Recorded P) :
    HoldsOfResults P (recordThen options s reading payloads next).1 (recordThen options s reading payloads next).2 := by
  unfold Tools.recordThen
  split
  · rename_i recorded
    exact ⟨recorded_record state new recorded, after⟩
  · exact ⟨state, trivial⟩

theorem inspect_recorded (state : AllRecorded P s.toolCalls) : (inspect options s loop reading).Recorded P := by
  have read : AllRecorded P (callsOf s loop.turn.turnId) := fun call member => state call (List.mem_of_mem_filter member)
  unfold inspect inspectCalls
  dsimp only
  repeat' split
  all_goals first | exact trivial | exact read

theorem count_recorded {calls : List ToolCallRecord} (read : AllRecorded P calls) :
    (count options loop calls).phase.Recorded P := by
  unfold count
  dsimp only
  split
  · trivial
  · split
    · trivial
    · intro entry listed
      obtain ⟨call, member, read'⟩ := List.mem_filterMap.mp listed
      obtain ⟨durable, found, rfl⟩ := Option.map_eq_some_iff.mp read'
      refine read call member _ ?_
      simp only [resultFromDurableCall, Option.bind_eq_bind, Option.bind_eq_some_iff, Option.some.injEq] at found
      obtain ⟨_, _, result, retained, rfl⟩ := found
      rw [recordedResult, retained]
      rfl

theorem mem_setResult {results : List (Identifier × ToolResult)} {toolCallId : Identifier} {result : ToolResult}
    {entry : Identifier × ToolResult} (inside : entry ∈ setResult results toolCallId result) :
    entry ∈ results ∨ entry.2 = result := by
  unfold setResult at inside
  split at inside
  · obtain ⟨old, member, rfl⟩ := List.mem_map.mp inside
    split
    · exact .inr rfl
    · exact .inl member
  · rcases List.mem_append.mp inside with old | last
    · exact .inl old
    · exact .inr (congrArg Prod.snd (List.mem_singleton.mp last))

theorem finishCall_recorded {pool : Pool} {index : Nat} {outcome : ExecutionOutcome} (before : Phase.Recorded P (.executing pool))
    (heard : ∀ result, outcome = .completed result → P result.recorded) (stopped : Bool) :
    Phase.Recorded P (.executing (finishCall pool stopped index outcome)) := by
  unfold finishCall
  split
  · exact before
  · dsimp only
    split
    · exact before
    · split
      · exact before
      · intro entry inside
        rcases mem_setResult inside with old | same
        · exact before entry old
        · exact same ▸ heard _ rfl

theorem takeCall_recorded {pool : Pool} (before : Phase.Recorded P (.executing pool)) (stopped : Bool) :
    Phase.Recorded P (.executing (takeCall pool stopped).1) := by
  unfold takeCall
  repeat' split
  all_goals exact before

theorem execute_recorded {pool : Pool} (holds : HoldsOfResults P s (.executing pool))
    (heard : ∀ index result, reading.move = .finish index (.completed result) → P result.recorded) :
    HoldsOfResults P (execute options s loop pool reading).1 (execute options s loop pool reading).2.1 := by
  unfold execute
  dsimp only
  split
  · split
    · exact ⟨holds.state, trivial⟩
    · split
      · exact ⟨holds.state, trivial⟩
      · exact ⟨holds.state, holds.phase⟩
  · split
    · split
      · exact holds
      · exact ⟨holds.state, takeCall_recorded holds.phase _⟩
    · split
      · exact holds
      · refine ⟨?_, holds.phase⟩
        dsimp only
        split
        · cases recorded : recordToolLoopEvents options.conversationId s reading.stamp _ with
          | none => exact holds.state
          | some begun => exact recorded_record holds.state (by simp [resultOf]) recorded
        · exact holds.state
    · rename_i index outcome finishes
      exact ⟨holds.state, finishCall_recorded holds.phase (fun result same => heard index result (same ▸ finishes)) _⟩

theorem continueTurn_recorded (state : AllRecorded P s.toolCalls) (turnId : Identifier) :
    HoldsOfResults P (continueTurn options s turnId reading).1 (continueTurn options s turnId reading).2 := by
  unfold continueTurn
  split
  · exact ⟨state, trivial⟩
  · split
    · exact ⟨state, trivial⟩
    · split
      · exact ⟨state, trivial⟩
      · split
        · exact ⟨state, trivial⟩
        · split
          · rename_i persisted
            obtain ⟨events, payloads, _, rfl⟩ := persist_eq_some persisted
            refine ⟨recorded_foldEvents state fun event inside result given => ?_, trivial⟩
            have drafted := payloads ▸ List.mem_map_of_mem (f := ConversationEvent.payload) inside
            rw [List.mem_singleton.mp drafted] at given
            cases given
          · exact ⟨state, trivial⟩

/-- A step of the loop keeps what holds of the results, when it holds of the outcome that the loop is given. -/
theorem advance_recorded (holds : HoldsOfResults P s loop.phase)
    (heard : ∀ pool index result, loop.phase = .executing pool → reading.move = .finish index (.completed result) →
      P result.recorded) :
    HoldsOfResults P (advance options s loop reading).1 (advance options s loop reading).2.1.phase := by
  obtain ⟨turn, startedAt, iterations, totalToolCalls, phase⟩ := loop
  unfold advance
  cases phase with
  | inspecting => exact ⟨holds.state, inspect_recorded holds.state⟩
  | discovering calls =>
    refine .recordThen holds.state (fun payload inside result given => ?_) holds.phase
    obtain ⟨_, _, rfl⟩ := List.mem_map.mp inside
    cases given
  | counting calls => exact ⟨holds.state, count_recorded holds.phase⟩
  | exhausting budget limit =>
    dsimp only
    unfold exhaust
    split
    · exact ⟨holds.state, trivial⟩
    · exact .recordThen holds.state (by simp [resultOf]) trivial
  | executing pool => exact execute_recorded holds fun index result => heard pool index result rfl
  | recording batch =>
    refine .recordThen holds.state (fun payload inside result given => ?_) fun payload inside => ?_
    · obtain ⟨call, _, read⟩ := List.mem_filterMap.mp inside
      obtain ⟨made, found, rfl⟩ := Option.map_eq_some_iff.mp read
      cases given
      obtain ⟨before, after, listed, _⟩ := List.lookup_eq_some_iff.mp found
      exact holds.phase _ (listed ▸ List.mem_append_right before List.mem_cons_self)
    · obtain ⟨_, _, rfl⟩ := List.mem_map.mp inside
      rfl
  | linking batch approvals =>
    refine .recordThen holds.state (fun payload inside result given => ?_) holds.phase
    obtain ⟨call, _, read⟩ := List.mem_filterMap.mp inside
    simp only [Option.bind_eq_bind, Option.bind_eq_some_iff] at read
    obtain ⟨_, _, _, _, _, _, linked⟩ := read
    split at linked
    · cases linked
    · cases linked
      cases given
  | requiring batch approvals =>
    refine .recordThen holds.state (fun payload inside result given => ?_) ?_
    · rw [holds.phase payload inside] at given
      cases given
    · split
      · trivial
      · split <;> trivial
  | continuing batch =>
    dsimp only
    split
    · exact ⟨holds.state, trivial⟩
    · exact continueTurn_recorded holds.state _
  | observing next => exact ⟨holds.state, trivial⟩
  | returned status => exact holds

end Handrail.Tools

import Handrail.Tools.Loop
import Handrail.Conversation.History

/-!
# What the loop reads of the log

The budgets depend on the inputs of turns, on which calls are discovered, and on the recorded
exhaustions. Every event but a new turn, a discovery or an exhaustion leaves these as they are.
-/

namespace Handrail.Tools
open Js Conversation Handrail.Runtime

/-! ### Keys -/

def turnKey (turn : TurnRecord) : Identifier × List Identifier × Option Identifier :=
  (turn.turnId, turn.inputMessageIds, turn.continuationOfTurnId)

def callKey (call : ToolCallRecord) : Identifier × Identifier × Bool :=
  (call.toolCallId, call.turnId, call.discoveredAt.isSome)

def turnKeys (s : ConversationState) : List (Identifier × List Identifier × Option Identifier) := s.turns.map turnKey

def callKeys (s : ConversationState) : List (Identifier × Identifier × Bool) := s.toolCalls.map callKey

def exhaustedTurns (s : ConversationState) : List Identifier :=
  s.toolLoopBudgetExhaustions.map ToolLoopBudgetExhaustion.turnId

def HasInput (s : ConversationState) (input : List Identifier) (turnId : Identifier) : Prop :=
  ∃ key ∈ turnKeys s, key.1 = turnId ∧ key.2.1 = input

def Used (s : ConversationState) (turnId : Identifier) : Prop :=
  turnId ∈ (turnKeys s).map Prod.fst ∨ ∃ key ∈ callKeys s, key.2.1 = turnId

def Discovered (s : ConversationState) (toolCallId turnId : Identifier) : Prop := (toolCallId, turnId, true) ∈ callKeys s

structure Sound (s : ConversationState) : Prop where
  turnIds : ((turnKeys s).map Prod.fst).Nodup
  callIds : ((callKeys s).map Prod.fst).Nodup
  continues : ∀ key ∈ turnKeys s, ∀ preceding ∈ key.2.2, HasInput s key.2.1 preceding

structure Keeps (s t : ConversationState) : Prop where
  sound : Sound s → Sound t
  input : ∀ {input turnId}, input ≠ [] → Used s turnId → (HasInput t input turnId ↔ HasInput s input turnId)
  recorded : ∀ {turnId}, turnId ∈ (turnKeys s).map Prod.fst → turnId ∈ (turnKeys t).map Prod.fst
  calls : ∀ key ∈ callKeys s, key ∈ callKeys t
  discovered : ∀ {toolCallId turnId}, Discovered t toolCallId turnId ↔ Discovered s toolCallId turnId
  exhausted : exhaustedTurns t = exhaustedTurns s

namespace Keeps
variable {s t u : ConversationState}

theorem refl (s : ConversationState) : Keeps s s := ⟨id, fun _ _ => .rfl, id, fun _ => id, .rfl, rfl⟩

variable {turnId : Identifier}

theorem used (keeps : Keeps s t) (used : Used s turnId) : Used t turnId := by
  rcases used with recorded | ⟨key, inside, same⟩
  · exact .inl (keeps.recorded recorded)
  · exact .inr ⟨key, keeps.calls key inside, same⟩

theorem trans (first : Keeps s t) (second : Keeps t u) : Keeps s u where
  sound sound := second.sound (first.sound sound)
  input given used := (second.input given (first.used used)).trans (first.input given used)
  recorded inside := second.recorded (first.recorded inside)
  calls key inside := second.calls key (first.calls key inside)
  discovered := second.discovered.trans first.discovered
  exhausted := second.exhausted.trans first.exhausted

end Keeps

/-! ### Records that grow -/

def Placeheld {κ : Type} (fresh : κ → Prop) (before after : List κ) : Prop :=
  after = before ∨ ∃ key, fresh key ∧ after = before ++ [key]

theorem Placeheld.refl {κ : Type} {fresh : κ → Prop} (keys : List κ) : Placeheld fresh keys keys := .inl rfl

structure Ordinary (s t : ConversationState) : Prop where
  turns : Placeheld (fun key => key.1 ∉ (turnKeys s).map Prod.fst ∧ key.2 = ([], none)) (turnKeys s) (turnKeys t)
  calls : Placeheld (fun key => key.1 ∉ (callKeys s).map Prod.fst ∧ key.2.2 = false) (callKeys s) (callKeys t)
  exhausted : exhaustedTurns t = exhaustedTurns s

theorem nodup_placeheld {κ β : Type} {id : κ → β} {fresh : κ → Prop} {before after : List κ}
    (placeheld : Placeheld fresh before after) (distinct : (before.map id).Nodup)
    (unused : ∀ key, fresh key → id key ∉ before.map id) : (after.map id).Nodup := by
  rcases placeheld with rfl | ⟨key, new, rfl⟩
  · exact distinct
  · rw [List.map_append, List.map_singleton, List.nodup_append]
    refine ⟨distinct, List.nodup_singleton _, fun a old b last same => ?_⟩
    obtain rfl := List.mem_singleton.mp last
    exact unused key new (same ▸ old)

theorem Ordinary.keeps {s t : ConversationState} (ordinary : Ordinary s t) : Keeps s t := by
  obtain ⟨turns, calls, exhausted⟩ := ordinary
  have known : ∀ key ∈ turnKeys s, key ∈ turnKeys t := by
    intro key inside
    rcases turns with same | ⟨_, _, same⟩
    · rwa [same]
    · rw [same]
      exact List.mem_append_left _ inside
  have old : ∀ key ∈ turnKeys t, key ∈ turnKeys s ∨ key.2 = ([], none) := by
    intro key inside
    rcases turns with same | ⟨new, ⟨_, empty⟩, same⟩
    · exact .inl (same ▸ inside)
    · rw [same] at inside
      rcases List.mem_append.mp inside with before | last
      · exact .inl before
      · exact .inr (List.mem_singleton.mp last ▸ empty)
  refine ⟨fun sound => ⟨?_, ?_, ?_⟩, ?_, ?_, ?_, ?_, exhausted⟩
  · exact nodup_placeheld turns sound.turnIds fun key new => new.1
  · exact nodup_placeheld calls sound.callIds fun key new => new.1
  · intro key inside preceding given
    rcases old key inside with before | empty
    · obtain ⟨other, member, same⟩ := sound.continues key before preceding given
      exact ⟨other, known other member, same⟩
    · rw [empty] at given
      cases given
  · intro input turnId given _
    constructor
    · rintro ⟨key, inside, same, alike⟩
      rcases old key inside with before | empty
      · exact ⟨key, before, same, alike⟩
      · rw [empty] at alike
        exact (given alike.symm).elim
    · rintro ⟨key, inside, same⟩
      exact ⟨key, known key inside, same⟩
  · intro turnId inside
    obtain ⟨key, member, rfl⟩ := List.mem_map.mp inside
    exact List.mem_map_of_mem (known key member)
  · intro key inside
    rcases calls with same | ⟨_, _, same⟩
    · rwa [same]
    · rw [same]
      exact List.mem_append_left _ inside
  · intro toolCallId turnId
    unfold Discovered
    rcases calls with same | ⟨new, ⟨_, no⟩, same⟩
    · rw [same]
    · rw [same, List.mem_append, List.mem_singleton]
      constructor
      · rintro (before | rfl)
        · exact before
        · cases no
      · exact .inl

/-! ### Ordinary payloads -/

section
variable {s : ConversationState}

theorem notMem_of_findTurn (absent : s.findTurn turnId = none) :
    turnId ∉ (turnKeys s).map Prod.fst := by
  rw [turnKeys, List.map_map]
  intro inside
  obtain ⟨turn, member, same⟩ := List.mem_map.mp inside
  exact List.find?_eq_none.mp absent turn member (beq_iff_eq.mpr same)

theorem notMem_of_findToolCall {toolCallId : Identifier} (absent : s.findToolCall toolCallId = none) :
    toolCallId ∉ (callKeys s).map Prod.fst := by
  rw [callKeys, List.map_map]
  intro inside
  obtain ⟨call, member, same⟩ := List.mem_map.mp inside
  exact List.find?_eq_none.mp absent call member (beq_iff_eq.mpr same)

theorem Ordinary.refl (s : ConversationState) : Ordinary s s := ⟨.refl _, .refl _, rfl⟩

variable {active : Option Identifier}

theorem ordinary_updateTurn {current turn : TurnRecord}
    (found : s.findTurn turnId = some current) (same : turnKey turn = turnKey current) :
    Ordinary s (updateTurn s turn active) where
  turns := .inl (by
    have named : current.turnId = turnId := by simpa using List.find?_some found
    have id : turn.turnId = turnId := (congrArg Prod.fst same).trans named
    exact map_replaceFirst (id ▸ found) same)
  calls := .refl _
  exhausted := rfl

theorem ordinary_appendTurn {turn : TurnRecord} (absent : s.findTurn turn.turnId = none)
    (empty : turn.inputMessageIds = []) (first : turn.continuationOfTurnId = none) :
    Ordinary s (appendTurn s turn active) where
  turns := .inr ⟨turnKey turn, ⟨notMem_of_findTurn absent, by rw [turnKey, empty, first]⟩, List.map_append⟩
  calls := .refl _
  exhausted := rfl

theorem ordinary_updateToolCall {toolCallId : Identifier} {current call : ToolCallRecord}
    (found : s.findToolCall toolCallId = some current) (same : callKey call = callKey current) :
    Ordinary s (updateToolCall s call) where
  turns := .refl _
  calls := .inl (by
    have named : current.toolCallId = toolCallId := by simpa using List.find?_some found
    have id : call.toolCallId = toolCallId := (congrArg Prod.fst same).trans named
    exact map_replaceFirst (id ▸ found) same)
  exhausted := rfl

theorem ordinary_appendToolCall {call : ToolCallRecord} (absent : s.findToolCall call.toolCallId = none)
    (undiscovered : call.discoveredAt = none) : Ordinary s (appendToolCall s call) where
  turns := .refl _
  calls := .inr ⟨callKey call, ⟨notMem_of_findToolCall absent, by rw [callKey, undiscovered]; rfl⟩, List.map_append⟩
  exhausted := rfl

variable {t : ConversationState}

theorem ordinary_of_same (turns : t.turns = s.turns) (calls : t.toolCalls = s.toolCalls)
    (exhausted : t.toolLoopBudgetExhaustions = s.toolLoopBudgetExhaustions) : Ordinary s t where
  turns := .inl (by rw [turnKeys, turns]; rfl)
  calls := .inl (by rw [callKeys, calls]; rfl)
  exhausted := by rw [exhaustedTurns, exhausted]; rfl

theorem Ordinary.congr {t u : ConversationState} (ordinary : Ordinary s t) (turns : u.turns = t.turns)
    (calls : u.toolCalls = t.toolCalls) (exhausted : u.toolLoopBudgetExhaustions = t.toolLoopBudgetExhaustions) :
    Ordinary s u where
  turns := by
    rw [turnKeys, turnKeys, turns]
    exact ordinary.turns
  calls := by
    rw [callKeys, callKeys, calls]
    exact ordinary.calls
  exhausted := by
    rw [exhaustedTurns, exhausted]
    exact ordinary.exhausted

theorem mergeCitationRecords_same {merged : ConversationState} {records : CitationRecordSet}
    (merges : mergeCitationRecords s records = some merged) : merged.turns = s.turns ∧ merged.toolCalls = s.toolCalls ∧
      merged.toolLoopBudgetExhaustions = s.toolLoopBudgetExhaustions := by
  simp only [mergeCitationRecords, Option.bind_eq_bind, Option.bind_eq_some_iff, Option.some.injEq] at merges
  obtain ⟨_, _, _, _, rfl⟩ := merges
  exact ⟨rfl, rfl, rfl⟩

theorem ordinary_citationRecordsLinked (target : CitationTarget) (records : CitationRecordSet) :
    Ordinary s (reduceCitationRecordsLinked s target records) := by
  unfold reduceCitationRecordsLinked
  split
  · exact .refl s
  · rename_i merged merges
    obtain ⟨turns, calls, exhausted⟩ := mergeCitationRecords_same merges
    cases target with
    | assistantMessage messageId =>
      dsimp only
      split
      · split
        · exact .refl s
        · exact ordinary_of_same turns calls exhausted
      · exact ordinary_of_same turns calls exhausted
    | toolResult turnId toolCallId =>
      dsimp only
      split
      · split
        · exact .refl s
        · exact ordinary_of_same turns calls exhausted
      · rename_i absent
        have placeheld : Ordinary s (appendToolCall s (placeholderToolCall toolCallId turnId)) :=
          ordinary_appendToolCall absent rfl
        exact placeheld.congr turns (by simp only [appendToolCall, calls]) exhausted

theorem ordinary_approvalProposalCreated (occurredAt : Timestamp) (attribution : Attribution) (proposal : ApprovalProposal) :
    Ordinary s (reduceApprovalProposalCreated s occurredAt attribution proposal) := by
  unfold reduceApprovalProposalCreated
  split
  · exact .refl s
  · split
    · exact .refl s
    · rename_i call found
      split
      · exact .refl s
      · dsimp only
        split
        · have updated : Ordinary s (updateToolCall s { call with approvalRequiredAt := some occurredAt }) :=
            ordinary_updateToolCall found rfl
          exact updated.congr rfl rfl rfl
        · exact ordinary_of_same rfl rfl rfl

def isOrdinary : ConversationEventPayload → Bool
  | .turnStarted .. | .toolCallDiscovered .. | .toolLoopBudgetExhausted .. => false
  | _ => true

theorem ordinary_reducePayload (occurredAt : Timestamp) (attribution : Attribution) {payload : ConversationEventPayload}
    (ordinary : isOrdinary payload = true) : Ordinary s (reducePayload s occurredAt attribution payload) := by
  cases payload with
  | turnStarted | toolCallDiscovered | toolLoopBudgetExhausted => cases ordinary
  | messageCreated messageId role content =>
    simp only [reducePayload, reduceMessageCreated]
    split
    · split
      · exact .refl s
      · split <;> exact ordinary_of_same rfl rfl rfl
    · exact ordinary_of_same rfl rfl rfl
  | messageTextAppended turnId messageId text =>
    simp only [reducePayload, reduceMessageTextAppended]
    split
    · split
      · exact .refl s
      · exact ordinary_of_same rfl rfl rfl
    · exact ordinary_of_same rfl rfl rfl
  | messageAttachmentReferenced messageId attachment =>
    simp only [reducePayload, reduceMessageAttachmentReferenced]
    split
    · split <;> exact ordinary_of_same rfl rfl rfl
    · exact ordinary_of_same rfl rfl rfl
  | citationRecordsLinked target records => exact ordinary_citationRecordsLinked target records
  | turnStatusChanged turnId status =>
    simp only [reducePayload, reduceTurnStatusChanged]
    split
    · rename_i found
      split
      · exact .refl s
      · exact ordinary_updateTurn found rfl
    · rename_i absent
      exact ordinary_appendTurn absent rfl rfl
  | turnAttemptStarted | turnRetryScheduled | turnRetryExhausted =>
    simp only [reducePayload, appendTurnRetryRecord]
    split
    · rename_i found
      exact ordinary_updateTurn found rfl
    · rename_i absent
      exact ordinary_appendTurn absent rfl rfl
  | turnCancellationRequested | turnCancellationUnsupported =>
    simp only [reducePayload, updateTurnCancellation]
    split
    · rename_i found
      split
      · exact .refl s
      · exact ordinary_updateTurn found rfl
    · rename_i absent
      exact ordinary_appendTurn absent rfl rfl
  | turnCompleted | turnCancelled | turnFailed =>
    simp only [reducePayload, terminateTurn]
    split
    · rename_i found
      split
      · exact .refl s
      · exact ordinary_updateTurn found rfl
    · rename_i absent
      exact ordinary_appendTurn absent rfl rfl
  | toolCallRequested turnId toolCallId name arguments =>
    simp only [reducePayload, reduceToolCallRequested]
    split
    · exact .refl s
    · split
      · rename_i found
        split
        · exact .refl s
        · exact ordinary_updateToolCall found rfl
      · rename_i absent
        exact ordinary_appendToolCall absent rfl
  | toolCallStarted | toolCallApprovalRequired =>
    simp only [reducePayload, reduceToolCallStage]
    split
    · rename_i found
      split
      · exact .refl s
      · exact ordinary_updateToolCall found rfl
    · rename_i absent
      exact ordinary_appendToolCall absent rfl
  | approvalProposalCreated proposal => exact ordinary_approvalProposalCreated _ _ proposal
  | approvalProposalStatusChanged proposalId proposalVersion change =>
    simp only [reducePayload, reduceApprovalProposalStatusChanged]
    split
    · exact .refl s
    · split
      · exact .refl s
      · split
        · exact .refl s
        · exact ordinary_of_same rfl rfl rfl
  | toolCallResultRecorded turnId toolCallId content isError citationRecords =>
    simp only [reducePayload, reduceToolCallResultRecorded]
    split
    · rename_i found
      split
      · exact .refl s
      · exact ordinary_updateToolCall found rfl
    · rename_i absent
      exact ordinary_appendToolCall absent rfl
  | usageReceiptLinked =>
    simp only [reducePayload, reduceUsageReceiptLinked]
    split
    · exact .refl s
    · exact ordinary_of_same rfl rfl rfl
  | metadataUpdated | titleUpdated => exact ordinary_of_same rfl rfl rfl

variable {event : ConversationEvent}

/-- An ordinary event keeps what the budgets depend on, whether the state takes it or not. -/
theorem keeps_ordinary (ordinary : isOrdinary event.payload = true) :
    Keeps s (reduceConversationEvent s event) := by
  unfold reduceConversationEvent
  split
  · exact .refl s
  · split
    · exact Ordinary.keeps (ordinary_of_same rfl rfl rfl)
    · have accepted : Keeps s (acceptEnvelope s event) := Ordinary.keeps (ordinary_of_same rfl rfl rfl)
      exact accepted.trans (ordinary_reducePayload _ _ ordinary).keeps

/-! ### New turns -/

theorem not_usesTurn (unused : usesTurn s turnId = false) : ¬Used s turnId := by
  simp only [usesTurn, Bool.or_eq_false_iff, List.any_eq_false, beq_iff_eq] at unused
  rintro (recorded | ⟨key, inside, same⟩)
  · rw [turnKeys, List.map_map] at recorded
    obtain ⟨turn, member, same⟩ := List.mem_map.mp recorded
    exact unused.1 turn member same
  · obtain ⟨call, member, rfl⟩ := List.mem_map.mp inside
    exact unused.2 call member same

/-- A turn under an unused identity, which continues a turn of the same input or none. -/
theorem keeps_appendTurn {turn : TurnRecord} (unused : ¬Used s turn.turnId)
    (continues : ∀ preceding ∈ turn.continuationOfTurnId, HasInput s turn.inputMessageIds preceding) :
    Keeps s (appendTurn s turn active) := by
  have keys : turnKeys (appendTurn s turn active) = turnKeys s ++ [turnKey turn] := List.map_append
  have grows {input : List Identifier} {turnId : Identifier} (has : HasInput s input turnId) :
      HasInput (appendTurn s turn active) input turnId := by
    obtain ⟨key, inside, same⟩ := has
    exact ⟨key, keys ▸ List.mem_append_left _ inside, same⟩
  refine ⟨fun sound => ⟨?_, sound.callIds, ?_⟩, ?_, ?_, fun _ => id, .rfl, rfl⟩
  · rw [keys, List.map_append, List.map_singleton, List.nodup_append]
    refine ⟨sound.turnIds, List.nodup_singleton _, fun id old other last same => ?_⟩
    obtain rfl := List.mem_singleton.mp last
    have same : id = turn.turnId := same
    exact unused (.inl (same ▸ old))
  · intro key inside preceding given
    rw [keys] at inside
    rcases List.mem_append.mp inside with old | last
    · exact grows (sound.continues key old preceding given)
    · obtain rfl := List.mem_singleton.mp last
      exact grows (continues preceding given)
  · intro input turnId _ used
    constructor
    · rintro ⟨key, inside, same, alike⟩
      rw [keys] at inside
      rcases List.mem_append.mp inside with old | last
      · exact ⟨key, old, same, alike⟩
      · obtain rfl := List.mem_singleton.mp last
        obtain rfl : turn.turnId = turnId := same
        exact (unused used).elim
    · exact grows
  · intro turnId recorded
    rw [keys, List.map_append]
    exact List.mem_append_left _ recorded

theorem keeps_reduceTurnStarted (occurredAt : Timestamp) (attribution : Attribution)
    {inputMessageIds : List Identifier} {continuationOfTurnId : Option Identifier} (unused : ¬Used s turnId)
    (continues : ∀ preceding ∈ continuationOfTurnId, HasInput s inputMessageIds preceding) :
    Keeps s (reduceTurnStarted s occurredAt attribution turnId inputMessageIds continuationOfTurnId) := by
  unfold reduceTurnStarted
  split
  · rename_i turn found
    refine (unused (.inl ?_)).elim
    rw [turnKeys, List.map_map]
    have named : turn.turnId = turnId := by simpa using List.find?_some found
    exact List.mem_map.mpr ⟨turn, List.mem_of_find?_eq_some found, named⟩
  · exact keeps_appendTurn unused continues

theorem turnKeys_turnStarted (occurredAt : Timestamp) (attribution : Attribution)
    {inputMessageIds : List Identifier} {continuationOfTurnId : Option Identifier} (unused : ¬Used s turnId) :
    turnKeys (reduceTurnStarted s occurredAt attribution turnId inputMessageIds continuationOfTurnId) =
      turnKeys s ++ [(turnId, inputMessageIds, continuationOfTurnId)] := by
  unfold reduceTurnStarted
  split
  · rename_i turn found
    refine (unused (.inl ?_)).elim
    rw [turnKeys, List.map_map]
    have named : turn.turnId = turnId := by simpa using List.find?_some found
    exact List.mem_map.mpr ⟨turn, List.mem_of_find?_eq_some found, named⟩
  · exact List.map_append

theorem keeps_turnStarted {inputMessageIds : List Identifier}
    {continuationOfTurnId : Option Identifier}
    (started : event.payload = .turnStarted turnId inputMessageIds continuationOfTurnId) (unused : ¬Used s turnId)
    (continues : ∀ preceding ∈ continuationOfTurnId, HasInput s inputMessageIds preceding) :
    Keeps s (reduceConversationEvent s event) := by
  unfold reduceConversationEvent
  split
  · exact .refl s
  · split
    · exact Ordinary.keeps (ordinary_of_same rfl rfl rfl)
    · have accepted : Keeps s (acceptEnvelope s event) := Ordinary.keeps (ordinary_of_same rfl rfl rfl)
      rw [started]
      exact accepted.trans (keeps_reduceTurnStarted _ _ unused continues)

theorem keeps_outside (admitted : admits s event = true) :
    Keeps s (reduceConversationEvent s event) := by
  unfold admits at admitted
  split at admitted
  · cases admitted
  · cases admitted
  · rename_i turnId inputMessageIds continuationOfTurnId started
    simp only [Bool.and_eq_true, Bool.not_eq_true', Option.all_eq_true, List.any_eq_true, beq_iff_eq] at admitted
    refine keeps_turnStarted started (not_usesTurn admitted.1) fun preceding given => ?_
    obtain ⟨turn, member, same⟩ := admitted.2 preceding given
    exact ⟨turnKey turn, List.mem_map_of_mem member, same⟩
  · rename_i noDiscovery noExhaustion noTurn
    refine keeps_ordinary ?_
    cases payload : event.payload with
    | toolCallDiscovered => exact (noDiscovery _ _ payload).elim
    | toolLoopBudgetExhausted => exact (noExhaustion _ _ _ payload).elim
    | turnStarted => exact (noTurn _ _ _ payload).elim
    | _ => rfl

/-! ### Recorded facts -/

variable {conversationId : Identifier}

theorem draftEvents_payload {occurredAt : Timestamp} {revision : Nat}
    {eventIds : List Identifier} {drafts : List EventDraft}
    (all : (draftEvents conversationId occurredAt revision eventIds drafts).length = drafts.length) :
    (draftEvents conversationId occurredAt revision eventIds drafts).map ConversationEvent.payload =
      drafts.map EventDraft.payload := by
  induction drafts generalizing revision eventIds with
  | nil => cases eventIds <;> rfl
  | cons draft rest ih =>
    cases eventIds with
    | nil => cases all
    | cons eventId eventIds =>
      simp only [draftEvents, List.length_cons, Nat.add_right_cancel_iff] at all
      simp only [draftEvents, List.map_cons, ih all]
      rfl

theorem unrecorded_sub {payloads fresh : List ConversationEventPayload} (found : unrecorded s payloads = some fresh) :
    ∀ payload ∈ fresh, payload ∈ payloads := by
  induction payloads generalizing fresh with
  | nil =>
    cases found
    exact fun _ => id
  | cons first rest ih =>
    simp only [unrecorded, Option.bind_eq_bind, Option.bind_eq_some_iff, Option.some.injEq] at found
    obtain ⟨recorded, _, others, later, rfl⟩ := found
    intro payload inside
    split at inside
    · exact List.mem_cons_of_mem _ (ih later payload inside)
    · rcases List.mem_cons.mp inside with rfl | inside
      · exact List.mem_cons_self
      · exact List.mem_cons_of_mem _ (ih later payload inside)

theorem persist_eq_some {stamp : Stamp} {drafts : List EventDraft}
    (persisted : persist conversationId s stamp drafts = some t) : ∃ events : List ConversationEvent,
    events.map ConversationEvent.payload = drafts.map EventDraft.payload ∧ acceptsAll s events = true ∧
      t = foldEvents s events := by
  unfold persist at persisted
  dsimp only at persisted
  split at persisted
  · rename_i accepted
    exact ⟨_, draftEvents_payload accepted.1, accepted.2, (Option.some.inj persisted).symm⟩
  · cases persisted

theorem record_eq_some {stamp : Stamp} {payloads : List ConversationEventPayload}
    (recorded : recordToolLoopEvents conversationId s stamp payloads = some t) :
    ∃ fresh events, unrecorded s payloads = some fresh ∧ events.map ConversationEvent.payload = fresh ∧
      acceptsAll s events = true ∧ t = foldEvents s events := by
  simp only [recordToolLoopEvents, Option.bind_eq_bind, Option.bind_eq_some_iff] at recorded
  obtain ⟨fresh, found, persisted⟩ := recorded
  split at persisted
  · rename_i none
    rw [List.isEmpty_iff] at none
    exact ⟨fresh, [], found, none.symm, rfl, (Option.some.inj persisted).symm⟩
  · obtain ⟨events, payloads, accepted, rfl⟩ := persist_eq_some persisted
    refine ⟨fresh, events, found, ?_, accepted, rfl⟩
    rw [payloads, List.map_map]
    exact List.map_id _

theorem keeps_foldEvents {events : List ConversationEvent} (ordinary : ∀ event ∈ events, isOrdinary event.payload = true) :
    Keeps s (foldEvents s events) := by
  induction events generalizing s with
  | nil => exact .refl s
  | cons event rest ih =>
    rw [List.forall_mem_cons] at ordinary
    exact (keeps_ordinary ordinary.1).trans (ih ordinary.2)

theorem keeps_record {stamp : Stamp} {payloads : List ConversationEventPayload}
    (ordinary : ∀ payload ∈ payloads, isOrdinary payload = true)
    (recorded : recordToolLoopEvents conversationId s stamp payloads = some t) : Keeps s t := by
  obtain ⟨fresh, events, found, rfl, _, rfl⟩ := record_eq_some recorded
  exact keeps_foldEvents fun event inside =>
    ordinary _ (unrecorded_sub found _ (List.mem_map_of_mem inside))

theorem acceptsAll_cons {rest : List ConversationEvent}
    (accepted : acceptsAll s (event :: rest) = true) :
    reduceConversationEvent s event = reducePayload (acceptEnvelope s event) event.occurredAt
        ⟨event.actor, event.source⟩ event.payload ∧ acceptsAll (reduceConversationEvent s event) rest = true := by
  simp only [acceptsAll, Bool.and_eq_true, Bool.not_eq_true', Option.isNone_iff_eq_none] at accepted
  refine ⟨?_, accepted.2⟩
  simp only [reduceConversationEvent, accepted.1.1, accepted.1.2, Bool.false_eq_true, ↓reduceIte]

/-! ### Exhaustions -/

structure Exhausts (s t : ConversationState) (turnId : Identifier) : Prop where
  turns : turnKeys t = turnKeys s
  calls : callKeys t = callKeys s
  exhausted : ∀ {id}, id ∈ exhaustedTurns t ↔ id ∈ exhaustedTurns s ∨ id = turnId

theorem exhausts_record {stamp : Stamp} {budget : ToolLoopBudget}
    {limit : PositiveSafeInteger}
    (recorded : recordToolLoopEvents conversationId s stamp [.toolLoopBudgetExhausted turnId budget limit] = some t) :
    Exhausts s t turnId := by
  obtain ⟨fresh, events, found, payloads, accepted, rfl⟩ := record_eq_some recorded
  cases found
  cases events with
  | nil => cases payloads
  | cons event rest =>
    obtain ⟨payload, rest_nil⟩ := List.cons.inj payloads
    obtain rfl := List.map_eq_nil_iff.mp rest_nil
    rw [foldEvents_cons, foldEvents_nil, (acceptsAll_cons accepted).1, payload]
    simp only [reducePayload, reduceToolLoopBudgetExhausted]
    split
    · rename_i known
      refine ⟨rfl, rfl, fun {id} => ⟨.inl, ?_⟩⟩
      rintro (old | rfl)
      · exact old
      · obtain ⟨item, member, same⟩ := List.any_eq_true.mp known
        simp only [Bool.and_eq_true, beq_iff_eq] at same
        exact List.mem_map.mpr ⟨item, member, same.1⟩
    · refine ⟨rfl, rfl, fun {id} => ?_⟩
      simp only [exhaustedTurns, List.map_append, List.map_singleton, List.mem_append, List.mem_singleton]
      rfl

/-! ### Discoveries -/

structure Discovers (s t : ConversationState) (turnId : Identifier) (toolCallIds : List Identifier) : Prop where
  turns : turnKeys t = turnKeys s
  callIds : (callKeys t).map Prod.fst = (callKeys s).map Prod.fst
  calls : ∀ key ∈ callKeys s, key.1 ∉ toolCallIds → key ∈ callKeys t
  discovered : ∀ {id other}, Discovered t id other ↔ Discovered s id other ∨ other = turnId ∧ id ∈ toolCallIds
  exhausted : exhaustedTurns t = exhaustedTurns s

theorem Sound.findToolCall (sound : Sound s) {key : Identifier × Identifier × Bool} (inside : key ∈ callKeys s) :
    ∃ call, s.findToolCall key.1 = some call ∧ callKey call = key := by
  obtain ⟨call, member, rfl⟩ := List.mem_map.mp inside
  have exists_ : (s.findToolCall call.toolCallId).isSome = true :=
    List.find?_isSome.mpr ⟨call, member, beq_self_eq_true _⟩
  obtain ⟨found, same⟩ := Option.isSome_iff_exists.mp exists_
  have distinct : (s.toolCalls.map ToolCallRecord.toolCallId).Nodup := by
    have ids := sound.callIds
    rwa [callKeys, List.map_map] at ids
  have id : found.toolCallId = call.toolCallId := by simpa using List.find?_some same
  obtain rfl := List.inj_on_of_nodup_map distinct (List.mem_of_find?_eq_some same) member id
  exact ⟨found, same, rfl⟩

theorem discovers_one (sound : Sound s) {turnId toolCallId : Identifier} (occurredAt : Timestamp)
    (inside : (toolCallId, turnId, false) ∈ callKeys s) :
    Discovers s (reduceToolCallStage s occurredAt turnId toolCallId .discovered) turnId [toolCallId] := by
  obtain ⟨call, found, key⟩ := sound.findToolCall inside
  have id : call.toolCallId = toolCallId := congrArg Prod.fst key
  have turn : call.turnId = turnId := congrArg (·.2.1) key
  have undiscovered : call.discoveredAt.isSome = false := congrArg (·.2.2) key
  have distinct : (s.toolCalls.map ToolCallRecord.toolCallId).Nodup := by
    have ids := sound.callIds
    rwa [callKeys, List.map_map] at ids
  have keys : callKeys (reduceToolCallStage s occurredAt turnId toolCallId .discovered) =
      (callKeys s).map fun key => if key.1 = toolCallId then (toolCallId, turnId, true) else key := by
    have replaced : reduceToolCallStage s occurredAt turnId toolCallId .discovered =
        updateToolCall s (ToolCallStage.discovered.stamp call occurredAt) := by
      unfold reduceToolCallStage
      rw [found]
      have read : ToolCallStage.discovered.read call = none := by simpa [ToolCallStage.read] using undiscovered
      simp only [turn, read, ne_eq, not_true_eq_false, Option.isSome_none, Bool.false_eq_true, or_self, ↓reduceIte]
    rw [replaced]
    show ((replaceFirst (fun t => t.toolCallId == call.toolCallId) _ s.toolCalls).map callKey) = _
    rw [replaceFirst_eq_map distinct, callKeys, List.map_map, List.map_map]
    refine List.map_congr_left fun other _ => ?_
    simp only [Function.comp_apply, ← id]
    by_cases same : other.toolCallId = call.toolCallId
    · rw [if_pos same, if_pos (show (callKey other).1 = call.toolCallId from same), ← turn]
      rfl
    · rw [if_neg same, if_neg (show ¬(callKey other).1 = call.toolCallId from same)]
  have frame : turnKeys (reduceToolCallStage s occurredAt turnId toolCallId .discovered) = turnKeys s ∧
      exhaustedTurns (reduceToolCallStage s occurredAt turnId toolCallId .discovered) = exhaustedTurns s := by
    unfold reduceToolCallStage
    split
    · split <;> exact ⟨rfl, rfl⟩
    · exact ⟨rfl, rfl⟩
  refine ⟨frame.1, ?_, ?_, ?_, frame.2⟩
  · rw [keys, List.map_map]
    refine List.map_congr_left fun key _ => ?_
    by_cases same : key.1 = toolCallId
    · rw [Function.comp_apply, if_pos same, same]
    · simp only [Function.comp_apply, if_neg same]
  · intro key member other
    rw [keys]
    exact List.mem_map.mpr ⟨key, member, if_neg (List.mem_singleton.not.mp other)⟩
  · intro id other
    unfold Discovered
    rw [keys, List.mem_map, List.mem_singleton]
    constructor
    · rintro ⟨key, member, same⟩
      split at same
      · cases same
        exact .inr ⟨rfl, rfl⟩
      · exact .inl (same ▸ member)
    · rintro (old | ⟨rfl, rfl⟩)
      · by_cases same : id = toolCallId
        · subst same
          -- The call was not discovered before.
          obtain ⟨first, found', key'⟩ := sound.findToolCall old
          cases found'.symm.trans found
          cases key'.symm.trans key
        · exact ⟨_, old, if_neg same⟩
      · exact ⟨_, inside, if_pos rfl⟩

theorem Discovers.sound {ids : List Identifier}
    (discovers : Discovers s t turnId ids) (sound : Sound s) : Sound t where
  turnIds := by
    rw [discovers.turns]
    exact sound.turnIds
  callIds := by
    rw [discovers.callIds]
    exact sound.callIds
  continues := by
    unfold HasInput
    rw [discovers.turns]
    exact sound.continues

theorem Sound.congr (sound : Sound s) (turns : turnKeys t = turnKeys s)
    (calls : callKeys t = callKeys s) : Sound t where
  turnIds := by
    rw [turns]
    exact sound.turnIds
  callIds := by
    rw [calls]
    exact sound.callIds
  continues := by
    unfold HasInput
    rw [turns]
    exact sound.continues

theorem discovers_fold (sound : Sound s) {ids : List Identifier} {events : List ConversationEvent}
    (payloads : events.map ConversationEvent.payload = ids.map (.toolCallDiscovered turnId))
    (accepted : acceptsAll s events = true) (inside : ∀ id ∈ ids, (id, turnId, false) ∈ callKeys s) (distinct : ids.Nodup) :
    Discovers s (foldEvents s events) turnId ids := by
  induction ids generalizing s events with
  | nil =>
    obtain rfl := List.map_eq_nil_iff.mp payloads
    exact ⟨rfl, rfl, fun _ member _ => member, by simp, rfl⟩
  | cons id rest ih =>
    cases events with
    | nil => cases payloads
    | cons event events =>
      obtain ⟨payload, payloads⟩ := List.cons.inj payloads
      rw [List.forall_mem_cons] at inside
      rw [List.nodup_cons] at distinct
      have envelope : turnKeys (acceptEnvelope s event) = turnKeys s ∧
        callKeys (acceptEnvelope s event) = callKeys s := ⟨rfl, rfl⟩
      have first : Discovers s (reduceConversationEvent s event) turnId [id] := by
        rw [(acceptsAll_cons accepted).1, payload]
        have one := discovers_one (sound.congr envelope.1 envelope.2) event.occurredAt inside.1
        exact ⟨one.turns, one.callIds, one.calls, one.discovered, one.exhausted⟩
      have later := ih (first.sound sound) payloads (acceptsAll_cons accepted).2 (fun other member =>
        first.calls _ (inside.2 other member) fun same =>
          distinct.1 (List.mem_singleton.mp same ▸ member)) distinct.2
      rw [foldEvents_cons]
      refine ⟨later.turns.trans first.turns, later.callIds.trans first.callIds, fun key member other => ?_, ?_,
        later.exhausted.trans first.exhausted⟩
      · rw [List.mem_cons, not_or] at other
        exact later.calls key (first.calls key member (List.mem_singleton.not.mpr other.1)) other.2
      · intro id' other
        rw [later.discovered, first.discovered, List.mem_singleton, List.mem_cons]
        tauto

theorem discovers_record {stamp : Stamp} {ids : List Identifier} (sound : Sound s)
    (inside : ∀ id ∈ ids, (id, turnId, false) ∈ callKeys s) (distinct : ids.Nodup)
    (recorded : recordToolLoopEvents conversationId s stamp (ids.map (.toolCallDiscovered turnId)) = some t) :
    Discovers s t turnId ids := by
  obtain ⟨fresh, events, found, payloads, accepted, rfl⟩ := record_eq_some recorded
  have all : unrecorded s (ids.map (.toolCallDiscovered turnId)) = some (ids.map (.toolCallDiscovered turnId)) := by
    clear * -
    induction ids with
    | nil => rfl
    | cons id rest ih =>
      rw [List.map_cons, unrecorded, ih]
      rfl
  obtain rfl := Option.some.inj (found.symm.trans all)
  exact discovers_fold sound payloads accepted inside distinct

/-! ### Logs -/

theorem turnIds_updateTurn {current turn : TurnRecord}
    (found : s.findTurn turnId = some current) (same : turn.turnId = current.turnId) :
    (turnKeys (updateTurn s turn active)).map Prod.fst = (turnKeys s).map Prod.fst := by
  have named : turn.turnId = turnId := by
    rw [same]
    simpa using List.find?_some found
  rw [turnKeys, turnKeys, List.map_map, List.map_map]
  exact map_replaceFirst (named ▸ found) same

theorem turnIds_reducePayload (distinct : ((turnKeys s).map Prod.fst).Nodup) (occurredAt : Timestamp)
    (attribution : Attribution) (payload : ConversationEventPayload) :
    ((turnKeys (reducePayload s occurredAt attribution payload)).map Prod.fst).Nodup := by
  by_cases ordinary : isOrdinary payload = true
  · exact nodup_placeheld (ordinary_reducePayload occurredAt attribution ordinary).turns distinct fun key new => new.1
  · cases payload with
    | turnStarted turnId inputMessageIds continuationOfTurnId =>
      simp only [reducePayload, reduceTurnStarted]
      split
      · rename_i current found
        split
        · exact distinct
        · rw [turnIds_updateTurn found]
          · exact distinct
          · rfl
      · rename_i absent
        simp only [turnKeys, appendTurn, List.map_append, List.map_singleton]
        refine List.nodup_append.mpr ⟨distinct, List.nodup_singleton _, fun id old other last same => ?_⟩
        have named : id = turnId := same.trans (List.mem_singleton.mp last)
        exact notMem_of_findTurn absent (named ▸ old)
    | toolCallDiscovered turnId toolCallId =>
      simp only [reducePayload, reduceToolCallStage]
      split
      · split <;> exact distinct
      · exact distinct
    | toolLoopBudgetExhausted turnId budget limit =>
      simp only [reducePayload, reduceToolLoopBudgetExhausted]
      split <;> exact distinct
    | _ => exact (ordinary rfl).elim

theorem turnIds_foldEvents (distinct : ((turnKeys s).map Prod.fst).Nodup) (log : List ConversationEvent) :
    ((turnKeys (foldEvents s log)).map Prod.fst).Nodup := by
  induction log generalizing s with
  | nil => exact distinct
  | cons event rest ih =>
    refine ih ?_
    unfold reduceConversationEvent
    split
    · exact distinct
    · split
      · exact distinct
      · exact turnIds_reducePayload (s := acceptEnvelope s event) distinct _ _ _

/-- The projection of any log, when its continuations have the input of the turn that they continue. -/
theorem sound_of_log (conversationId : Option Identifier) (log : List ConversationEvent)
    (continues : ∀ key ∈ turnKeys (foldEvents (createInitialConversationState conversationId) log),
      ∀ preceding ∈ key.2.2, HasInput (foldEvents (createInitialConversationState conversationId) log) key.2.1 preceding) :
    Sound (foldEvents (createInitialConversationState conversationId) log) where
  turnIds := turnIds_foldEvents (s := createInitialConversationState conversationId) List.nodup_nil log
  callIds := by
    have ids := (foldEvents_placeholders (initial_placeholders conversationId) log).toolCallIds
    rwa [callKeys, List.map_map]
  continues := continues

end

end Handrail.Tools

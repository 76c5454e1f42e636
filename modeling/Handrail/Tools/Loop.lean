import Handrail.Runtime.Drafts
import Handrail.Tools.Executor

/-!
# `loop.ts`

`runToolLoop` hands the tool calls of one turn after the other to the executor, and keeps its
budgets in the durable log: a run may stop anywhere, and the next one counts what was discovered.
-/

namespace Handrail.Tools
open Js Conversation Handrail.Runtime

/-! ### Data -/

/-- `ToolLoopLimits`; every limit is a positive safe integer. -/
structure ToolLoopLimits where
  maxIterations : PositiveSafeInteger
  maxTotalToolCalls : PositiveSafeInteger
  maxElapsedMs : PositiveSafeInteger
  parallelism : PositiveSafeInteger

/-- `ConversationRuntimeTurnStatus` -/
inductive RuntimeTurnStatus where
  | completed
  | cancelled
  | failed
  | disconnected
  | interrupted
deriving DecidableEq, Repr

structure RuntimeError where
  code : JsString
  message : JsString
  retryable : Bool
deriving DecidableEq

/-- `ConversationRuntimeTurnResult`, without the parts that the loop passes on. -/
structure TurnResult where
  turnId : Identifier
  status : RuntimeTurnStatus
  requestId : Option JsString
  outcome : Option TurnCompletionOutcome
  error : Option RuntimeError

/-- The status of a `ToolLoopResult`, or the rejection of the run. -/
inductive LoopStatus where
  | completed (outcome : TurnCompletionOutcome)
  | cancelled
  | failed (error : Option RuntimeError)
  | externalApprovalRequired (pendingToolCallIds : List Identifier)
  | budgetExhausted (budget : ToolLoopBudget) (limit : PositiveSafeInteger)
  | rejected

structure Batch where
  calls : List ToolCallRecord
  results : List (Identifier × ToolResult)
  approvals : List Identifier

structure Pool where
  batch : Batch
  pending : List ToolCallRecord
  idle : Nat
  running : List ToolCallRecord

inductive Phase where
  | inspecting
  | discovering (calls : List ToolCallRecord)
  | counting (calls : List ToolCallRecord)
  | exhausting (budget : ToolLoopBudget) (limit : PositiveSafeInteger)
  | executing (pool : Pool)
  | recording (batch : Batch)
  | linking (batch : Batch) (approvals : List ConversationEventPayload)
  | requiring (batch : Batch) (approvals : List ConversationEventPayload)
  | continuing (batch : Batch)
  | observing (turnId : Identifier)
  | returned (status : LoopStatus)

structure ToolLoop where
  turn : TurnResult
  startedAt : Int
  iterations : Nat
  totalToolCalls : Nat
  phase : Phase

structure LoopOptions where
  conversationId : Identifier
  limits : ToolLoopLimits
  parallelToolCalls : Bool
  /-- The attribution of a continuation turn. -/
  clientSource : Source

/-! ### Readings -/

inductive WorkerMove where
  | take
  | start (index : Nat)
  | finish (index : Nat) (outcome : ExecutionOutcome)

structure Reading where
  now : Int
  aborted : Bool
  stamp : Stamp
  move : WorkerMove
  /-- `createId` for a continuation turn and its mutation. -/
  turnId : Identifier
  mutationId : Identifier
  /-- The observation of a continuation turn. -/
  status : RuntimeTurnStatus
  requestId : Option JsString
  error : Option RuntimeError

/-! ### What a run reads of the log -/

def sameLogicalInput (s : ConversationState) (inputMessageIds : List Identifier) : List Identifier :=
  (s.turns.filter fun turn => turn.inputMessageIds == inputMessageIds).map TurnRecord.turnId

def durableDiscovered (s : ConversationState) (turnIds : List Identifier) : List ToolCallRecord :=
  s.toolCalls.filter fun call => turnIds.contains call.turnId && call.discoveredAt.isSome

def startLoop (s : ConversationState) (turn : TurnResult) (now : Int) : ToolLoop :=
  let turnIds := match s.findTurn turn.turnId with
    | none => []
    | some record => sameLogicalInput s record.inputMessageIds
  let discovered := durableDiscovered s turnIds
  { turn := turn
    startedAt := ((discovered.filterMap (·.discoveredAt)).map Timestamp.time).min?.getD now
    iterations := (discovered.map ToolCallRecord.turnId).dedup.length
    totalToolCalls := discovered.length
    phase := .inspecting }

/-- `snapshot.tool_calls.filter((call) => call.turn_id === turn.turnId)` -/
def callsOf (s : ConversationState) (turnId : Identifier) : List ToolCallRecord :=
  s.toolCalls.filter fun call => call.turnId == turnId

def undiscovered (calls : List ToolCallRecord) : List ToolCallRecord :=
  calls.filter fun call => call.discoveredAt.isNone

def resultFromDurableCall (call : ToolCallRecord) : Option ToolResult := do
  let name ← call.name
  let result ← call.result
  some ⟨call.toolCallId, name, result.content, result.isError, result.citationRecords⟩

def recordsAreLinked {α : Type} (c : Codec α) (identity : α → JsString) (retained : List (Retained c))
    (records : List α) : Bool :=
  records.all fun record => retained.any fun candidate =>
    identity candidate.record == identity record && stringify candidate.json == stringify (c.encode record)

def citationRecordsAreLinked (records : CitationRecordSet) (s : ConversationState) : Bool :=
  recordsAreLinked CitationSource.codec CitationSource.sourceId s.citationSources records.sources &&
    recordsAreLinked Citation.codec Citation.citationId s.citations records.citations

/-! ### The phases -/

section
variable (options : LoopOptions)

def invalidTerminal : RuntimeError :=
  ⟨js "invalid_tool_loop_terminal", js "A tool-call completion lacked durable protocol identity", false⟩

def missingToolCalls : RuntimeError :=
  ⟨js "missing_tool_calls", js "A tool-call completion contained no durable tool calls", false⟩

def incompleteToolResults : RuntimeError :=
  ⟨js "incomplete_tool_results", js "Tool execution ended without a complete result set", true⟩

/-- `elapsed() >= bounded.maxElapsedMs` -/
def expired (loop : ToolLoop) (reading : Reading) : Bool :=
  decide ((options.limits.maxElapsedMs.value : Int) ≤ max 0 (reading.now - loop.startedAt))

def inspectCalls (s : ConversationState) (loop : ToolLoop) : Phase :=
  let calls := callsOf s loop.turn.turnId
  if calls.isEmpty then .returned (.failed (some missingToolCalls))
  else match s.toolLoopBudgetExhaustions.find? fun item => item.turnId == loop.turn.turnId with
    | some prior => .returned (.budgetExhausted prior.budget prior.limit)
    | none => if (undiscovered calls).isEmpty then .counting calls else .discovering calls

def inspect (s : ConversationState) (loop : ToolLoop) (reading : Reading) : Phase :=
  if reading.aborted then .returned .cancelled
  else if expired options loop reading then .exhausting .wallClock options.limits.maxElapsedMs
  else match loop.turn.status with
    | .cancelled => .returned .cancelled
    | .failed | .disconnected | .interrupted => .returned (.failed loop.turn.error)
    | .completed =>
      match loop.turn.outcome with
      | some .stop => .returned (.completed .stop)
      | some .length => .returned (.completed .length)
      | none => .returned (.failed (some invalidTerminal))
      | some .toolCalls =>
        if loop.turn.requestId.isNone then .returned (.failed (some invalidTerminal)) else inspectCalls s loop

def openPool (calls : List ToolCallRecord) : Pool :=
  let results := calls.filterMap fun call => (resultFromDurableCall call).map (call.toolCallId, ·)
  let pending := calls.filter fun call => !results.any fun entry => entry.1 == call.toolCallId
  { batch := ⟨calls, results, []⟩
    pending := pending
    idle := if options.parallelToolCalls && decide (1 < options.limits.parallelism.value) then
        min options.limits.parallelism.value (max 1 pending.length) else 1
    running := [] }

def count (loop : ToolLoop) (calls : List ToolCallRecord) : ToolLoop :=
  let newlyCounted := (undiscovered calls).length
  if 0 < newlyCounted ∧ options.limits.maxIterations.value ≤ loop.iterations then
    { loop with phase := .exhausting .iterations options.limits.maxIterations }
  else if options.limits.maxTotalToolCalls.value < loop.totalToolCalls + newlyCounted then
    { loop with phase := .exhausting .totalToolCalls options.limits.maxTotalToolCalls }
  else { loop with
    totalToolCalls := loop.totalToolCalls + newlyCounted
    iterations := if 0 < newlyCounted then loop.iterations + 1 else loop.iterations
    phase := .executing (openPool options calls) }

def setResult (results : List (Identifier × ToolResult)) (toolCallId : Identifier) (result : ToolResult) :
    List (Identifier × ToolResult) :=
  if results.any fun entry => entry.1 == toolCallId then
    results.map fun entry => if entry.1 == toolCallId then (toolCallId, result) else entry
  else results ++ [(toolCallId, result)]

def addApproval (approvals : List Identifier) (toolCallId : Identifier) : List Identifier :=
  if approvals.contains toolCallId then approvals else approvals ++ [toolCallId]

/-- A worker takes the next call, or returns. The call that it hands to the executor is the second part. -/
def takeCall (pool : Pool) (stopped : Bool) : Pool × Option ToolCallRecord :=
  match pool.pending with
  | [] => ({ pool with idle := pool.idle - 1 }, none)
  | call :: rest =>
    if stopped then ({ pool with idle := pool.idle - 1 }, none)
    else if call.name.isNone || call.arguments.isNone then ({ pool with pending := rest, idle := pool.idle - 1 }, none)
    else ({ pool with pending := rest, idle := pool.idle - 1, running := pool.running ++ [call] }, some call)

def finishCall (pool : Pool) (stopped : Bool) (index : Nat) (outcome : ExecutionOutcome) : Pool :=
  match pool.running[index]? with
  | none => pool
  | some call =>
    let pool := { pool with running := pool.running.eraseIdx index }
    if stopped then pool
    else match outcome with
      | .externalApprovalRequired =>
        { pool with idle := pool.idle + 1, batch := { pool.batch with
          approvals := addApproval pool.batch.approvals call.toolCallId } }
      | .completed result =>
        { pool with idle := pool.idle + 1, batch := { pool.batch with
          results := setResult pool.batch.results call.toolCallId result } }

def resultEvents (turnId : Identifier) (batch : Batch) : List ConversationEventPayload :=
  (batch.calls.filter fun call => call.result.isNone).filterMap fun call =>
    (batch.results.lookup call.toolCallId).map fun result =>
      .toolCallResultRecorded turnId result.toolCallId result.content result.isError result.citationRecords

def citationEvents (s : ConversationState) (turnId : Identifier) (batch : Batch) : List ConversationEventPayload :=
  batch.calls.filterMap fun call => do
    let stored ← s.toolCalls.find? fun candidate => candidate.turnId == turnId && candidate.toolCallId == call.toolCallId
    let result ← stored.result
    let records ← result.citationRecords
    if citationRecordsAreLinked records s then none
    else some (.citationRecordsLinked (.toolResult turnId stored.toolCallId) records)

def approvalEvents (s : ConversationState) (turnId : Identifier) (batch : Batch) : List ConversationEventPayload :=
  (batch.approvals.filter fun id => (s.findToolCall id).any fun call => call.approvalRequiredAt.isNone).map
    (.toolCallApprovalRequired turnId)

def usesTurn (s : ConversationState) (turnId : Identifier) : Bool :=
  s.turns.any (fun turn => turn.turnId == turnId) || s.toolCalls.any fun call => call.turnId == turnId

/-- The draft of `continueTurn` -/
def continuationDraft (preceding : TurnRecord) (reading : Reading) : EventDraft where
  actor := ⟨.assistant, none⟩
  source := options.clientSource
  mutationId := some reading.mutationId
  metadata := none
  payload := .turnStarted reading.turnId preceding.inputMessageIds (some preceding.turnId)

/-- `continueTurn` up to the observation of the turn. -/
def continueTurn (s : ConversationState) (precedingTurnId : Identifier) (reading : Reading) :
    ConversationState × Phase :=
  match s.turns.find? fun turn => turn.continuationOfTurnId == some precedingTurnId with
  | some existing => (s, .observing existing.turnId)
  | none =>
    match s.findTurn precedingTurnId with
    | none => (s, .returned .rejected)
    | some preceding =>
      if preceding.status ≠ .completed ∨ preceding.outcome ≠ some .toolCalls ∨ preceding.inputMessageIds = [] then
        (s, .returned .rejected)
      -- `createId` makes an identity that nothing has; another turn may be active.
      else if usesTurn s reading.turnId || s.activeTurnId.isSome then (s, .returned .rejected)
      else match persist options.conversationId s reading.stamp [continuationDraft options preceding reading] with
        | some started => (started, .observing reading.turnId)
        | none => (s, .returned .rejected)

/-! ### Steps -/

structure LoopSystem where
  state : ConversationState
  loop : Option ToolLoop
  handed : List ToolCallRecord

/-- A step of the pool: a call is handed over, the executor begins or answers, or the workers are done. -/
def execute (s : ConversationState) (loop : ToolLoop) (pool : Pool) (reading : Reading) :
    ConversationState × Phase × Option ToolCallRecord :=
  let stopped := reading.aborted || expired options loop reading
  if pool.idle = 0 ∧ pool.running = [] then
    if reading.aborted then (s, .returned .cancelled, none)
    else if expired options loop reading then (s, .exhausting .wallClock options.limits.maxElapsedMs, none)
    else (s, .recording pool.batch, none)
  else match reading.move with
    | .take =>
      if pool.idle = 0 then (s, .executing pool, none)
      else (s, .executing (takeCall pool stopped).1, (takeCall pool stopped).2)
    | .start index =>
      match pool.running[index]? with
      | none => (s, .executing pool, none)
      | some call =>
        -- A failed `onExecutionStarted` becomes the outcome of the call.
        let recorded := if call.startedAt.isNone then
          recordToolLoopEvents options.conversationId s reading.stamp [.toolCallStarted loop.turn.turnId call.toolCallId]
          else some s
        (recorded.getD s, .executing pool, none)
    | .finish index outcome => (s, .executing (finishCall pool stopped index outcome), none)

def recordThen (s : ConversationState) (reading : Reading) (payloads : List ConversationEventPayload) (next : Phase) :
    ConversationState × Phase :=
  match recordToolLoopEvents options.conversationId s reading.stamp payloads with
  | some recorded => (recorded, next)
  | none => (s, .returned .rejected)

def exhaust (s : ConversationState) (loop : ToolLoop) (reading : Reading) (budget : ToolLoopBudget)
    (limit : PositiveSafeInteger) : ConversationState × Phase :=
  if s.toolLoopBudgetExhaustions.any fun item => item.turnId == loop.turn.turnId && item.budget == budget then
    (s, .returned (.budgetExhausted budget limit))
  else recordThen options s reading [.toolLoopBudgetExhausted loop.turn.turnId budget limit]
    (.returned (.budgetExhausted budget limit))

def advance (s : ConversationState) (loop : ToolLoop) (reading : Reading) :
    ConversationState × ToolLoop × Option ToolCallRecord :=
  let turnId := loop.turn.turnId
  let enter (next : ConversationState × Phase) : ConversationState × ToolLoop × Option ToolCallRecord :=
    (next.1, { loop with phase := next.2 }, none)
  match loop.phase with
  | .inspecting => enter (s, inspect options s loop reading)
  | .discovering calls =>
    enter (recordThen options s reading
      ((undiscovered calls).map fun call => .toolCallDiscovered turnId call.toolCallId) (.counting calls))
  | .counting calls => (s, count options loop calls, none)
  | .exhausting budget limit => enter (exhaust options s loop reading budget limit)
  | .executing pool =>
    let (next, phase, handed) := execute options s loop pool reading
    (next, { loop with phase := phase }, handed)
  | .recording batch =>
    enter (recordThen options s reading (resultEvents turnId batch) (.linking batch (approvalEvents s turnId batch)))
  | .linking batch approvals =>
    enter (recordThen options s reading (citationEvents s turnId batch) (.requiring batch approvals))
  | .requiring batch approvals =>
    enter (recordThen options s reading approvals
      (if !batch.approvals.isEmpty then .returned (.externalApprovalRequired batch.approvals)
        else if batch.results.length ≠ batch.calls.length then .returned (.failed (some incompleteToolResults))
        else .continuing batch))
  | .continuing _ =>
    if reading.aborted then enter (s, .returned .cancelled) else enter (continueTurn options s turnId reading)
  | .observing next =>
    (s, { loop with
      turn := ⟨next, reading.status, reading.requestId, (s.findTurn next).bind (·.outcome), reading.error⟩
      phase := .inspecting }, none)
  | .returned _ => (s, loop, none)

/-- Another writer: it records neither discoveries nor exhaustions, its turns are new, and a continuation has the
input of the turn that it continues. -/
def admits (s : ConversationState) (event : ConversationEvent) : Bool :=
  match event.payload with
  | .toolCallDiscovered .. | .toolLoopBudgetExhausted .. => false
  | .turnStarted turnId inputMessageIds continuationOfTurnId =>
    !usesTurn s turnId && continuationOfTurnId.all fun preceding =>
      s.turns.any fun turn => turn.turnId == preceding && turn.inputMessageIds == inputMessageIds
  | _ => true

inductive LoopAction where
  /-- A run begins; the one before, if it has not returned, was cut off. -/
  | start (turn : TurnResult) (now : Int)
  | advance (reading : Reading)
  | outside (event : ConversationEvent)

def step (system : LoopSystem) : LoopAction → LoopSystem
  -- The runtime observed the initial turn, so it has a record.
  | .start turn now =>
    if (system.state.findTurn turn.turnId).isNone then system
    else { system with loop := some (startLoop system.state turn now) }
  | .advance reading =>
    match system.loop with
    | none => system
    | some loop =>
      let (state, next, handed) := advance options system.state loop reading
      ⟨state, some next, system.handed ++ handed.toList⟩
  | .outside event =>
    if admits system.state event then { system with state := reduceConversationEvent system.state event } else system

def run (system : LoopSystem) (actions : List LoopAction) : LoopSystem := actions.foldl (step options) system

end

end Handrail.Tools

import Handrail.Conversation.Events
import Handrail.Js.JsonReading

/-!
# `executor.ts`

`BoundedToolExecutor` with its default ledger: every call of `executeDetailed` moves on its own
between the operations that it awaits, and so does the execution that a ledger entry stands for.
Policies, registries, coordinators, executors and signals are readings from outside; so is the
limiter, which decides when an execution may begin.
-/

namespace Handrail.Tools
open Js Conversation

/-! ### Results -/

/-- `ApplicationToolResult` -/
structure ToolResult where
  toolCallId : Identifier
  name : Identifier
  content : List ToolResultPart
  isError : Bool
  citationRecords : Option CitationRecordSet

/-- `BoundedToolExecutionOutcome` -/
inductive ExecutionOutcome where
  | completed (result : ToolResult)
  | externalApprovalRequired

inductive ToolError where
  | invalidIdentifiers
  | invalidArguments
  | identityConflict
  | unavailable
  | denied
  | invalidDecision
  | authorizationFailed
  | approvalUnavailable
  | approvalUnverified
  | resultUnavailable
  | cancelled
  | timedOut
  | unrecorded
  | invalidOutput
  | executionFailed
  | resultUnrecorded
deriving DecidableEq, Repr

def ToolError.message : ToolError → String
  | .invalidIdentifiers => "Tool call identifiers are invalid."
  | .invalidArguments => "Tool arguments did not match the declared schema."
  | .identityConflict => "Tool call identity conflicts with its original request."
  | .unavailable => "Tool is unavailable for this call."
  | .denied => "Tool execution was denied by application policy."
  | .invalidDecision => "Tool authorization returned an invalid decision."
  | .authorizationFailed => "Tool authorization could not be completed."
  | .approvalUnavailable => "Tool approval could not be checked right now."
  | .approvalUnverified => "Tool approval could not be verified."
  | .resultUnavailable => "Tool execution result is temporarily unavailable."
  | .cancelled => "Tool execution was cancelled."
  | .timedOut => "Tool execution timed out."
  | .unrecorded => "Tool execution could not be recorded."
  | .invalidOutput => "Tool returned an invalid or unsafe result."
  | .executionFailed => "Tool execution failed."
  | .resultUnrecorded => "Tool execution result could not be recorded."

def errorResult (toolCallId name : Identifier) (error : ToolError) : ToolResult where
  toolCallId := toolCallId
  name := name
  content := [.text (js error.message)]
  isError := true
  citationRecords := none

def abortError (timedOut : Bool) : ToolError := if timedOut then .timedOut else .cancelled

/-! ### Requests -/

/-- `ApplicationToolCall`, with `none` for arguments that are not plain JSON data. -/
structure ApplicationToolCall where
  toolCallId : JsString
  name : JsString
  arguments : Option Json

/-- `BoundedToolExecutionRequest`: what the executor itself reads. -/
structure ExecutionRequest where
  call : ApplicationToolCall
  executionKey : Option JsString
  approval : Bool

def safeIdentifier (value : JsString) (fallback : Identifier) : Identifier :=
  if nonempty : 0 < value.length then
    ⟨⟨value.units.take 256⟩, .inr (by simpa [JsString.length, List.length_pos_iff] using nonempty),
      List.length_take_le 256 value.units⟩
  else fallback

def unknownToolCall : Identifier := ⟨js "unknown_tool_call", by decide, by decide⟩

def unknownTool : Identifier := ⟨js "unknown_tool", by decide, by decide⟩

def invalidExecutionKey : Identifier := ⟨js "invalid_execution_key", by decide, by decide⟩

mutual
/-- `visit` of `cloneArguments`: the number of values seen so far. -/
def visitArguments (depth nodes : Nat) : Json → Option Nat
  | .arr items =>
    if 10000 < nodes + 1 ∨ 20 < depth ∨ 10000 < items.length then none
    else visitArgumentItems (depth + 1) (nodes + 1) items
  | .obj fields =>
    if 10000 < nodes + 1 ∨ 20 < depth then none else visitArgumentFields (depth + 1) (nodes + 1) fields
  | _ => if 10000 < nodes + 1 ∨ 20 < depth then none else some (nodes + 1)

def visitArgumentItems (depth nodes : Nat) : List Json → Option Nat
  | [] => some nodes
  | item :: rest => do visitArgumentItems depth (← visitArguments depth nodes item) rest

def visitArgumentFields (depth nodes : Nat) : Fields → Option Nat
  | [] => some nodes
  | (_, value) :: rest => do visitArgumentFields depth (← visitArguments depth nodes value) rest
end

def cloneArguments : Option Json → Option Fields
  | some (.obj fields) => (visitArguments 0 0 (.obj fields)).map fun _ => fields
  | _ => none

def canonicalToolJson (value : Json) : JsString := stringify value.canonical

def toolRequestFingerprint (toolCallId name : Identifier) (arguments_ : Fields) : JsString :=
  canonicalToolJson (.object [("toolCallId", .str toolCallId.text), ("name", .str name.text), ("arguments", .obj arguments_)])

theorem toolRequestFingerprint_inj {toolCallId name toolCallId' name' : Identifier} {arguments_ arguments' : Fields}
    (same : toolRequestFingerprint toolCallId name arguments_ = toolRequestFingerprint toolCallId' name' arguments') :
    toolCallId = toolCallId' ∧ name = name' := by
  rw [toolRequestFingerprint, toolRequestFingerprint, canonicalToolJson, canonicalToolJson, stringify_canonical_inj,
    Json.roundTrip_object, Json.roundTrip_object] at same
  have called := Json.canonical_get (by simp [Json.keys, Json.fieldsOf]) same (by simp [Json.keys, Json.fieldsOf])
    (js "toolCallId")
  have named := Json.canonical_get (by simp [Json.keys, Json.fieldsOf]) same (by simp [Json.keys, Json.fieldsOf])
    (js "name")
  simp [Json.fieldsOf, List.lookup_cons, Json.canonical] at called named
  exact ⟨BoundedText.ext called, BoundedText.ext named⟩

/-! ### Calls and ledger entries -/

/-- What the promise of `executeDetailed` settles with. -/
inductive CallOutcome where
  | returned (outcome : ExecutionOutcome)
  | rejected

inductive WaitReason where
  /-- The entry was there when the call began. -/
  | retained
  /-- An approval that was used already. -/
  | reusing
  | executing
deriving DecidableEq

/-- What a call of `executeDetailed` waits for. -/
inductive CallPhase (Ref : Type) where
  | joined (owner : Ref)
  | authorizing
  | claiming
  | waiting (reason : WaitReason)
  /-- `fromLedger` tells the result that the ledger retains from the ones that a call makes itself. -/
  | finished (outcome : CallOutcome) (fromLedger : Bool)

/-- A call of `executeDetailed`. -/
structure Call (Executor Ref : Type) where
  executor : Executor
  toolCallId : Identifier
  name : Identifier
  key : Identifier
  fingerprint : Option JsString
  approval : Bool
  phase : CallPhase Ref

/-- `ApprovalExecutionFailureReason`, as far as the executor gives it. -/
inductive FailureReason where
  | executionTimedOut
  | executionCancelled
  | invalidToolOutput
  | toolExecutionFailed
  | executionRecordingFailed
deriving DecidableEq

/-- Where the execution of a ledger entry stands; `none` is a rejected promise. -/
inductive ExecutionPhase where
  | starting
  | acquiring
  | invoking
  | settling (result : ToolResult) (failureReason : Option FailureReason)
  | settled (result : Option ToolResult)

/-- An entry of `InMemoryToolExecutionLedger` with the execution that its promise stands for. -/
structure LedgerEntry (Ref : Type) where
  fingerprint : Option JsString
  creator : Ref
  toolCallId : Identifier
  name : Identifier
  claimed : Bool
  phase : ExecutionPhase

/-- An entry of `#operations`. -/
structure Operation (Ref : Type) where
  fingerprint : Option JsString
  owner : Ref

/-- The calls, the ledger that the executors share, the operations of each, and the invocations of registered
executor functions, in order. -/
@[ext] structure ExecutorState (Executor Ref : Type) where
  calls : Ref → Option (Call Executor Ref)
  ledger : Identifier → Option (LedgerEntry Ref)
  operations : Executor → Identifier → Option (Operation Ref)
  invocations : List (Identifier × Ref)

/-! ### Readings -/

/-- The synchronous part of `#executeDetailedOnce`. -/
inductive DisclosureReading where
  | aborted
  | unavailable
  | invalidArguments
  | disclosed

inductive PolicyReading where
  | allow
  | deny
  /-- `coordinated` is `approvalCoordinator !== undefined`. -/
  | externalApprovalRequired (coordinated : Bool)
  | invalid
  | failed
  | aborted (timedOut : Bool)

inductive ClaimReading where
  | approvalRequired
  | reuse
  | claimed
  | cancelled
  | unavailable
  | refused
  | failed
  | aborted (timedOut : Bool)

inductive ExecutionReading where
  | started
  | startFailed
  | acquired
  | returned (content : List ToolResultPart) (citationRecords : Option CitationRecordSet)
  | invalidOutput
  | threw
  | aborted (timedOut : Bool)
  | recorded
  | unrecorded
  | settleFailed

inductive Move (Executor : Type) where
  | execute (executor : Executor) (request : ExecutionRequest) (reading : DisclosureReading)
  | decide (reading : PolicyReading)
  | claim (reading : ClaimReading)
  | abort (timedOut : Bool)
  /-- The promise that the call waits for has settled. -/
  | resume
  /-- The `finally` of an operation. -/
  | forget
  /-- The execution of the entry that the call created. -/
  | work (reading : ExecutionReading)

/-! ### Steps -/

namespace Call
variable {Executor Ref : Type}

def returns (call : Call Executor Ref) (outcome : ExecutionOutcome) : Call Executor Ref :=
  { call with phase := .finished (.returned outcome) false }

def fails (call : Call Executor Ref) (error : ToolError) : Call Executor Ref :=
  call.returns (.completed (errorResult call.toolCallId call.name error))

end Call

namespace LedgerEntry
variable {Ref : Type}

def close (entry : LedgerEntry Ref) (result : ToolResult) (failureReason : Option FailureReason) : LedgerEntry Ref :=
  { entry with phase := if entry.claimed then .settling result failureReason else .settled (some result) }

def closeError (entry : LedgerEntry Ref) (error : ToolError) (failureReason : FailureReason) : LedgerEntry Ref :=
  entry.close (errorResult entry.toolCallId entry.name error) (some failureReason)

def closeAborted (entry : LedgerEntry Ref) (timedOut : Bool) : LedgerEntry Ref :=
  entry.closeError (abortError timedOut) (if timedOut then .executionTimedOut else .executionCancelled)

def work (entry : LedgerEntry Ref) (reading : ExecutionReading) : LedgerEntry Ref :=
  match entry.phase, reading with
  | .starting, .started => { entry with phase := .acquiring }
  | .starting, .startFailed => entry.closeError .executionFailed .executionRecordingFailed
  | .acquiring, .acquired => { entry with phase := .invoking }
  | .acquiring, .aborted timedOut => entry.closeAborted timedOut
  | .invoking, .returned content citationRecords =>
    entry.close ⟨entry.toolCallId, entry.name, content, false, citationRecords⟩ none
  | .invoking, .invalidOutput => entry.closeError .invalidOutput .invalidToolOutput
  | .invoking, .threw => entry.closeError .executionFailed .toolExecutionFailed
  | .invoking, .aborted timedOut => entry.closeAborted timedOut
  | .settling result _, .recorded => { entry with phase := .settled (some result) }
  | .settling _ _, .unrecorded =>
    { entry with phase := .settled (some (errorResult entry.toolCallId entry.name .resultUnrecorded)) }
  | .settling _ _, .settleFailed => { entry with phase := .settled none }
  | _, _ => entry

def invokes (entry : LedgerEntry Ref) (reading : ExecutionReading) : Bool :=
  match entry.phase, reading with
  | .acquiring, .acquired => true
  | _, _ => false

end LedgerEntry

inductive LedgerAnswer where
  | missing
  | conflict
  | retained

namespace ExecutorState
variable {Executor Ref : Type} [DecidableEq Executor] [DecidableEq Ref]

def new : ExecutorState Executor Ref := ⟨fun _ => none, fun _ => none, fun _ _ => none, []⟩

def setCall (s : ExecutorState Executor Ref) (ref : Ref) (call : Call Executor Ref) : ExecutorState Executor Ref :=
  { s with calls := Function.update s.calls ref (some call) }

/-- `InMemoryToolExecutionLedger.get` -/
def get (s : ExecutorState Executor Ref) (key : Identifier) (fingerprint : Option JsString) : LedgerAnswer :=
  match s.ledger key with
  | none => .missing
  | some entry => if entry.fingerprint = fingerprint then .retained else .conflict

/-- `#executeDetailedOnce` up to its first awaited promise. -/
def disclose (call : Call Executor Ref) : DisclosureReading → Call Executor Ref
  | .aborted => call.fails .cancelled
  | .unavailable => call.fails .unavailable
  | .invalidArguments => call.fails .invalidArguments
  | .disclosed => { call with phase := .authorizing }

/-- The part of `executeDetailed` after the request has its fingerprint. -/
def enter (s : ExecutorState Executor Ref) (ref : Ref) (call : Call Executor Ref) (reading : DisclosureReading) :
    ExecutorState Executor Ref :=
  if call.approval then s.setCall ref (disclose call reading)
  else match s.get call.key call.fingerprint with
    | .conflict => s.setCall ref (call.fails .identityConflict)
    | .retained => s.setCall ref { call with phase := .waiting .retained }
    | .missing =>
      match s.operations call.executor call.key with
      | some operation =>
        if operation.fingerprint = call.fingerprint then s.setCall ref { call with phase := .joined operation.owner }
        else s.setCall ref (call.fails .identityConflict)
      | none =>
        { s.setCall ref (disclose call reading) with
          operations := Function.update s.operations call.executor
            (Function.update (s.operations call.executor) call.key (some ⟨call.fingerprint, ref⟩)) }

def admitted (executor : Executor) (request : ExecutionRequest) : Call Executor Ref :=
  let toolCallId := safeIdentifier request.call.toolCallId unknownToolCall
  let name := safeIdentifier request.call.name unknownTool
  let executionKey := request.executionKey.getD toolCallId.text
  let key := safeIdentifier executionKey invalidExecutionKey
  let call : Call Executor Ref := ⟨executor, toolCallId, name, key, none, request.approval, .authorizing⟩
  if toolCallId.text ≠ request.call.toolCallId ∨ name.text ≠ request.call.name ∨ executionKey ≠ key.text then
    call.fails .invalidIdentifiers
  else match cloneArguments request.call.arguments with
    | none => call.fails .invalidArguments
    | some arguments_ => { call with fingerprint := some (toolRequestFingerprint toolCallId name arguments_) }

/-- `executeDetailed` up to its first awaited promise. -/
def execute (s : ExecutorState Executor Ref) (ref : Ref) (executor : Executor) (request : ExecutionRequest)
    (reading : DisclosureReading) : ExecutorState Executor Ref :=
  let call := admitted executor request
  if call.fingerprint.isNone then s.setCall ref call else s.enter ref call reading

/-- `#executeAuthorized` up to the promise of the ledger. -/
def authorize (s : ExecutorState Executor Ref) (ref : Ref) (call : Call Executor Ref) (claimed : Bool) :
    ExecutorState Executor Ref :=
  match s.get call.key call.fingerprint with
  | .conflict => s.setCall ref (call.fails .identityConflict)
  | .retained => s.setCall ref { call with phase := .waiting .executing }
  | .missing =>
    { s.setCall ref { call with phase := .waiting .executing } with
      ledger := Function.update s.ledger call.key
        (some ⟨call.fingerprint, ref, call.toolCallId, call.name, claimed, .starting⟩) }

def afterPolicy (s : ExecutorState Executor Ref) (ref : Ref) (call : Call Executor Ref) :
    PolicyReading → ExecutorState Executor Ref
  | .allow => s.authorize ref call false
  | .deny => s.setCall ref (call.fails .denied)
  | .externalApprovalRequired coordinated =>
    if call.approval && coordinated then s.setCall ref { call with phase := .claiming }
    else s.setCall ref (call.returns .externalApprovalRequired)
  | .invalid => s.setCall ref (call.fails .invalidDecision)
  | .failed => s.setCall ref (call.fails .authorizationFailed)
  | .aborted timedOut => s.setCall ref (call.fails (abortError timedOut))

def afterClaim (s : ExecutorState Executor Ref) (ref : Ref) (call : Call Executor Ref) :
    ClaimReading → ExecutorState Executor Ref
  | .approvalRequired => s.setCall ref (call.returns .externalApprovalRequired)
  | .reuse =>
    match s.get call.key call.fingerprint with
    | .missing => s.setCall ref (call.fails .resultUnavailable)
    | .conflict => s.setCall ref (call.fails .identityConflict)
    | .retained => s.setCall ref { call with phase := .waiting .reusing }
  | .claimed => s.authorize ref call true
  | .cancelled => s.setCall ref (call.fails .cancelled)
  | .unavailable => s.setCall ref (call.fails .approvalUnavailable)
  | .refused | .failed => s.setCall ref (call.fails .approvalUnverified)
  | .aborted timedOut => s.setCall ref (call.fails (abortError timedOut))

def receive (s : ExecutorState Executor Ref) (ref : Ref) (call : Call Executor Ref) (reason : WaitReason) :
    ExecutorState Executor Ref :=
  match (s.ledger call.key).map LedgerEntry.phase with
  | some (.settled (some result)) =>
    s.setCall ref { call with phase := .finished (.returned (.completed result)) true }
  | some (.settled none) =>
    match reason with
    | .retained => s.setCall ref { call with phase := .finished .rejected false }
    | .reusing => s.setCall ref (call.fails .approvalUnverified)
    | .executing => s.setCall ref (call.fails .unrecorded)
  | _ => s

def resume (s : ExecutorState Executor Ref) (ref : Ref) (call : Call Executor Ref) : ExecutorState Executor Ref :=
  match call.phase with
  | .joined owner =>
    match (s.calls owner).map Call.phase with
    | some (.finished outcome fromLedger) => s.setCall ref { call with phase := .finished outcome fromLedger }
    | _ => s
  | .waiting reason => s.receive ref call reason
  | _ => s

/-- The signal fires while the call waits for the ledger; the promise that was there at first is awaited without it. -/
def abort (s : ExecutorState Executor Ref) (ref : Ref) (call : Call Executor Ref) (timedOut : Bool) :
    ExecutorState Executor Ref :=
  match call.phase with
  | .waiting .reusing | .waiting .executing => s.setCall ref (call.fails (abortError timedOut))
  | _ => s

def forget (s : ExecutorState Executor Ref) (ref : Ref) (call : Call Executor Ref) : ExecutorState Executor Ref :=
  match call.phase with
  | .finished .. =>
    if (s.operations call.executor call.key).any (·.owner = ref) then
      { s with
        operations := Function.update s.operations call.executor
          (Function.update (s.operations call.executor) call.key none) }
    else s
  | _ => s

def work (s : ExecutorState Executor Ref) (ref : Ref) (call : Call Executor Ref) (reading : ExecutionReading) :
    ExecutorState Executor Ref :=
  match s.ledger call.key with
  | none => s
  | some entry =>
    if entry.creator = ref then
      { s with
        ledger := Function.update s.ledger call.key (some (entry.work reading))
        invocations := s.invocations ++ (if entry.invokes reading then [(call.key, ref)] else []) }
    else s

def step (s : ExecutorState Executor Ref) (ref : Ref) (move : Move Executor) : ExecutorState Executor Ref :=
  match s.calls ref with
  | none =>
    match move with
    | .execute executor request reading => s.execute ref executor request reading
    | _ => s
  | some call =>
    match move with
    | .execute .. => s
    | .decide reading =>
      match call.phase with
      | .authorizing => s.afterPolicy ref call reading
      | _ => s
    | .claim reading =>
      match call.phase with
      | .claiming => s.afterClaim ref call reading
      | _ => s
    | .abort timedOut => s.abort ref call timedOut
    | .resume => s.resume ref call
    | .forget => s.forget ref call
    | .work reading => s.work ref call reading

def run (s : ExecutorState Executor Ref) (moves : List (Ref × Move Executor)) : ExecutorState Executor Ref :=
  moves.foldl (fun s move => s.step move.1 move.2) s

end ExecutorState

end Handrail.Tools

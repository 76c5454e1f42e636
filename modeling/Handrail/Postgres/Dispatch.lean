import Handrail.Concurrent.Programs
import Handrail.Js.Json
import Handrail.Postgres.Documents
import Mathlib.Logic.Function.Basic

/-!
# Dispatch claims in Postgres

`getOrExecuteTool` and `PostgresProviderOperationStore.run` commit a claim, call the outside, and
commit its result. Between the commits a worker can crash, and each commit can be lost or lose its
acknowledgement.
-/

namespace Handrail.Postgres
open Js Concurrent

/-! ### The calls -/

/-- What a claim is for: the tool call of a tenant, or the provider operation of a tenant and a scope. -/
inductive DispatchIdentity where
  | tool (tenantId toolCallId : JsString)
  | provider (key : DocumentKey)
deriving DecidableEq

inductive DispatchCall where
  | getOrExecuteTool (number : Nat) (tenantId toolCallId : JsString) (requestFingerprint : Option JsString)
  | run (number : Nat) (key : DocumentKey) (requestFingerprint : JsString) (parseResult : Json → Option Json)

namespace DispatchCall

def number : DispatchCall → Nat
  | .getOrExecuteTool n _ _ _ => n
  | .run n _ _ _ => n

def identity : DispatchCall → DispatchIdentity
  | .getOrExecuteTool _ tenantId toolCallId _ => .tool tenantId toolCallId
  | .run _ key _ _ => .provider key

def requestFingerprint : DispatchCall → Option JsString
  | .getOrExecuteTool _ _ _ fingerprint => fingerprint
  | .run _ _ fingerprint _ => some fingerprint

def parseResult : DispatchCall → Json → Option Json
  | .getOrExecuteTool _ _ _ _ => some
  | .run _ _ _ parse => parse

end DispatchCall

/-! ### The tables -/

inductive ProviderOperationStatus where
  | started
  | completed
deriving DecidableEq, Repr

/-- `ProviderOperationRecord` of the version 1. -/
structure ProviderOperationRecord where
  fingerprint : JsString
  status : ProviderOperationStatus
  result : Option Json

/-- The record that `JSON.stringify` writes. -/
def ProviderOperationRecord.stringify (record : ProviderOperationRecord) : ProviderOperationRecord :=
  { record with result := record.result.map Json.roundTrip }

/-- The tables, and what happened: the calls that were admitted, and the calls whose `execute` was started. -/
structure DispatchState where
  operations : Table ProviderOperationRecord
  /-- The `tool_execution` documents, as their `fingerprint`. -/
  claims : JsString → JsString → Option (Option JsString)
  /-- `handrail_ai_tool_ledger` -/
  ledger : JsString → JsString → Option Json
  admitted : DispatchIdentity → Option Nat
  executions : List DispatchCall

/-- How the admission transaction of `getOrExecuteTool` ends. -/
inductive ToolAdmission where
  /-- `ToolExecutionIdentityConflictError` -/
  | identityConflict
  | completed (result : Json)
  /-- `PostgresToolExecutionUncertainError` -/
  | uncertain
  | admitted

inductive DispatchOp where
  /-- The admission transaction, for a fingerprint that is hashed. -/
  | admitTool (number : Nat) (tenantId toolCallId : JsString) (fingerprint : Option JsString)
  /-- `INSERT INTO handrail_ai_tool_ledger` -/
  | insertResult (tenantId toolCallId : JsString) (result : Json)
  | getOperation (key : DocumentKey)
  | setOperation (number : Nat) (key : DocumentKey) (expectedVersion : Option Nat) (record : ProviderOperationRecord)
  /-- The start of `execute`. -/
  | execute (call : DispatchCall)

def DispatchReply : DispatchOp → Type
  | .admitTool _ _ _ _ => ToolAdmission
  | .insertResult _ _ _ => Bool
  | .getOperation _ => Persisted (Option (Versioned ProviderOperationRecord))
  | .setOperation _ _ _ _ => Persisted Unit
  | .execute _ => Unit

namespace DispatchState

def putRow {α : Type} (rows : JsString → JsString → Option α) (a b : JsString) (row : α) :
    JsString → JsString → Option α := fun x y => if x = a ∧ y = b then some row else rows x y

def perform : (op : DispatchOp) → DispatchState → DispatchState × DispatchReply op
  | .admitTool number tenantId toolCallId fingerprint, s =>
    let existing := s.ledger tenantId toolCallId
    let claim := s.claims tenantId toolCallId
    if (existing.isSome ∨ claim.isSome) ∧ claim.getD none ≠ fingerprint then (s, .identityConflict)
    else
      match existing with
      | some result => (s, .completed result.roundTrip)
      | none =>
        if claim.isSome then (s, .uncertain)
        else
          ({ s with
            claims := putRow s.claims tenantId toolCallId fingerprint
            admitted := Function.update s.admitted (.tool tenantId toolCallId) (some number) }, .admitted)
  | .insertResult tenantId toolCallId result, s =>
    if (s.ledger tenantId toolCallId).isSome then (s, false)
    else ({ s with ledger := putRow s.ledger tenantId toolCallId result.roundTrip }, true)
  | .getOperation key, s => (s, getDocument s.operations key)
  | .setOperation number key expectedVersion record, s =>
    match compareAndSetDocument (fun _ => true) s.operations key expectedVersion record.stringify with
    | .ok (operations, _) =>
      ({ s with
        operations
        admitted := if expectedVersion.isNone then Function.update s.admitted (.provider key) (some number)
          else s.admitted }, .ok ())
    | .error e => (s, .error e)
  | .execute call, s => ({ s with executions := s.executions ++ [call] }, ())

end DispatchState

/-! ### The programs -/

/-- What a step reads from the outside: the fault of a query, and the end of `execute`, `none` when it rejects. -/
structure DispatchReading where
  fault : Fault
  executed : Option Json

structure Returned where
  call : DispatchCall
  value : Json

abbrev DispatchProgram := Program DispatchOp DispatchReply DispatchReading DispatchCall Returned

def attempt (op : DispatchOp) (next : DispatchReply op → DispatchProgram) (thrown : DispatchProgram) : DispatchProgram :=
  .read fun reading =>
    match reading.fault with
    | .none => .call op next
    | .before => thrown
    | .after => .call op fun _ => thrown

/-- `execute()`, with what follows its result. -/
def execute (call : DispatchCall) (next : Json → DispatchProgram) : DispatchProgram :=
  .call (.execute call) fun _ =>
    .read fun reading =>
      match reading.executed with
      | none => .done
      | some result => next result

section
variable (sha256 : JsString → JsString)

def DispatchCall.digest (call : DispatchCall) : Option JsString := call.requestFingerprint.map sha256

def getOrExecuteTool (number : Nat) (tenantId toolCallId : JsString) (requestFingerprint : Option JsString) :
    DispatchProgram :=
  let call := DispatchCall.getOrExecuteTool number tenantId toolCallId requestFingerprint
  if !isId tenantId || !isId toolCallId then .done
  else
    attempt (.admitTool number tenantId toolCallId (requestFingerprint.map sha256))
      (fun
        | .identityConflict => .done
        | .completed result => .emit ⟨call, result⟩ .done
        | .uncertain => .done
        | .admitted =>
          execute call fun result =>
            attempt (.insertResult tenantId toolCallId result)
              (fun
                | true => .emit ⟨call, result.roundTrip⟩ .done
                | false => .done)
              .done)
      .done

/-- `readCompleted` of `run`: the value of a completed operation, its absence, or an error. -/
def readCompleted (key : DocumentKey) (fingerprint : JsString) (parseResult : Json → Option Json)
    (found : Json → DispatchProgram) (absent thrown : DispatchProgram) : DispatchProgram :=
  attempt (.getOperation key)
    (fun (reply : Persisted (Option (Versioned ProviderOperationRecord))) =>
      match reply with
      | .error _ => thrown
      | .ok none => absent
      | .ok (some document) =>
        if document.version ≠ (if document.record.status = .started then 1 else 2) then thrown
        else if document.record.fingerprint ≠ fingerprint then thrown
        else if document.record.status ≠ .completed then thrown
        else
          match document.record.result.bind fun result => parseResult result.roundTrip with
          | none => thrown
          | some value => found value)
    thrown

/-- `PostgresProviderOperationStore.run` -/
def run (number : Nat) (key : DocumentKey) (requestFingerprint : JsString) (parseResult : Json → Option Json) :
    DispatchProgram :=
  let call := DispatchCall.run number key requestFingerprint parseResult
  let fingerprint := sha256 requestFingerprint
  let found (value : Json) : DispatchProgram := .emit ⟨call, value⟩ .done
  if !isId key.recordId || !isId requestFingerprint then .done
  else
    readCompleted key fingerprint parseResult found
      (attempt (.setOperation number key none ⟨fingerprint, .started, none⟩)
        (fun (reply : Persisted Unit) =>
          match reply with
          | .ok () =>
            execute call fun executed =>
              match parseResult executed.roundTrip with
              | none => .done
              | some result =>
                let repair := readCompleted key fingerprint parseResult found .done .done
                attempt (.setOperation number key (some 1) ⟨fingerprint, .completed, some result⟩)
                  (fun (reply : Persisted Unit) =>
                    match reply with
                    | .ok () => .emit ⟨call, result.roundTrip⟩ .done
                    | .error _ => repair)
                  repair
          -- A competing claim may have completed already.
          | .error .conflict => readCompleted key fingerprint parseResult found .done .done
          | .error _ => .done)
        .done)
      .done

def dispatchCode : Code DispatchState DispatchOp DispatchReading DispatchCall Returned Nat DispatchReply where
  perform := DispatchState.perform
  body
    | .getOrExecuteTool number tenantId toolCallId fingerprint => getOrExecuteTool sha256 number tenantId toolCallId fingerprint
    | .run number key fingerprint parseResult => run sha256 number key fingerprint parseResult
  kind := DispatchCall.number
  exclusive _ := true

end

end Handrail.Postgres

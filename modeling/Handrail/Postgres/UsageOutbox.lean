import Handrail.Concurrent.Programs
import Handrail.JsonEquality
import Handrail.Postgres.Documents
import Handrail.Usage

/-!
# The usage outbox in Postgres

Receipt sinks capture receipts in `PostgresAIRuntimeUsageOutbox` and flush them to the telemetry
service. Any number of sinks share one scope. A query can fail before it ran, or after it committed,
and a sink can crash at any point.
-/

namespace Handrail.Postgres
open Js Conversation Usage Concurrent

/-! ### Records -/

inductive UsageOutboxStatus where
  | pending
  | failed
  | delivered
deriving DecidableEq, Repr

/-- `AIRuntimeUsageOutboxEntry`, with a receipt that is JSON or was checked. -/
structure UsageOutboxEntry (receipt : Type) where
  receipt : receipt
  enqueuedAt : JsString
  attempts : Nat

structure UsageFailure where
  code : JsString
  retryable : Bool
deriving DecidableEq, Repr

/-- `PostgresUsageOutboxRecord` of the schema version 1. -/
structure UsageOutboxRecord (receipt : Type) where
  status : UsageOutboxStatus
  entry : UsageOutboxEntry receipt
  lastError : Option UsageFailure

def UsageOutboxRecord.toJson (record : UsageOutboxRecord NormalizedUsageReceipt) : UsageOutboxRecord Json :=
  { record with entry := { record.entry with receipt := record.entry.receipt.json } }

/-- The record that `JSON.stringify` writes. -/
def UsageOutboxRecord.stringify (record : UsageOutboxRecord Json) : UsageOutboxRecord Json :=
  { record with entry := { record.entry with receipt := record.entry.receipt.roundTrip } }

/-- `error.code` and `error.retryable` as `failed` and `usageOutboxRecord` check them. -/
def UsageFailure.isValid (error : UsageFailure) : Bool := error.code.length != 0 && decide (error.code.length ≤ 256)

section
variable [DatePlatform]

/-- `usageOutboxEntry`, `none` when it throws. -/
def usageOutboxEntry (value : UsageOutboxEntry Json) : Option (UsageOutboxEntry NormalizedUsageReceipt) := do
  let receipt ← (parseNormalizedUsageReceipt value.receipt).toOption
  guard (DatePlatform.isoString value.enqueuedAt = some value.enqueuedAt)
  guard (value.attempts ≤ JsNumber.maxSafeInteger)
  return { value with receipt }

/-- `usageOutboxRecord`, `none` when it throws. -/
def usageOutboxRecord (value : UsageOutboxRecord Json) : Option (UsageOutboxRecord NormalizedUsageReceipt) := do
  let entry ← usageOutboxEntry value.entry
  guard (value.lastError.all UsageFailure.isValid)
  return { value with entry }

end

/-! ### The shared state -/

/-- The input of `settle`. -/
structure SettleRequest where
  requestId : JsString
  receipt : NormalizedUsageReceipt
  requestStatus : String

/-- How `settle` ends: it resolves, throws an `AIRuntimeUsageClientError`, or throws something else. -/
inductive SettleOutcome where
  | accepted
  | rejected (error : UsageFailure)
  | broken

/-- The documents of the scope, with their identifiers, and what was settled with the telemetry service. -/
structure OutboxState where
  table : Table (UsageOutboxRecord Json)
  recordIds : List JsString
  settlements : List (SettleRequest × SettleOutcome)

inductive OutboxReader where
  | enqueue
  | acknowledge
  | failed (retryable : Bool)
deriving DecidableEq, Repr

inductive OutboxOp where
  /-- `getDocument` -/
  | get (reader : OutboxReader) (recordId : JsString)
  /-- `compareAndSetDocument` -/
  | set (recordId : JsString) (expectedVersion : Option Nat) (record : UsageOutboxRecord Json)
  /-- The query of `pending`. -/
  | pending (limit : Nat)
  | settle (request : SettleRequest) (outcome : SettleOutcome)

def OutboxReply : OutboxOp → Type
  | .get _ _ => Persisted (Option (Versioned (UsageOutboxRecord Json)))
  | .set _ _ _ => Persisted Unit
  | .pending _ => List (UsageOutboxRecord Json)
  | .settle _ _ => Unit

/-- `PostgresAIRuntimeUsageOutbox`; its constructor checks both identifiers. -/
structure PostgresAIRuntimeUsageOutbox where
  tenantId : JsString
  scopeId : JsString
  valid : isId tenantId = true ∧ isId scopeId = true

namespace PostgresAIRuntimeUsageOutbox
variable (outbox : PostgresAIRuntimeUsageOutbox)

def key (recordId : JsString) : DocumentKey := ⟨outbox.tenantId, outbox.scopeId, recordId⟩

/-- `payload->>'status'='pending'`, in the order of `enqueuedAt` and `record_id`, which is that of code units here.
Where the column has another collation, it is which rows come first that differs. -/
def pendingRows (s : OutboxState) : List (UsageOutboxRecord Json) :=
  let rows := s.recordIds.filterMap fun recordId => (s.table (outbox.key recordId)).map fun d => (recordId, d.record)
  let pending := rows.filter fun row => row.2.status == .pending
  let sorted := pending.mergeSort fun a b =>
    !decide (b.2.entry.enqueuedAt ≤ a.2.entry.enqueuedAt) ||
      (a.2.entry.enqueuedAt == b.2.entry.enqueuedAt && decide (a.1 ≤ b.1))
  sorted.map Prod.snd

def perform : (op : OutboxOp) → OutboxState → OutboxState × OutboxReply op
  | .get _ recordId, s => (s, getDocument s.table (outbox.key recordId))
  | .set recordId expectedVersion record, s =>
    match compareAndSetDocument (fun _ => true) s.table (outbox.key recordId) expectedVersion record.stringify with
    | .ok (table, _) =>
      ({ s with table, recordIds := if s.recordIds.contains recordId then s.recordIds else s.recordIds ++ [recordId] },
        .ok ())
    | .error e => (s, .error e)
  | .pending limit, s => (s, (outbox.pendingRows s).take limit)
  | .settle request outcome, s => ({ s with settlements := s.settlements ++ [(request, outcome)] }, ())

end PostgresAIRuntimeUsageOutbox

/-! ### The programs -/

/-- What a step reads from the outside: the clock, the end of a `settle`, the fault of a query. -/
structure OutboxReading where
  now : JsString
  settle : SettleOutcome
  fault : Fault

/-- `createAIRuntimeUsageReceiptSink`, with its option `flushBatchSize`. -/
structure UsageReceiptSink where
  name : Nat
  flushBatchSize : Int
deriving DecidableEq

inductive SinkLabel where
  | capture (sink : UsageReceiptSink) (receipt : Json)
  | flush (sink : UsageReceiptSink) (limit : Int)

inductive SinkKind where
  | capture
  | flush (sink : UsageReceiptSink)
deriving DecidableEq

inductive SinkOutput where
  /-- `capture` resolved. -/
  | captured (receipt : NormalizedUsageReceipt)
  /-- `flush` resolved. -/
  | flushed (delivered pending : Nat)

abbrev SinkProgram := Program OutboxOp OutboxReply OutboxReading SinkLabel SinkOutput

inductive Thrown where
  | conflict
  | other
deriving DecidableEq, Repr

def query (op : OutboxOp) (next : OutboxReply op → SinkProgram) (thrown : Thrown → SinkProgram) : SinkProgram :=
  .read fun reading =>
    match reading.fault with
    | .none => .call op next
    | .before => thrown .other
    | .after => .call op fun _ => thrown .other

section
variable [DatePlatform]

/-- `getDocument`, and `usageOutboxRecord` of its value. -/
def getRecord (reader : OutboxReader) (recordId : JsString)
    (next : Option (Versioned (UsageOutboxRecord NormalizedUsageReceipt)) → SinkProgram)
    (thrown : Thrown → SinkProgram) : SinkProgram :=
  query (.get reader recordId)
    (fun (reply : Persisted (Option (Versioned (UsageOutboxRecord Json)))) =>
      match reply with
      | .error _ => thrown .other
      | .ok none => next none
      | .ok (some current) =>
        match usageOutboxRecord current.record with
        | none => thrown .other
        | some record => next (some ⟨current.version, record⟩))
    thrown

/-- `compareAndSetDocument` of a record that `usageOutboxRecord` accepts. -/
def setRecord (recordId : JsString) (expectedVersion : Option Nat) (record : UsageOutboxRecord Json)
    (next : SinkProgram) (thrown : Thrown → SinkProgram) : SinkProgram :=
  match usageOutboxRecord record with
  | none => thrown .other
  | some _ =>
    query (.set recordId expectedVersion record)
      (fun (reply : Persisted Unit) =>
        match reply with
        | .ok () => next
        | .error .conflict => thrown .conflict
        | .error _ => thrown .other)
      thrown

def enqueue (value : UsageOutboxEntry Json) (next thrown : SinkProgram) : SinkProgram :=
  match usageOutboxRecord ⟨.pending, value, none⟩ with
  | none => thrown
  | some record =>
    let recordId := record.entry.receipt.usageReceiptId
    let same (current : Versioned (UsageOutboxRecord NormalizedUsageReceipt)) : Bool :=
      jsonValuesEqual current.record.entry.receipt.json record.entry.receipt.json
    getRecord .enqueue recordId
      (fun
        | some current => if same current then next else thrown
        | none =>
          setRecord recordId none record.toJson next fun
            | .other => thrown
            | .conflict =>
              getRecord .enqueue recordId
                (fun
                  | some winner => if same winner then next else thrown
                  | none => thrown)
                fun _ => thrown)
      fun _ => thrown

/-- The remaining attempts of `acknowledge`. -/
def acknowledge (recordId : JsString) (next : SinkProgram) (thrown : Thrown → SinkProgram) : Nat → SinkProgram
  | 0 => next
  | attempts + 1 =>
    getRecord .acknowledge recordId
      (fun
        | none => next
        | some current =>
          if current.record.status = .delivered then next
          else
            let delivered := UsageOutboxRecord.mk .delivered current.record.entry none
            setRecord recordId (some current.version) delivered.toJson next fun cause =>
              if cause ≠ .conflict ∨ attempts = 0 then thrown cause
              else acknowledge recordId next thrown attempts)
      thrown

/-- The remaining attempts of `failed`. -/
def failed (recordId : JsString) (error : UsageFailure) (next : SinkProgram) (thrown : Thrown → SinkProgram) :
    Nat → SinkProgram
  | 0 => next
  | attempts + 1 =>
    getRecord (.failed error.retryable) recordId
      (fun
        | none => next
        | some current =>
          if current.record.status = .delivered then next
          else
            let entry := { current.record.entry with attempts := current.record.entry.attempts + 1 }
            let record := UsageOutboxRecord.mk (if error.retryable then .pending else .failed) entry (some error)
            setRecord recordId (some current.version) record.toJson next fun cause =>
              if cause ≠ .conflict ∨ attempts = 0 then thrown cause
              else failed recordId error next thrown attempts)
      thrown

/-- The status that `flush` settles a receipt with. -/
def requestStatus (receipt : NormalizedUsageReceipt) : String :=
  match receipt.terminalStatus with
  | .completed => "succeeded"
  | .cancelled => "cancelled"
  | .failed => "failed"

/-- `outbox.failed` in the loop of `flush`, which then breaks or goes on. -/
def recordFailure (recordId : JsString) (error : UsageFailure) (ended next : SinkProgram) : SinkProgram :=
  if !isId recordId || !error.isValid then .done
  else failed recordId error (if error.retryable then ended else next) (fun _ => .done) 4

/-- The error of a cause that is no `AIRuntimeUsageClientError`. -/
def deliveryFailed : UsageFailure := ⟨js "ai_runtime_usage_delivery_failed", true⟩

/-- The loop of `flush` over its entries, of which some were delivered. -/
def deliver (total delivered : Nat) : List (UsageOutboxEntry NormalizedUsageReceipt) → SinkProgram
  | [] => .emit (.flushed delivered (total - delivered)) .done
  | entry :: rest =>
    let recordId := entry.receipt.usageReceiptId
    let request := SettleRequest.mk entry.receipt.turnId entry.receipt (requestStatus entry.receipt)
    let ended := Program.emit (.flushed delivered (total - delivered)) .done
    .read fun reading =>
      .call (.settle request reading.settle) fun _ =>
        match reading.settle with
        | .accepted =>
          if !isId recordId then recordFailure recordId deliveryFailed ended (deliver total delivered rest)
          else acknowledge recordId (deliver total (delivered + 1) rest)
            (fun _ => recordFailure recordId deliveryFailed ended (deliver total delivered rest)) 4
        | .rejected error => recordFailure recordId error ended (deliver total delivered rest)
        | .broken => recordFailure recordId deliveryFailed ended (deliver total delivered rest)

/-- `Math.max(1, Math.min(100, limit))` of an integer. -/
def flushLimit (limit : Int) : Nat := (max 1 (min 100 limit)).toNat

/-- The programs of `capture` and `flush`. -/
def sinkBody : SinkLabel → SinkProgram
  | .capture sink value =>
    match parseNormalizedUsageReceipt value with
    | .error _ => .done
    | .ok receipt =>
      .read fun reading =>
        enqueue ⟨receipt.json, reading.now, 0⟩
          (.spawn (.flush sink sink.flushBatchSize) fun _ => .emit (.captured receipt) .done) .done
  | .flush _ limit =>
    query (.pending (flushLimit limit))
      (fun (rows : List (UsageOutboxRecord Json)) =>
        match rows.mapM usageOutboxRecord with
        | none => .done
        | some records => deliver records.length 0 (records.map UsageOutboxRecord.entry))
      fun _ => .done

def PostgresAIRuntimeUsageOutbox.sinkCode (outbox : PostgresAIRuntimeUsageOutbox) :
    Code OutboxState OutboxOp OutboxReading SinkLabel SinkOutput SinkKind OutboxReply where
  perform := outbox.perform
  body := sinkBody
  kind
    | .capture _ _ => .capture
    | .flush sink _ => .flush sink
  exclusive
    | .capture => false
    | .flush _ => true

end

end Handrail.Postgres

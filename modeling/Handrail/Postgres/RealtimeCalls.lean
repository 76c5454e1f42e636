import Handrail.Concurrent.Programs
import Handrail.Js.Text
import Handrail.Postgres.Documents

/-!
# Realtime calls in Postgres

`PostgresRealtimeCallStore` keeps one document for each call. An operation reads it, judges its lease by the clock,
and writes what it makes of it at the version it has read. Other operations, and the clock, go on in between.
-/

namespace Handrail.Postgres
open Js Concurrent

/-! ### Records -/

/-- `DurableRealtimeCallStatus` -/
inductive RealtimeCallStatus where
  | admitted
  | starting
  | active
  | ending
  | ended
  | uncertain
deriving DecidableEq, Repr

def RealtimeCallStatus.isLeased : RealtimeCallStatus → Bool
  | .admitted | .starting | .active => true
  | _ => false

/-- `DurableRealtimeCallRecord` of the version 1. -/
structure RealtimeCallRecord where
  callId : JsString
  conversationId : JsString
  fingerprint : JsString
  workerId : JsString
  status : RealtimeCallStatus
  creationStarted : Bool
  providerCallRef : Option JsString
  leaseExpiresAt : Nat
  createdAt : Nat
  updatedAt : Nat
deriving DecidableEq

/-- The condition of `identity`. -/
def isRealtimeIdentity (value : JsString) : Bool :=
  decide (1 ≤ value.length) && decide (value.length ≤ 512) && !value.units.any fun c => c < 32 || c == 127

def isSafeTime (time : Nat) : Bool := decide (time ≤ JsNumber.maxSafeInteger)

/-- `/^[a-f0-9]{64}$/` -/
def isFingerprint (value : JsString) : Bool :=
  value.length == 64 && value.units.all fun c => (48 ≤ c && c ≤ 57) || (97 ≤ c && c ≤ 102)

/-- The condition of `validRecord`. -/
def validRecord (value : RealtimeCallRecord) (callId : JsString) : Bool :=
  value.callId == callId && isFingerprint value.fingerprint &&
    (isSafeTime value.createdAt && isSafeTime value.updatedAt && isSafeTime value.leaseExpiresAt) &&
    !(value.status == .active && value.providerCallRef.isNone) &&
    !((value.status == .starting || value.status == .active || value.status == .ending) && !value.creationStarted) &&
    !(value.status == .admitted && value.creationStarted) &&
    !(value.status == .ended && value.creationStarted && value.providerCallRef.isNone) &&
    (decide (value.createdAt ≤ value.updatedAt) && decide (value.createdAt ≤ value.leaseExpiresAt)) &&
    !(!value.creationStarted && value.providerCallRef.isSome) &&
    (isRealtimeIdentity value.conversationId && isRealtimeIdentity value.workerId) &&
    value.providerCallRef.all isRealtimeIdentity

/-- The status of `#snapshot`. -/
def observedStatus (now : Nat) (record : RealtimeCallRecord) : RealtimeCallStatus :=
  if record.leaseExpiresAt ≤ now ∧ record.status.isLeased then .uncertain else record.status

/-- What `#snapshot` makes of a record. -/
def observed (now : Nat) (record : RealtimeCallRecord) : RealtimeCallRecord :=
  { record with status := observedStatus now record }

/-! ### Operations -/

structure LeaseMs where
  value : Nat
  bounded : 1000 ≤ value ∧ value ≤ 120000
deriving DecidableEq

inductive RealtimeCallRequest where
  | get
  | admit_ (conversationId workerId fingerprint : JsString)
  | beginCreation (workerId : JsString)
  | attachProviderCall (workerId providerCallRef : JsString)
  | renewLease (workerId : JsString)
  | requestEnd
  | confirmEnded (providerCallRef : JsString)
deriving DecidableEq

structure RealtimeCallJob where
  key : DocumentKey
  leaseMs : LeaseMs
  request : RealtimeCallRequest
deriving DecidableEq

inductive RealtimeCallError where
  | identity
  /-- `DurableRealtimeCallConflictError` -/
  | lifecycle
  /-- Stored realtime call is invalid. -/
  | stored
  /-- Stored realtime call version is invalid. -/
  | version
  | clock
  | persistence (error : PersistenceError)
  /-- A query failed, or its acknowledgement was lost. -/
  | unavailable
deriving DecidableEq

inductive RealtimeCallAnswer where
  | found (call : Option (Versioned RealtimeCallRecord))
  | admitted (created : Bool) (call : Versioned RealtimeCallRecord)
  | updated (call : Versioned RealtimeCallRecord)
  | rejected (error : RealtimeCallError)

structure RealtimeCallOutcome where
  job : RealtimeCallJob
  answer : RealtimeCallAnswer

/-! ### The store -/

structure RealtimeCallCommit where
  request : RealtimeCallRequest
  key : DocumentKey
  before : Option RealtimeCallRecord
  after : RealtimeCallRecord

/-- A `get` that answered a status, and how many had answered when it read the document. -/
structure RealtimeCallRead where
  key : DocumentKey
  earlier : Nat
  status : RealtimeCallStatus
deriving DecidableEq

/-- The documents and the clock, and what happened: the commits, the latest first, and the reads, the first one first. -/
structure RealtimeCallState where
  calls : Table RealtimeCallRecord
  clock : Int
  commits : List RealtimeCallCommit
  reads : List RealtimeCallRead

inductive RealtimeCallOp where
  | load (key : DocumentKey)
  | clock
  /-- The clock that a `get` reads for the record that it answers. -/
  | judge (key : DocumentKey) (earlier : Nat) (record : RealtimeCallRecord)
  | write (request : RealtimeCallRequest) (key : DocumentKey) (expectedVersion : Option Nat) (value : RealtimeCallRecord)
  | setClock (now : Int)

def RealtimeCallReply : RealtimeCallOp → Type
  | .load _ => Persisted (Option (Versioned RealtimeCallRecord)) × Nat
  | .clock => Int
  | .judge _ _ _ => Int
  | .write _ _ _ _ => Persisted (Versioned RealtimeCallRecord)
  | .setClock _ => Unit

/-- `#now` of a clock. -/
def readNow (clock : Int) : Option Nat :=
  if 0 ≤ clock ∧ clock ≤ JsNumber.maxSafeInteger then some clock.toNat else none

namespace RealtimeCallState

def perform : (op : RealtimeCallOp) → RealtimeCallState → RealtimeCallState × RealtimeCallReply op
  | .load key, s => (s, (getDocument s.calls key, s.reads.length))
  | .clock, s => (s, s.clock)
  | .judge key earlier record, s =>
    match readNow s.clock with
    | some now => ({ s with reads := s.reads ++ [⟨key, earlier, observedStatus now record⟩] }, s.clock)
    | none => (s, s.clock)
  | .write request key expectedVersion value, s =>
    match compareAndSetDocument (fun _ => true) s.calls key expectedVersion value with
    | .ok (calls, document) =>
      ({ s with
        calls
        commits := ⟨request, key, (s.calls key).map Versioned.record, value⟩ :: s.commits }, .ok document)
    | .error e => (s, .error e)
  | .setClock now, s => ({ s with clock := now }, ())

end RealtimeCallState

/-! ### The programs -/

inductive RealtimeCallLabel where
  | request (job : RealtimeCallJob)
  /-- One turn of the loop of `#update`. -/
  | attempt (job : RealtimeCallJob) (attempt : Nat)
  /-- The clock moves. -/
  | clock (now : Int)

abbrev RealtimeCallProgram := Program RealtimeCallOp RealtimeCallReply Fault RealtimeCallLabel RealtimeCallOutcome

namespace RealtimeCallJob
variable (job : RealtimeCallJob)

def answer (answer : RealtimeCallAnswer) : RealtimeCallProgram := .emit ⟨job, answer⟩ .done

def reject (error : RealtimeCallError) : RealtimeCallProgram := job.answer (.rejected error)

def query (op : RealtimeCallOp) (next : RealtimeCallReply op → RealtimeCallProgram) : RealtimeCallProgram :=
  .read fun (fault : Fault) =>
    match fault with
    | .none => .call op next
    | .before => job.reject .unavailable
    | .after => .call op fun _ => job.reject .unavailable

/-- `#now` -/
def withNow (next : Nat → RealtimeCallProgram) : RealtimeCallProgram :=
  .call .clock fun (clock : Int) =>
    match readNow clock with
    | some now => next now
    | none => job.reject .clock

/-- The document that `get` reads, checked as `#snapshot` checks it, with the number of reads before. -/
def withDocument (absent : RealtimeCallProgram) (next : Versioned RealtimeCallRecord → Nat → RealtimeCallProgram) :
    RealtimeCallProgram :=
  if !isRealtimeIdentity job.key.recordId then job.reject .identity
  else
    job.query (.load job.key)
      fun (reply : Persisted (Option (Versioned RealtimeCallRecord)) × Nat) =>
        match reply.1 with
        | .error e => job.reject (.persistence e)
        | .ok none => absent
        | .ok (some document) =>
          if !(decide (1 ≤ document.version) && decide (document.version ≤ JsNumber.maxSafeInteger)) then job.reject .version
          else if !validRecord document.record job.key.recordId then job.reject .stored
          else next document reply.2

/-- `get` of the other operations. -/
def withSnapshot (absent : RealtimeCallProgram) (next : Versioned RealtimeCallRecord → RealtimeCallProgram) :
    RealtimeCallProgram :=
  job.withDocument absent fun document _ => job.withNow fun now => next ⟨document.version, observed now document.record⟩

def get : RealtimeCallProgram :=
  job.withDocument (job.answer (.found none)) fun document earlier =>
    .call (.judge job.key earlier document.record) fun (clock : Int) =>
      match readNow clock with
      | some now => job.answer (.found (some ⟨document.version, observed now document.record⟩))
      | none => job.reject .clock

section
variable (sha256 : JsString → JsString)

/-- `readExisting` of `admit` -/
def readExisting (conversationId fingerprint : JsString) (absent : RealtimeCallProgram) : RealtimeCallProgram :=
  job.withSnapshot absent fun existing =>
    if existing.record.fingerprint ≠ sha256 fingerprint ∨ existing.record.conversationId ≠ conversationId then
      job.reject .lifecycle
    else job.answer (.admitted false existing)

def admit_ (conversationId workerId fingerprint : JsString) : RealtimeCallProgram :=
  if !(isRealtimeIdentity job.key.recordId && isRealtimeIdentity fingerprint && isRealtimeIdentity conversationId &&
      isRealtimeIdentity workerId) then job.reject .identity
  else
    job.readExisting sha256 conversationId fingerprint <|
      job.withNow fun now =>
        let value : RealtimeCallRecord := {
          callId := job.key.recordId
          conversationId
          workerId
          fingerprint := sha256 fingerprint
          status := .admitted
          creationStarted := false
          providerCallRef := none
          createdAt := now
          updatedAt := now
          -- The sum of two safe integers is stored rounded when it is not safe, and is not safe then.
          leaseExpiresAt := now + job.leaseMs.value }
        job.query (.write job.request job.key none value)
          fun (reply : Persisted (Versioned RealtimeCallRecord)) =>
            match reply with
            | .ok document => job.answer (.admitted true ⟨document.version, value⟩)
            | .error .conflict =>
              job.readExisting sha256 conversationId fingerprint (job.reject (.persistence .conflict))
            | .error e => job.reject (.persistence e)

end

/-- What an operation of `#update` makes of the call, `none` when it throws a conflict. -/
def change (call : RealtimeCallRecord) (next : RealtimeCallRecord → RealtimeCallProgram) : RealtimeCallProgram :=
  match job.request with
  | .beginCreation workerId =>
    if call.workerId ≠ workerId ∨ call.status ≠ .admitted then job.reject .lifecycle
    else next { call with status := .starting, creationStarted := true }
  | .attachProviderCall workerId providerCallRef =>
    if call.workerId ≠ workerId ∨ !call.creationStarted ∨
        (call.providerCallRef ≠ none ∧ call.providerCallRef ≠ some providerCallRef) then job.reject .lifecycle
    else
      next { call with
        providerCallRef := some providerCallRef
        status := if call.status = .starting then .active else call.status }
  | .renewLease workerId =>
    if call.workerId ≠ workerId ∨ !call.status.isLeased then job.reject .lifecycle
    else job.withNow fun now => next { call with leaseExpiresAt := now + job.leaseMs.value }
  | .requestEnd =>
    next { call with status := if call.status = .ended ∨ !call.creationStarted then .ended else .ending }
  | .confirmEnded providerCallRef =>
    if !(call.status = .ending ∨ call.status = .ended) ∨ call.providerCallRef ≠ some providerCallRef then
      job.reject .lifecycle
    else next { call with status := .ended }
  | .get | .admit_ _ _ _ => .done

/-- One turn of `#update` -/
def update (attempt : Nat) : RealtimeCallProgram :=
  if 4 ≤ attempt then job.reject (.persistence .conflict)
  else
    job.withSnapshot (job.reject .lifecycle) fun current =>
      job.change current.record fun changed =>
        if current.record = changed then job.answer (.updated current)
        else
          job.withNow fun now =>
            let value := { changed with updatedAt := now }
            if !validRecord value job.key.recordId then job.reject .stored
            else
              job.query (.write job.request job.key (some current.version) value)
                fun (reply : Persisted (Versioned RealtimeCallRecord)) =>
                  match reply with
                  | .ok document => job.answer (.updated ⟨document.version, value⟩)
                  | .error .conflict => .jump (.attempt job (attempt + 1))
                  | .error e => job.reject (.persistence e)

def body (sha256 : JsString → JsString) : RealtimeCallProgram :=
  match job.request with
  | .get => job.get
  | .admit_ conversationId workerId fingerprint => job.admit_ sha256 conversationId workerId fingerprint
  | .attachProviderCall _ providerCallRef =>
    if !isRealtimeIdentity providerCallRef then job.reject .identity else .jump (.attempt job 0)
  | _ => .jump (.attempt job 0)

end RealtimeCallJob

def realtimeCallCode (sha256 : JsString → JsString) :
    Code RealtimeCallState RealtimeCallOp Fault RealtimeCallLabel RealtimeCallOutcome Unit RealtimeCallReply where
  perform := RealtimeCallState.perform
  body
    | .request job => job.body sha256
    | .attempt job attempt => job.update attempt
    | .clock now => .call (.setClock now) fun _ => .done
  kind _ := ()
  exclusive _ := false

end Handrail.Postgres

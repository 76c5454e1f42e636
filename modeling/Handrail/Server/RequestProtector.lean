import Handrail.Server.PublicData

/-!
# Protected requests

`execute` of `createTrustedServerRequestProtectorV1`: a request passes six hooks in a row, then the operation of the host
runs, and at the end the lease is released, the reservation settled and the outcome retained. Meanwhile the caller may
abort and the deadline may fire. A step is what happens between two awaits, or what the host does during one.
-/

namespace Handrail.Server
open Js

/-! ### Public errors -/

/-- An entry of `ERROR_DEFINITIONS`. -/
structure ErrorDefinition where
  message : String
  status : Nat
  retryable : Bool

/-- `ERROR_DEFINITIONS` -/
def errorDefinition : PublicErrorCode → ErrorDefinition
  | .invalidRequest => ⟨"The request is invalid.", 400, false⟩
  | .invalidOrigin => ⟨"The request origin is not allowed.", 403, false⟩
  | .invalidBody => ⟨"The request body is invalid or too large.", 413, false⟩
  | .unauthenticated => ⟨"Authentication is required.", 401, false⟩
  | .forbidden => ⟨"The requested action is not allowed.", 403, false⟩
  | .rateLimited => ⟨"Too many requests.", 429, true⟩
  | .idempotencyConflict => ⟨"The idempotency key conflicts with another request.", 409, false⟩
  | .idempotencyInFlight => ⟨"The idempotent request is still in progress.", 409, true⟩
  | .concurrencyExhausted => ⟨"Request concurrency is exhausted.", 429, true⟩
  | .cancelled => ⟨"The request was cancelled.", 499, false⟩
  | .deadlineExceeded => ⟨"The request deadline was exceeded.", 504, true⟩
  | .unavailable => ⟨"The protected operation is unavailable.", 503, true⟩
  | .internalFailure => ⟨"The protected request failed.", 500, false⟩

/-- `TrustedServerPublicErrorV1` -/
structure PublicError where
  code : PublicErrorCode
  message : String
  status : Nat
  retryable : Bool
  retryAfterMs : Option Nat

/-- `Math.round` of a number that is not negative. -/
def roundNumber (x : JsNumber) : Nat :=
  if 0 ≤ x.exponent then x.digits * 10 ^ x.exponent.toNat
  else (2 * x.digits + 10 ^ (-x.exponent).toNat) / (2 * 10 ^ (-x.exponent).toNat)

def boundedRetryAfter (value : Option JsNumber) : Option Nat :=
  value.map fun n => min limits.maximumRetryAfterMs (roundNumber n)

/-- `trustedServerPublicErrorV1` -/
def publicError (code : PublicErrorCode) (retryAfterMs : Option JsNumber) : PublicError :=
  let definition := errorDefinition code
  { code
    message := definition.message
    status := definition.status
    retryable := definition.retryable
    retryAfterMs := if definition.retryable then boundedRetryAfter retryAfterMs else none }

/-- `TrustedServerProtectedResultV1` -/
inductive ProtectedResult where
  | success (stored : StoredResult) (replayed : Bool)
  | failure (error : PublicError)

/-- `failure` -/
def ProtectedResult.failed (code : PublicErrorCode) : ProtectedResult := .failure (publicError code none)

/-! ### Decisions of hooks -/

/-- What a hook or the operation resolves with: a value, and the opaque properties `reservation` and `lease` that a plain
object has besides. -/
structure Answer (T L : Type) where
  value : JsValue
  reservation : Option T
  lease : Option L

/-- A principal that `validatePrincipal` lets through. -/
structure Principal where
  value : JsValue
  descriptor : PublicDescriptor
  valid : validDescriptor value = some descriptor

inductive RateLimitDecision where
  | allowed
  | limited (retryAfterMs : Option JsNumber)

inductive IdempotencyDecision (T : Type) where
  | reserved (reservation : T)
  | replay (result : JsValue)
  | conflict
  | inFlight (retryAfterMs : Option JsNumber)

inductive ConcurrencyDecision (L : Type) where
  | acquired (lease : L)
  | exhausted (retryAfterMs : Option JsNumber)

/-- `validOptionalRetry`, and the value. -/
def validOptionalRetry : JsValue → Option (Option JsNumber)
  | .undefined => some none
  | .num n => if n.negative && n.digits != 0 then none else some (some n)
  | _ => none

variable {T L : Type}

/-- `isBooleanDecision(value, "allowed")`, and the decision. -/
def isBooleanDecision (answer : Answer T L) : Option Bool :=
  match answer.value with
  | .obj fields =>
    match JsValue.get fields "allowed" with
    | .bool allowed => some allowed
    | _ => none
  | _ => none

/-- `isAuthenticationDecision`, and the principal where there is one. -/
def isAuthenticationDecision (answer : Answer T L) : Option (Option Principal) :=
  match answer.value with
  | .obj fields =>
    match JsValue.get fields "authenticated" with
    | .bool false => some none
    | .bool true =>
      match valid : validDescriptor (JsValue.get fields "principal") with
      | some descriptor => some (some ⟨JsValue.get fields "principal", descriptor, valid⟩)
      | none => none
    | _ => none
  | _ => none

/-- `isRateLimitDecision`, and the decision. -/
def isRateLimitDecision (answer : Answer T L) : Option RateLimitDecision :=
  match answer.value with
  | .obj fields =>
    match JsValue.get fields "allowed" with
    | .bool true => some .allowed
    | .bool false => (validOptionalRetry (JsValue.get fields "retryAfterMs")).map .limited
    | _ => none
  | _ => none

/-- `isIdempotencyDecision`, and the decision. -/
def isIdempotencyDecision (answer : Answer T L) : Option (IdempotencyDecision T) :=
  match answer.value with
  | .obj fields =>
    match JsValue.get fields "status" with
    | .str status =>
      if status = js "reserved" then answer.reservation.map .reserved
      else if status = js "replay" then
        if JsValue.has fields "result" then some (.replay (JsValue.get fields "result")) else none
      else if status = js "conflict" then some .conflict
      else if status = js "in_flight" then (validOptionalRetry (JsValue.get fields "retryAfterMs")).map .inFlight
      else none
    | _ => none
  | _ => none

/-- `isConcurrencyDecision`, and the decision. -/
def isConcurrencyDecision (answer : Answer T L) : Option (ConcurrencyDecision L) :=
  match answer.value with
  | .obj fields =>
    match JsValue.get fields "status" with
    | .str status =>
      if status = js "acquired" then answer.lease.map .acquired
      else if status = js "exhausted" then (validOptionalRetry (JsValue.get fields "retryAfterMs")).map .exhausted
      else none
    | _ => none
  | _ => none

/-! ### One call of `execute` -/

/-- `TrustedServerTerminalStageV1` -/
inductive TerminalStage where
  | validation
  | origin
  | authentication
  | authorization
  | rateLimit
  | idempotency
  | concurrency
  | operation
  | cleanup
  | completed
deriving DecidableEq, Repr

inductive TerminalOutcome where
  | success
  | replay
  | error (code : PublicErrorCode)
deriving DecidableEq, Repr

/-- `TrustedServerTerminalRecordV1` without its version. -/
structure TerminalRecord where
  requestId : Option JsString := none
  actionId : Option JsString := none
  resourceId : Option JsString := none
  principalId : Option JsString := none
  stage : TerminalStage := .validation
  outcome : TerminalOutcome := .error .internalFailure
deriving DecidableEq

inductive SettlementStatus where
  | completed (result : StoredResult)
  | failed (error : PublicError)

/-- `TrustedServerIdempotencySettlementV1` -/
structure Settlement (T : Type) where
  reservation : T
  status : SettlementStatus

def ProtectedResult.settlement : ProtectedResult → SettlementStatus
  | .success stored _ => .completed stored
  | .failure error => .failed error

structure AuthenticatedContext where
  request : ProtectedRequest
  principal : Principal

/-- The calls under `protectedAwait`. -/
inductive ProtectedCall where
  | validateOrigin (request : ProtectedRequest)
  | authenticate (request : ProtectedRequest)
  | authorize (context : AuthenticatedContext)
  | checkRateLimit (context : AuthenticatedContext)
  | reserveIdempotency (context : AuthenticatedContext)
  | acquireConcurrency (context : AuthenticatedContext)
  | operation (context : AuthenticatedContext)

inductive HookCall (T L : Type) where
  | protected_ (call : ProtectedCall)
  | releaseConcurrency (lease : L)
  | settleIdempotency (settlement : Settlement T)
  | retainTerminal (record : TerminalRecord)

inductive LifecycleKind where
  | cancelled
  | deadlineExceeded
deriving DecidableEq, Repr

def LifecycleKind.code : LifecycleKind → PublicErrorCode
  | .cancelled => .cancelled
  | .deadlineExceeded => .deadlineExceeded

inductive Thrown where
  /-- `TrustedServerOperationFailureV1` -/
  | operationFailure
  | other

inductive Effect (T L : Type) where
  | reserved (reservation : T)
  | leased (lease : L)
  | settled
deriving DecidableEq

def named (answer : Answer T L) : ProtectedCall → Option (Effect T L)
  | .reserveIdempotency _ =>
    match isIdempotencyDecision answer with
    | some (.reserved reservation) => some (.reserved reservation)
    | _ => none
  | .acquireConcurrency _ =>
    match isConcurrencyDecision answer with
    | some (.acquired lease) => some (.leased lease)
    | _ => none
  | _ => none

structure HookRun (T L : Type) where
  effect : Option (Effect T L) := none
  outcome : Option (Except Thrown (Answer T L)) := none

inductive Phase (T L : Type) where
  | awaiting (call : ProtectedCall)
  /-- The cleanup, with the `result` so far. -/
  | releasing (lease : L) (result : ProtectedResult)
  | settling (settlement : Settlement T) (result : ProtectedResult)
  | retaining (record : TerminalRecord) (result : ProtectedResult)
  | returned (result : ProtectedResult)

inductive ExecutionEvent (T L : Type) where
  | called (call : HookCall T L)
  | took (effect : Effect T L)
  /-- `protectedAwait` resolves. -/
  | received (answer : Answer T L)

/-- A call of `execute`, with its history. -/
structure Execution (T L : Type) where
  terminal : TerminalRecord
  lifecycle : Option LifecycleKind
  reservation : Option T
  lease : Option L
  phase : Phase T L
  run : HookRun T L
  history : List (ExecutionEvent T L)

namespace Execution

def record (x : Execution T L) (event : ExecutionEvent T L) : Execution T L :=
  { x with history := x.history ++ [event] }

def call (x : Execution T L) (call : HookCall T L) (phase : Phase T L) : Execution T L :=
  { x.record (.called call) with phase, run := {} }

/-- `retainAndReturn` -/
def retain (x : Execution T L) (result : ProtectedResult) : Execution T L :=
  x.call (.retainTerminal x.terminal) (.retaining x.terminal result)

/-- A return from within the `try`. -/
def decline (x : Execution T L) (outcome : TerminalOutcome) (result : ProtectedResult) : Execution T L :=
  retain { x with terminal := { x.terminal with outcome } } result

/-- `failure(code, retryAfterMs)` is returned from within the `try`. -/
def refuse (x : Execution T L) (code : PublicErrorCode) (retryAfterMs : Option JsNumber) : Execution T L :=
  x.decline (.error code) (.failure (publicError code retryAfterMs))

/-- The settlement of the reservation after the `try`. -/
def settle (x : Execution T L) (result : ProtectedResult) : Execution T L :=
  match x.reservation with
  | some reservation =>
    x.call (.settleIdempotency ⟨reservation, result.settlement⟩) (.settling ⟨reservation, result.settlement⟩ result)
  | none => x.retain result

/-- What follows the `try`. -/
def cleanup (x : Execution T L) (result : ProtectedResult) : Execution T L :=
  match x.lease with
  | some lease => x.call (.releaseConcurrency lease) (.releasing lease result)
  | none => x.settle result

def cleanupFailed (x : Execution T L) : Execution T L :=
  { x with terminal := { x.terminal with
    stage := .cleanup
    outcome := .error .internalFailure } }

def publicCodeForThrown (x : Execution T L) (error : Thrown) : PublicErrorCode :=
  match x.lifecycle with
  | some kind => kind.code
  | none =>
    match error with
    | .operationFailure => .unavailable
    | .other => .internalFailure

/-- The `catch` block. -/
def caught (x : Execution T L) (error : Thrown) : Execution T L :=
  let code := x.publicCodeForThrown error
  cleanup { x with terminal := { x.terminal with outcome := .error code } } (.failed code)

/-- The next stage up to its `protectedAwait`, which throws once the signal has aborted. -/
def enter (x : Execution T L) (stage : TerminalStage) (call : ProtectedCall) : Execution T L :=
  let x := { x with terminal := { x.terminal with stage } }
  if x.lifecycle.isSome then x.caught .other else x.call (.protected_ call) (.awaiting call)

/-- What follows a `protectedAwait` that resolves. -/
def receive (x : Execution T L) (answer : Answer T L) : ProtectedCall → Execution T L
  | .validateOrigin request =>
    match isBooleanDecision answer with
    | none => x.caught .other
    | some false => x.refuse .invalidOrigin none
    | some true => x.enter .authentication (.authenticate request)
  | .authenticate request =>
    match isAuthenticationDecision answer with
    | none => x.caught .other
    | some none => x.refuse .unauthenticated none
    | some (some principal) =>
      enter { x with terminal := { x.terminal with principalId := some principal.descriptor.id } } .authorization
        (.authorize ⟨request, principal⟩)
  | .authorize context =>
    match isBooleanDecision answer with
    | none => x.caught .other
    | some false => x.refuse .forbidden none
    | some true => x.enter .rateLimit (.checkRateLimit context)
  | .checkRateLimit context =>
    match isRateLimitDecision answer with
    | none => x.caught .other
    | some (.limited retryAfterMs) => x.refuse .rateLimited retryAfterMs
    | some .allowed => x.enter .idempotency (.reserveIdempotency context)
  | .reserveIdempotency context =>
    match isIdempotencyDecision answer with
    | none => x.caught .other
    | some (.replay result) =>
      match cloneStoredResult result with
      | none => x.caught .other
      | some stored => x.decline .replay (.success stored true)
    | some .conflict => x.refuse .idempotencyConflict none
    | some (.inFlight retryAfterMs) => x.refuse .idempotencyInFlight retryAfterMs
    | some (.reserved reservation) =>
      enter { x with reservation := some reservation } .concurrency (.acquireConcurrency context)
  | .acquireConcurrency context =>
    match isConcurrencyDecision answer with
    | none => x.caught .other
    | some (.exhausted retryAfterMs) =>
      cleanup { x with terminal := { x.terminal with outcome := .error .concurrencyExhausted } }
        (.failure (publicError .concurrencyExhausted retryAfterMs))
    | some (.acquired lease) => enter { x with lease := some lease } .operation (.operation context)
  | .operation _ =>
    match cloneStoredResult answer.value with
    | none => x.caught .other
    | some stored =>
      -- `throwIfLifecycleAborted`
      if x.lifecycle.isSome then x.caught .other
      else cleanup { x with terminal := { x.terminal with
        stage := .completed
        outcome := .success } } (.success stored false)

def proceed (x : Execution T L) (outcome : Except Thrown (Answer T L)) : Execution T L :=
  match x.phase with
  | .awaiting call =>
    match outcome with
    | .error error => x.caught error
    | .ok answer => (x.record (.received answer)).receive answer call
  | .releasing _ result =>
    match outcome with
    | .ok _ => x.settle result
    | .error _ => x.cleanupFailed.settle (.failed .internalFailure)
  | .settling _ result =>
    match outcome with
    | .ok _ => x.retain result
    | .error _ => x.cleanupFailed.retain (.failed .internalFailure)
  | .retaining _ result => { x with phase := .returned result }
  | .returned _ => x

/-! ### The host -/

inductive Action (T L : Type) where
  /-- The caller aborts, or the deadline fires. -/
  | abort (kind : LifecycleKind)
  /-- The hook that is awaited takes effect. -/
  | take (effect : Effect T L)
  /-- Its promise is settled. -/
  | answer (outcome : Except Thrown (Answer T L))
  /-- The call goes on; `late` where the signal aborts only after `protectedAwait` has resolved. -/
  | resume (late : Bool)

variable [DecidableEq T] [DecidableEq L]

def allows (x : Execution T L) (effect : Effect T L) : Bool :=
  x.run.effect.isNone && x.run.outcome.isNone &&
    match x.phase, effect with
    | .awaiting (.reserveIdempotency _), .reserved _ => x.lifecycle.isNone
    | .awaiting (.acquireConcurrency _), .leased _ => x.lifecycle.isNone
    | .settling .., .settled => true
    | _, _ => false

def truthful (x : Execution T L) : Except Thrown (Answer T L) → Bool
  | .error _ => true
  | .ok answer =>
    match x.phase with
    | .awaiting call => (named answer call).isNone || named answer call = x.run.effect
    | _ => true

def isReturned (x : Execution T L) : Bool :=
  match x.phase with
  | .returned _ => true
  | _ => false

def isProtected (x : Execution T L) : Bool :=
  match x.phase with
  | .awaiting _ => true
  | _ => false

def step (x : Execution T L) : Action T L → Execution T L
  | .abort kind => if x.lifecycle.isNone then { x with lifecycle := some kind } else x
  | .take effect =>
    if x.allows effect then { x.record (.took effect) with run := { x.run with effect := some effect } } else x
  | .answer outcome =>
    -- Once the signal has aborted, `protectedAwait` takes no answer.
    if x.run.outcome.isNone && !x.isReturned && !(x.isProtected && x.lifecycle.isSome) && x.truthful outcome then
      { x with run := { x.run with outcome := some outcome } }
    else x
  | .resume late =>
    if x.isProtected && x.lifecycle.isSome && !(late && x.run.outcome.isSome) then x.caught .other
    else
      match x.run.outcome with
      | some outcome => x.proceed outcome
      | none => x

def steps (x : Execution T L) (actions : List (Action T L)) : Execution T L := actions.foldl step x

end Execution

/-- Options that `createTrustedServerRequestProtectorV1` lets through. -/
structure ProtectionOptions where
  maximumBodyBytes : Nat := limits.maximumBodyBytes
  maximumDeadlineMs : Nat := limits.maximumDeadlineMs
  body : 1 ≤ maximumBodyBytes ∧ maximumBodyBytes ≤ limits.maximumBodyBytes := by decide
  deadline : 1 ≤ maximumDeadlineMs ∧ maximumDeadlineMs ≤ limits.maximumDeadlineMs := by decide

/-- `TrustedServerProtectionExecutionV1` without the authentication: whether the signal has aborted before the first
hook is called is told by `aborted`. -/
structure ExecutionInput where
  request : JsValue
  deadlineMs : JsValue
  aborted : Option LifecycleKind

/-- `input.deadlineMs ?? maximumDeadlineMs` is a bounded integer. -/
def validDeadline (maximumDeadlineMs : Nat) : JsValue → Bool
  | .undefined | .null => true
  | value => (boundedInteger 1 maximumDeadlineMs value).isSome

/-- `execute` up to its first `await`. -/
def execute [UrlPlatform] (options : ProtectionOptions) (input : ExecutionInput) : Execution T L :=
  -- Until a hook is called the phase says nothing.
  let x : Execution T L := ⟨{}, none, none, none, .returned (.failed .internalFailure), {}, []⟩
  match validateRequest options.maximumBodyBytes input.request with
  | .error code => x.refuse code none
  | .ok request =>
    let x := { x with terminal := { x.terminal with
      requestId := some request.requestId
      actionId := some request.action.id
      resourceId := some request.resource.id } }
    if validDeadline options.maximumDeadlineMs input.deadlineMs then
      let x := { x with lifecycle := input.aborted }
      if x.lifecycle.isSome then x.caught .other else x.enter .origin (.validateOrigin request)
    else x.refuse .invalidRequest none

end Handrail.Server

import Handrail.Js.OrderedMap
import Handrail.Search.WebSearch

/-!
# The web-search service

`WebSearchService.search`. Calls are named by the application context that they carry and a number. A call whose key is
new runs the operation, which passes `authorize`, the adapter, and for each candidate `validateUrl` and `acceptResult`; a
call that finds its key returns the operation of the call that runs it.
-/

namespace Handrail.Search
open Js

variable {C : Type}

abbrev CallId (C : Type) := C × Nat

/-! ### Hooks -/

structure AuthorizationInput (C : Type) where
  query : JsString
  maxResults : Nat
  idempotencyKey : JsString
  deadlineAt : Int
  applicationContext : C

structure UrlPolicyInput (C : Type) where
  applicationContext : C
  url : JsString
  hostname : JsString
  /-- `purpose` is `result` without an index, and `redirect` with one. -/
  redirectIndex : Option Nat

structure ResultPolicyInput (C : Type) where
  applicationContext : C
  result : WebSearchResult

/-- The hooks of the host as functions of their input, `none` where they throw, and SHA-256 in hexadecimal, `none` where
the platform has no `crypto.subtle`. -/
structure SearchHooks (C : Type) where
  authorize : AuthorizationInput C → Option Bool
  validateUrl : UrlPolicyInput C → Option Bool
  acceptResult : ResultPolicyInput C → Option Bool
  digest : Option (List Nat → JsString)

/-! ### One operation -/

structure Position where
  candidate : CandidateResult
  rest : List CandidateResult
  retained : WebSearchResultSet

inductive SearchAwait where
  | authorize
  | adapter
  | validateUrl (index : Nat) (url hostname : JsString) (position : Position)
  | acceptResult (position : Position)

inductive SearchReply where
  | threw
  | decided (allowed : Bool)
  | output (value : JsValue)
  | aborted

inductive SearchPhase (C : Type) where
  | hashing (fingerprint : JsString)
  | awaiting (await : SearchAwait) (reply : Option SearchReply)
  /-- The call has returned the operation of another call. -/
  | joined (owner : CallId C)
  | settled (outcome : Except WebSearchErrorCode WebSearchResultSet)

structure SearchCall (C : Type) where
  input : NormalizedInput
  deadlineAt : Int
  /-- `context.signal.aborted` -/
  aborted : Bool
  /-- `controller.signal.aborted` -/
  controllerAborted : Bool
  timedOut : Bool
  phase : SearchPhase C

namespace SearchCall

/-- `await raceWithSignal(…, controller.signal)` -/
def enter (call : SearchCall C) (await : SearchAwait) : SearchCall C :=
  { call with phase := .awaiting await (if call.controllerAborted then some .aborted else none) }

def settle (call : SearchCall C) (outcome : Except WebSearchErrorCode WebSearchResultSet) : SearchCall C :=
  { call with phase := .settled outcome }

def fail (call : SearchCall C) (code : WebSearchErrorCode) : SearchCall C := call.settle (.error code)

/-- The outer `catch` for an abort. -/
def interrupt (call : SearchCall C) : SearchCall C := call.fail (if call.timedOut then .timeout else .cancelled)

/-- The inner `catch` for what a hook has thrown. -/
def caught (call : SearchCall C) (code : WebSearchErrorCode) : SearchCall C :=
  if call.controllerAborted then call.interrupt else call.fail code

section
variable [SearchPlatform] (limits : WebSearchLimits)

/-- The head of the loop over `candidate.validationUrls`. -/
def nextUrl (call : SearchCall C) (index : Nat) (position : Position) : SearchCall C :=
  match position.candidate.validationUrls[index]? with
  | none => call.enter (.acceptResult position)
  | some url =>
    match WebPlatform.parseUrl url with
    | some parsed => call.enter (.validateUrl index url parsed.hostname position)
    | none => call.caught .adapterUnavailable

def nextCandidate (call : SearchCall C) (candidates : List CandidateResult) (retained : WebSearchResultSet) : SearchCall C :=
  match candidates with
  | candidate :: rest => call.nextUrl 0 ⟨candidate, rest, retained⟩
  | [] =>
    if limits.totalSerializedUtf8Bytes < utf8ByteLength (stringify retained.toJson) then call.fail .invalidResponse
    else call.settle (.ok retained)

def accept (call : SearchCall C) (position : Position) : SearchCall C :=
  let result := position.candidate.result
  let retained := position.retained
  if call.input.maxResults ≤ retained.results.length ∨ retained.results.any (·.url == result.url) ∨
      retained.results.any (·.sourceId == result.sourceId) then
    call.nextCandidate limits position.rest retained
  else
    match sourceOf result with
    | some source => call.nextCandidate limits position.rest ⟨retained.results ++ [result], retained.sources ++ [source]⟩
    | none => call.caught .adapterUnavailable

/-- `#executeOnce` from the answer of what it awaits to its next `await`. -/
def resume (call : SearchCall C) : SearchCall C :=
  match call.phase with
  | .awaiting _ (some .aborted) => call.interrupt
  | .awaiting .authorize (some (.decided true)) => call.enter .adapter
  | .awaiting .authorize (some .threw) => call.caught .authorizationUnavailable
  | .awaiting .authorize (some _) => call.fail .authorizationDenied
  | .awaiting .adapter (some (.output value)) =>
    match normalizeAdapterOutput value limits.adapterResults with
    | some candidates => call.nextCandidate limits candidates ⟨[], []⟩
    | none => call.fail .invalidResponse
  | .awaiting .adapter (some _) => call.caught .adapterUnavailable
  | .awaiting (.validateUrl index _ _ position) (some (.decided true)) => call.nextUrl (index + 1) position
  | .awaiting (.acceptResult position) (some (.decided true)) => call.accept limits position
  | .awaiting (.validateUrl ..) (some .threw) | .awaiting (.acceptResult _) (some .threw) => call.caught .policyUnavailable
  | .awaiting (.validateUrl ..) (some _) | .awaiting (.acceptResult _) (some _) => call.fail .resultDenied
  | _ => call

end

/-- `Promise.resolve().then(() => hook(input))` -/
def ofHook : Option Bool → SearchReply
  | some allowed => .decided allowed
  | none => .threw

/-- What the hook that a call of this context awaits answers. The adapter answers with `output`, or throws. -/
def replyOf (hooks : SearchHooks C) (context : C) (call : SearchCall C) (output : Option JsValue) : SearchAwait → SearchReply
  | .authorize => ofHook (hooks.authorize {
      query := call.input.query
      maxResults := call.input.maxResults
      idempotencyKey := call.input.idempotencyKey
      deadlineAt := call.deadlineAt
      applicationContext := context })
  | .adapter =>
    match output with
    | some value => .output value
    | none => .threw
  | .validateUrl index url hostname _ => ofHook (hooks.validateUrl {
      applicationContext := context
      url, hostname
      redirectIndex := if index = 0 then none else some (index - 1) })
  | .acceptResult position => ofHook (hooks.acceptResult ⟨context, position.candidate.result⟩)

def answer (hooks : SearchHooks C) (context : C) (output : Option JsValue) (call : SearchCall C) : SearchCall C :=
  match call.phase with
  | .awaiting await none => { call with phase := .awaiting await (some (replyOf hooks context call output await)) }
  | _ => call

/-- `controller.abort()` while the operation runs. -/
def abortController (call : SearchCall C) : SearchCall C :=
  match call.phase with
  | .awaiting await none => { call with controllerAborted := true, phase := .awaiting await (some .aborted) }
  | .awaiting _ _ => { call with controllerAborted := true }
  | _ => call

def abort (call : SearchCall C) : SearchCall C := { call with aborted := true }.abortController

def fire (now : Int) (call : SearchCall C) : SearchCall C :=
  match call.phase with
  | .awaiting .. => if call.deadlineAt ≤ now then { call with timedOut := true }.abortController else call
  | _ => call

end SearchCall

/-! ### The service -/

/-- `IdempotencyEntry`, with the call whose operation it holds. -/
structure SearchEntry (C : Type) where
  fingerprint : JsString
  owner : CallId C
  settled : Bool

/-- The context of a call, without the application context: `none` where `deadlineAt` is no safe integer. -/
structure SearchContext where
  aborted : Bool
  deadlineAt : Option Int

/-- The caller passes `search` an unknown input. -/
inductive SearchAction (C : Type) where
  | advance (milliseconds : Nat)
  | search (id : CallId C) (input : JsValue) (context : SearchContext)
  /-- The call goes on from its last `await`. -/
  | resume (id : CallId C)
  | answer (id : CallId C) (output : Option JsValue)
  | abort (id : CallId C)
  | fire (id : CallId C)
  /-- `entry.settled = true` -/
  | markSettled (id : CallId C)

abbrev SearchStatus (C : Type) := Except WebSearchErrorCode (SearchCall C)

structure SearchService (C : Type) where
  now : Int
  entries : OrderedMap JsString (SearchEntry C)
  calls : CallId C → Option (SearchStatus C)

namespace SearchService

def create (now : Int) : SearchService C := ⟨now, .empty, fun _ => none⟩

/-- The loop of `#makeRoom`; `false` when it throws. -/
def evict (limit : Nat) : List (JsString × SearchEntry C) → OrderedMap JsString (SearchEntry C) →
    OrderedMap JsString (SearchEntry C) × Bool
  | [], entries => (entries, false)
  | (key, entry) :: rest, entries =>
    if entry.settled then
      if (entries.delete key).size < limit then (entries.delete key, true) else evict limit rest (entries.delete key)
    else evict limit rest entries

def makeRoom (limit : Nat) (entries : OrderedMap JsString (SearchEntry C)) : OrderedMap JsString (SearchEntry C) × Bool :=
  if entries.size < limit then (entries, true) else evict limit entries.entries entries

variable (limits : WebSearchLimits) (hooks : SearchHooks C)

/-- `search` up to its first `await`. -/
def begin (now : Int) (input : JsValue) (context : SearchContext) : SearchStatus C :=
  match normalizeInput limits input, context.deadlineAt with
  | some normalized, some deadlineAt =>
    if context.aborted then .error .cancelled
    else if deadlineAt ≤ now then .error .timeout
    else if now + limits.timeoutMs < deadlineAt then .error .invalidRequest
    else
      match hooks.digest with
      | none => .error .capacityExceeded
      | some digest =>
        .ok { input := normalized
              deadlineAt
              aborted := false
              controllerAborted := false
              timedOut := false
              phase := .hashing (digest (fingerprintOctets normalized)) }
  | _, _ => .error (if context.aborted then .cancelled else .invalidRequest)

variable [DecidableEq C]

def update (w : SearchService C) (id : CallId C) (call : SearchCall C) : SearchService C :=
  { w with calls := fun other => if other = id then some (.ok call) else w.calls other }

/-- `search` once the fingerprint is there. -/
def proceed (w : SearchService C) (id : CallId C) (call : SearchCall C) (fingerprint : JsString) : SearchService C :=
  match w.entries.get call.input.idempotencyKey with
  | some existing =>
    if existing.fingerprint ≠ fingerprint then w.update id (call.fail .idempotencyConflict)
    else w.update id { call with phase := .joined existing.owner }
  | none =>
    let room := makeRoom limits.idempotencyEntries w.entries
    if room.2 then
      { w with entries := room.1.set call.input.idempotencyKey ⟨fingerprint, id, false⟩ }.update id (call.enter .authorize)
    else { w with entries := room.1 }.update id (call.fail .capacityExceeded)

def outcomeOf (w : SearchService C) (id : CallId C) : Option (Except WebSearchErrorCode WebSearchResultSet) :=
  match w.calls id with
  | some (.ok call) =>
    match call.phase with
    | .settled outcome => some outcome
    | _ => none
  | some (.error code) => some (.error code)
  | none => none

def withCall (w : SearchService C) (id : CallId C) (move : SearchCall C → SearchCall C) : SearchService C :=
  match w.calls id with
  | some (.ok call) => w.update id (move call)
  | _ => w

def follow (w : SearchService C) (owner : CallId C) (call : SearchCall C) : SearchCall C :=
  match w.outcomeOf owner with
  | some outcome => call.settle outcome
  | none => call

def isOver (w : SearchService C) (id : CallId C) : Bool := (w.outcomeOf id).isSome

def markSettled (w : SearchService C) (id : CallId C) : OrderedMap JsString (SearchEntry C) :=
  w.entries.mapValues fun entry => if entry.owner = id then { entry with settled := true } else entry

variable [SearchPlatform]

def step (w : SearchService C) : SearchAction C → SearchService C
  | .advance milliseconds => { w with now := w.now + milliseconds }
  | .search id input context =>
    -- Every call has a name of its own.
    if (w.calls id).isSome then w
    else { w with calls := fun other => if other = id then some (begin limits hooks w.now input context) else w.calls other }
  | .resume id =>
    match w.calls id with
    | some (.ok call) =>
      match call.phase with
      | .hashing fingerprint => w.proceed limits id call fingerprint
      | .joined owner => w.update id (w.follow owner call)
      | _ => w.update id (call.resume limits)
    | _ => w
  | .answer id output => w.withCall id (SearchCall.answer hooks id.1 output)
  | .abort id => w.withCall id SearchCall.abort
  | .fire id => w.withCall id (SearchCall.fire w.now)
  | .markSettled id => if w.isOver id then { w with entries := w.markSettled id } else w

def run (w : SearchService C) (actions : List (SearchAction C)) : SearchService C := actions.foldl (step limits hooks) w

end SearchService

/-- The deadline that the executor of `createWebSearchToolRegistration` passes: `service.deadlineFromNow()`. -/
def deadlineFromNow (limits : WebSearchLimits) (now : Int) : Int := now + limits.timeoutMs

def toolSearch (limits : WebSearchLimits) (now : Int) (id : CallId C) (arguments : JsValue) (aborted : Bool) : SearchAction C :=
  .search id arguments ⟨aborted, some (deadlineFromNow limits now)⟩

end Handrail.Search

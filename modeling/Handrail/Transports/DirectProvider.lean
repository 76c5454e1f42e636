import Handrail.Transports.StreamPump

/-!
# The direct provider transport

`pumpProvider` bridges a provider adapter to an observation. `validateIncrementalEvent` checks each frame
against the frames before it; `parseStreamEvents` checks the whole stream before the terminal frame is
pushed. Diagnostics are left out, and usage receipts are projected by a parameter.
-/

namespace Handrail.Transports
open Js Conversation Protocol

/-! ### Results of adapters -/

inductive RetryableProviderErrorCode where
  | rateLimited
  | deadlineExceeded
  | upstreamUnavailable
deriving DecidableEq

inductive ClientRequestErrorCode where
  | invalidRequest
  | unauthenticated
  | forbidden
  | idempotencyConflict
deriving DecidableEq

/-- `ProviderAdapterError`, by its kind. -/
inductive ProviderAdapterError where
  | provider (code : RetryableProviderErrorCode) (message : JsString)
  | client (code : ClientRequestErrorCode) (message : JsString)
  | policy (message : JsString)

/-- `ProviderAdapterResult`; `usage` is `none` where the adapter reports `null`. -/
inductive ProviderAdapterResult where
  | completed (outcome : CompletionOutcome) (usage : Option Json)
  | cancelled (reason : CancellationReason) (usage : Option Json)
  | failed (error : ProviderAdapterError) (usage : Option Json)

def ProviderAdapterResult.usage : ProviderAdapterResult → Option Json
  | completed _ usage | cancelled _ usage | failed _ usage => usage

def RetryableProviderErrorCode.public : RetryableProviderErrorCode → PublicErrorCode
  | rateLimited => .rateLimited
  | deadlineExceeded => .deadlineExceeded
  | upstreamUnavailable => .upstreamUnavailable

def ClientRequestErrorCode.public : ClientRequestErrorCode → PublicErrorCode
  | invalidRequest => .invalidRequest
  | unauthenticated => .unauthenticated
  | forbidden => .forbidden
  | idempotencyConflict => .idempotencyConflict

/-- `publicErrorFor`: the category, the code, the message and `retryable`. -/
def publicErrorFor : ProviderAdapterError → PublicErrorCategory × PublicErrorCode × JsString × Bool
  | .provider code message =>
    (if code = .rateLimited then .capacity else .upstream, code.public, message, true)
  | .policy message => (.policy, .policyDenied, message, false)
  | .client code message =>
    (if code = .unauthenticated then .authentication
      else if code = .forbidden then .authorization else .request, code.public, message, false)

def terminalMatchesResult (terminal : StreamEvent) (result : ProviderAdapterResult) : Bool :=
  match result, terminal.body with
  | .completed outcome _, .completed outcome' => outcome' == outcome
  | .cancelled reason _, .cancelled reason' => reason' == reason
  | .failed error _, .error e => (e.category, e.code, e.message.text, e.retryable) == publicErrorFor error
  | _, _ => false

/-! ### The frames -/

/-- What `pumpProvider` reads of a `DirectProviderTurnContext`. -/
structure DirectProviderTurnContext where
  requestId : Identifier
  traceId : Identifier
  attribution : AuthoritativeAttribution

/-- A `TypeError`. -/
def typeError (message : JsString) : ValidationError := ⟨JsString.empty, message⟩

def validateIncrementalBatch (events : List StreamEvent) (citationProjectionSupported : Bool)
    (batch : CitationBatch) : Checked Unit := do
  must citationProjectionSupported "" (js "citation batches require declared provider citation support")
  must (((batches events).head?.map CitationBatch.messageId).all (batch.messageId == ·)) ""
    (js "citation target must remain stable within the stream")
  let _ ← scanCitations
    (fun _ next => typeError (js "citation order must equal " ++ decimal next))
    (fun _ _ => typeError (js "citation identity must be unique within the stream"))
    0 (citations events).length ((citations events).map Citation.citationId).reverse batch.citations
  -- The map of earlier sources holds the text that was set last.
  let sources := (fingerprints events).reverse
  must (batch.fingerprints.all fun source => (sources.lookup source.1).all (· == source.2)) ""
    (js "citation source identity must remain stable")

def validateIncrementalStart (context : DirectProviderTurnContext) (events : List StreamEvent) (event : StreamEvent) :
    Checked Unit :=
  if events.isEmpty then
    match event.body with
    | .started attribution =>
      must (attribution == context.attribution) "" (js "first event must match the trusted start context")
    | _ => .error (typeError (js "first event must match the trusted start context"))
  else must (event.type != .started) "" (js "response.started may appear only once")

def validateIncrementalEvent (context : DirectProviderTurnContext) (citationProjectionSupported : Bool)
    (events : List StreamEvent) (event : StreamEvent) : Checked Unit := do
  must (event.sequence == events.length) "" (js "event sequence must equal " ++ decimal events.length)
  must (event.requestId == context.requestId && event.traceId == context.traceId) ""
    (js "event request and trace identifiers must match context")
  validateIncrementalStart context events event
  must (!events.any terminalEvent) "" (js "terminal event must be last")
  match event.body with
  | .citationBatch batch => validateIncrementalBatch events citationProjectionSupported batch
  | _ => .ok ()

/-- `events` and `heldTerminal`. -/
structure ProviderStream where
  events : List StreamEvent
  heldTerminal : Option StreamEvent

section
variable [WebPlatform]

def acceptProviderItem (context : DirectProviderTurnContext) (citationProjectionSupported : Bool)
    (stream : ProviderStream) (item : Option Json) : Checked (StreamEvent × ProviderStream) := do
  let event ← parseStreamEvent item
  validateIncrementalEvent context citationProjectionSupported stream.events event
  .ok (event, {
    events := stream.events ++ [event]
    heldTerminal := if terminalEvent event then some event else stream.heldTerminal })

/-- `null` where the adapter reports no usage. -/
def usageReceipt (projectUsage : Json → Checked Json) (result : ProviderAdapterResult) : Checked (Option Json) :=
  match result.usage with
  | none => .ok none
  | some usage => (projectUsage usage).map some

def finishProvider (projectUsage : Json → Checked Json) (stream : ProviderStream) (result : ProviderAdapterResult) :
    Option StreamEvent :=
  match parseStreamEvents (some (.arr (stream.events.map StreamEvent.value))), stream.heldTerminal with
  | .ok _, some terminal =>
    -- `observationResult` runs after the push: where it throws, the terminal frame is out already.
    if terminalMatchesResult terminal result && (usageReceipt projectUsage result).isOk then some terminal
    else none
  | _, _ => none

def pumpProvider (context : DirectProviderTurnContext) (citationProjectionSupported : Bool)
    (projectUsage : Json → Checked Json) : StreamPump ProviderStream (Option Json) ProviderAdapterResult where
  start := ⟨[], none⟩
  accept := acceptProviderItem context citationProjectionSupported
  finish := finishProvider projectUsage
  suppressThrough := none

end

/-! ### What the checks enforce -/

/-- The rules that `validateIncrementalEvent` checks. -/
structure ProviderRules (before : List StreamEvent) (event : StreamEvent) : Prop where
  numbered : Numbered before event
  identified : Identified before event
  startsOnce : StartsOnce before event
  endsLast : EndsLast before event
  citationsFollow : CitationsFollow before event

def ProviderOmits (before : List StreamEvent) (event : StreamEvent) : Prop :=
  UsageGrows before event ∧ CallsOnce before event

theorem fits_iff_provider (before : List StreamEvent) (event : StreamEvent) :
    Fits before event ↔ ProviderRules before event ∧ ProviderOmits before event := by
  constructor
  · intro fits
    exact ⟨⟨fits.numbered, fits.identified, fits.startsOnce, fits.endsLast, fits.citationsFollow⟩,
      fits.usageGrows, fits.callsOnce⟩
  · intro ⟨rules, usage, calls⟩
    exact ⟨rules.numbered, rules.identified, rules.startsOnce, rules.endsLast, usage, calls, rules.citationsFollow⟩

theorem terminal_carries_nothing {event : StreamEvent} (ends : terminalEvent event = true) :
    event.usage? = none ∧ event.toolCallId? = none ∧ event.batch? = none := by
  obtain ⟨envelope, value, body⟩ := event
  cases body with
  | started | textDelta | toolCall | citationBatch | usage => cases ends
  | completed | cancelled | error => exact ⟨rfl, rfl, rfl⟩

theorem providerOmits_terminal (before : List StreamEvent) (event : StreamEvent)
    (ends : terminalEvent event = true) : ProviderOmits before event := by
  obtain ⟨usage, call, -⟩ := terminal_carries_nothing ends
  refine ⟨fun _ found => ?_, fun _ found => ?_⟩
  · rw [usage] at found
    cases found
  · rw [call] at found
    cases found

theorem stable_of_follows {events : List StreamEvent} (follows : Everywhere CitationsFollow events) :
    Stable (fingerprints events) := by
  rcases List.eq_nil_or_concat events with rfl | ⟨front, last, rfl⟩
  · exact stable_nil
  · rw [List.concat_eq_append] at follows ⊢
    obtain ⟨earlier, rule⟩ := everywhere_snoc.mp follows
    rw [fingerprints_snoc]
    cases found : last.batch? with
    | none => simpa using stable_of_follows earlier
    | some batch => simpa using (rule batch found).sources
termination_by events.length

theorem validateIncrementalBatch_follows {events : List StreamEvent} {supported : Bool} {batch : CitationBatch}
    (earlier : Stable (fingerprints events)) (own : Stable batch.fingerprints)
    (accepted : validateIncrementalBatch events supported batch = .ok ()) : BatchFollows events batch := by
  simp only [validateIncrementalBatch, bind_eq_ok, must_eq_ok, scanCitations_eq_ok, List.mem_reverse] at accepted
  obtain ⟨_, _, _, target, _, ⟨⟨orders, distinct, fresh⟩, _⟩, known⟩ := accepted
  refine ⟨fun first found => ?_, orders, distinct, fresh, ?_⟩
  · rw [Option.mem_def.mp found] at target
    simpa using target
  · have reversed : Stable (fingerprints events).reverse :=
      earlier.mono fun _ member => List.mem_reverse.mp member
    have agrees : ∀ a ∈ batch.fingerprints, ∀ b ∈ fingerprints events, b.1 = a.1 → b.2 = a.2 := by
      intro a member b inside same
      have looked := List.all_eq_true.mp known a member
      have all : ((fingerprints events).reverse.lookup a.1).any (· != a.2) = false := by
        cases found : (fingerprints events).reverse.lookup a.1 with
        | none => rfl
        | some text =>
          rw [found] at looked
          simp only [Option.all_some, beq_iff_eq] at looked
          simp [looked]
      exact (lookup_any_ne reversed).mp all b (List.mem_reverse.mpr inside) same
    intro a first b second same
    rcases List.mem_append.mp first with first | first
    · rcases List.mem_append.mp second with second | second
      · exact earlier a first b second same
      · exact agrees b second a first same
    · rcases List.mem_append.mp second with second | second
      · exact (agrees a first b second same.symm).symm
      · exact own a first b second same

/-- The frames that were taken carry the identifiers of the context, and the last terminal one is held. -/
structure ProviderStream.Valid (context : DirectProviderTurnContext) (stream : ProviderStream) : Prop where
  identified : ∀ event ∈ stream.events, event.requestId = context.requestId ∧ event.traceId = context.traceId
  held : stream.heldTerminal = (stream.events.filter terminalEvent).getLast?

theorem validateIncrementalEvent_rules {context : DirectProviderTurnContext} {supported : Bool}
    {events : List StreamEvent} {event : StreamEvent}
    (identified : ∀ event ∈ events, event.requestId = context.requestId ∧ event.traceId = context.traceId)
    (earlier : Stable (fingerprints events)) (own : ∀ batch ∈ event.batch?, Stable batch.fingerprints)
    (accepted : validateIncrementalEvent context supported events event = .ok ()) :
    (event.requestId = context.requestId ∧ event.traceId = context.traceId) ∧ ProviderRules events event := by
  simp only [validateIncrementalEvent, bind_eq_ok, must_eq_ok, beq_iff_eq, Bool.and_eq_true,
    Bool.not_eq_true', List.any_eq_false] at accepted
  obtain ⟨_, number, _, ids, _, start, _, last, cited⟩ := accepted
  refine ⟨ids, number, fun first found => ?_, ?_, fun other member => ?_, fun batch found => ?_⟩
  · have known := identified first (List.mem_of_mem_head? found)
    exact ⟨ids.1.trans known.1.symm, ids.2.trans known.2.symm⟩
  · cases events with
    | nil =>
      simp only [validateIncrementalStart, List.isEmpty_nil, ↓reduceIte] at start
      refine ⟨fun _ => rfl, fun _ => ?_⟩
      split at start
      · rename_i attribution body
        rw [StreamEvent.type, body]
        rfl
      · cases start
    | cons first rest =>
      simp only [validateIncrementalStart, List.isEmpty_cons, Bool.false_eq_true, ↓reduceIte, must_eq_ok,
        bne_iff_ne] at start
      exact ⟨fun starts => absurd starts start, fun none => by cases none⟩
  · simpa using last other member
  · have body : event.body = .citationBatch batch := by
      unfold StreamEvent.batch? at found
      split at found
      · rename_i body
        rw [body, Option.some.inj found]
      · cases found
    rw [body] at cited
    exact validateIncrementalBatch_follows earlier (own batch found) cited

section
variable [WebPlatform]

theorem pumpProvider_sound (context : DirectProviderTurnContext) (supported : Bool)
    (projectUsage : Json → Checked Json) :
    (pumpProvider context supported projectUsage).Sound ProviderStream.events ProviderRules
      (ProviderStream.Valid context) where
  start := rfl
  ready := ⟨List.forall_mem_nil _, rfl⟩
  grows taken := by
    simp only [pumpProvider, acceptProviderItem, bind_eq_ok, Except.ok.injEq, Prod.mk.injEq] at taken
    obtain ⟨_, _, _, _, rfl, rfl⟩ := taken
    rfl
  takes keeps taken := by
    simp only [pumpProvider, acceptProviderItem, bind_eq_ok, Except.ok.injEq, Prod.mk.injEq] at taken
    obtain ⟨event, parsed, _, checked, rfl, rfl⟩ := taken
    have earlier := stable_of_follows (keeps.enforced.imp fun _ _ rule => rule.citationsFollow)
    obtain ⟨ids, rules⟩ := validateIncrementalEvent_rules keeps.valid.identified earlier
      (parseStreamEvent_sources parsed) checked
    have same := parseStreamEvent_value parsed
    refine ⟨⟨?_, ?_⟩, rules, same ▸ parsed⟩
    · rw [List.forall_mem_append, List.forall_mem_singleton]
      exact ⟨keeps.valid.identified, ids⟩
    · simp only [List.filter_append, keeps.valid.held]
      cases final : terminalEvent event <;> simp [final]
  numbered rules := ⟨rules.numbered, rules.endsLast⟩
  finishes keeps finished := by
    simp only [pumpProvider, finishProvider] at finished
    split at finished
    · rename_i stream _ result _ _ whole terminal accepted held
      split at finished
      · obtain rfl := Option.some.inj finished
        have complete := complete_of_accepted keeps.parsed accepted
        exact ⟨complete, complete.held (keeps.valid.held.symm.trans held)⟩
      · cases finished
    · cases finished

end

end Handrail.Transports

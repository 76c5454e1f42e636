import Handrail.Transports.DirectProvider
import Handrail.Transports.Sse

/-!
# The managed runtime transport

`ManagedStreamValidator` checks the server-sent frames of a managed response, and `pumpStream` pushes
them to an observation that may resume from a checkpoint. `JSON.parse`, which rounds its numbers, is a
parameter. `openStream` takes the first frame with the same validator, and a refusal there leaves no
observation, so the pump begins with that frame.
-/

namespace Handrail.Transports
open Js Conversation Protocol

/-- The letters that `/iu` reads as ASCII letters beside these: the long s and the Kelvin sign. -/
def foldUnicode (text : JsString) : JsString :=
  ⟨text.units.map fun c => if c == 0x17f then 115 else if c == 0x212a then 107 else c⟩

/-- The patterns are those of `citations.ts`, under the flags `iu`. -/
def containsSensitiveMaterial (data : JsString) (sensitiveValues : List JsString) : Bool :=
  matchesAny citationCredentialPatterns (foldUnicode data) || sensitiveValues.any (includes data)

structure ManagedStreamValidator where
  events : List StreamEvent
  requestId : Option Identifier
  traceId : Option Identifier
  lastUsage : Option Usage
  terminal : Option StreamEvent

def ManagedStreamValidator.initial : ManagedStreamValidator := ⟨[], none, none, none, none⟩

def frameFields (sensitiveValues : List JsString) (terminal : Option StreamEvent) (frame : ServerSentEventFrame) :
    Checked (JsString × JsString × JsString) :=
  match frame.event, frame.id, frame.data with
  | some event, some id, some data =>
    if containsSensitiveMaterial data sensitiveValues then
      .error (typeError (js "Managed runtime protocol data contained sensitive material"))
    else if terminal.isSome then
      .error (typeError (js "A managed runtime protocol event followed the terminal event"))
    else .ok (event, id, data)
  | _, _, _ => .error (typeError (js "Managed runtime SSE frames require event, id, and data"))

def ManagedStreamValidator.identify (validator : ManagedStreamValidator) (event : StreamEvent) :
    Checked (Option Identifier × Option Identifier) :=
  if validator.events.isEmpty then
    if event.type != .started then
      .error (typeError (js "response.started must be the first managed runtime event"))
    else .ok (some event.requestId, some event.traceId)
  else if event.type == .started then .error (typeError (js "response.started may appear only once"))
  else if some event.requestId != validator.requestId || some event.traceId != validator.traceId then
    .error (typeError (js "Managed runtime stream identifiers must remain stable"))
  else .ok (validator.requestId, validator.traceId)

section
variable [WebPlatform] (parseJson : JsString → Option Json) (sensitiveValues : List JsString)

/-- `ManagedStreamValidator.accept` -/
def ManagedStreamValidator.accept (validator : ManagedStreamValidator) (frame : ServerSentEventFrame) :
    Checked (StreamEvent × ManagedStreamValidator) := do
  let (type, id, data) ← frameFields sensitiveValues validator.terminal frame
  must (parseJson data).isSome "" (js "Managed runtime SSE data must be JSON")
  let event ← parseStreamEvent (parseJson data)
  must (type == js (Enumeration.text event.type)) ""
    (js "The SSE event field does not match the JSON event type")
  must (id == event.requestId.text ++ js ":" ++ decimal event.sequence) ""
    (js "The SSE id does not match the JSON event envelope")
  must (event.sequence == validator.events.length) ""
    (js "Managed runtime event sequences must be contiguous from zero")
  let (requestId, traceId) ← validator.identify event
  must (event.usage?.all fun usage => !validator.lastUsage.any usage.decreases) ""
    (js "Managed runtime cumulative usage must not decrease")
  .ok (event, {
    events := validator.events ++ [event]
    requestId, traceId
    lastUsage := event.usage?.or validator.lastUsage
    terminal := if terminalEvent event then some event else validator.terminal })

/-- `finish`, and what follows the loop: the terminal frame that is pushed. `settles` is whether
`resultForTerminal` resolves. -/
def finishManaged (suppressThrough : Option Nat) (validator : ManagedStreamValidator) (settles : Bool) :
    Option StreamEvent :=
  match validator.terminal with
  | none => none
  | some terminal =>
    match parseStreamEvents (some (.arr (validator.events.map StreamEvent.value))) with
    | .error _ => none
    | .ok _ =>
      if settles && suppressThrough.all (· < terminal.sequence) then some terminal else none

def pumpStream (suppressThrough : Option Nat) :
    StreamPump ManagedStreamValidator ServerSentEventFrame Bool where
  start := .initial
  accept := ManagedStreamValidator.accept parseJson sensitiveValues
  finish := finishManaged suppressThrough
  suppressThrough

end

/-! ### What the checks enforce -/

/-- The rules that `ManagedStreamValidator` checks. -/
structure ManagedRules (before : List StreamEvent) (event : StreamEvent) : Prop where
  numbered : Numbered before event
  identified : Identified before event
  startsOnce : StartsOnce before event
  endsLast : EndsLast before event
  usageGrows : UsageGrows before event

def ManagedOmits (before : List StreamEvent) (event : StreamEvent) : Prop :=
  CallsOnce before event ∧ CitationsFollow before event

theorem fits_iff_managed (before : List StreamEvent) (event : StreamEvent) :
    Fits before event ↔ ManagedRules before event ∧ ManagedOmits before event := by
  constructor
  · intro fits
    exact ⟨⟨fits.numbered, fits.identified, fits.startsOnce, fits.endsLast, fits.usageGrows⟩,
      fits.callsOnce, fits.citationsFollow⟩
  · intro ⟨rules, calls, citations⟩
    exact ⟨rules.numbered, rules.identified, rules.startsOnce, rules.endsLast, rules.usageGrows, calls, citations⟩

theorem managedOmits_terminal (before : List StreamEvent) (event : StreamEvent)
    (ends : terminalEvent event = true) : ManagedOmits before event := by
  obtain ⟨-, call, batch⟩ := terminal_carries_nothing ends
  refine ⟨fun _ found => ?_, fun _ found => ?_⟩
  · rw [call] at found
    cases found
  · rw [batch] at found
    cases found

structure ManagedStreamValidator.Valid (validator : ManagedStreamValidator) : Prop where
  requestId : validator.requestId = validator.events.head?.map fun event => event.requestId
  traceId : validator.traceId = validator.events.head?.map fun event => event.traceId
  lastUsage : validator.lastUsage = (usages validator.events).getLast?
  terminal : validator.terminal = (validator.events.filter terminalEvent).getLast?

theorem ManagedStreamValidator.identify_eq_ok {validator : ManagedStreamValidator} {event : StreamEvent}
    {ids : Option Identifier × Option Identifier} (valid : validator.Valid)
    (accepted : validator.identify event = .ok ids) :
    Identified validator.events event ∧ StartsOnce validator.events event ∧
      ids.1 = (validator.events ++ [event]).head?.map (fun event => event.requestId) ∧
      ids.2 = (validator.events ++ [event]).head?.map (fun event => event.traceId) := by
  have request := valid.requestId
  have trace := valid.traceId
  unfold identify at accepted
  cases events : validator.events with
  | nil =>
    simp only [events, List.isEmpty_nil, ↓reduceIte] at accepted
    split at accepted
    · cases accepted
    · rename_i started
      obtain rfl := Except.ok.inj accepted
      refine ⟨?_, Iff.intro (fun _ => rfl) fun _ => ?_, rfl, rfl⟩
      · intro _ found
        cases found
      · simpa using started
  | cons first rest =>
    simp only [events, List.isEmpty_cons, Bool.false_eq_true, ↓reduceIte] at accepted
    split at accepted
    · cases accepted
    · rename_i later
      split at accepted
      · cases accepted
      · rename_i same
        obtain rfl := Except.ok.inj accepted
        rw [events] at request trace
        simp only [request, trace, List.head?_cons, Option.map_some, Bool.or_eq_true, bne_iff_ne, ne_eq,
          Option.some.injEq, not_or, not_not] at same
        refine ⟨fun head found => ?_, Iff.intro (fun starts => ?_) fun none => ?_, request, trace⟩
        · obtain rfl := Option.some.inj found
          exact same
        · rw [starts] at later
          exact absurd rfl later
        · cases none

theorem frameFields_terminal {sensitiveValues : List JsString} {terminal : Option StreamEvent}
    {frame : ServerSentEventFrame} {fields : JsString × JsString × JsString}
    (accepted : frameFields sensitiveValues terminal frame = .ok fields) : terminal = none := by
  unfold frameFields at accepted
  split at accepted
  · split at accepted
    · cases accepted
    · split at accepted
      · cases accepted
      · rename_i none
        simpa using none
  · cases accepted

section
variable [WebPlatform]

theorem pumpStream_sound (parseJson : JsString → Option Json) (sensitiveValues : List JsString)
    (suppressThrough : Option Nat) :
    (pumpStream parseJson sensitiveValues suppressThrough).Sound ManagedStreamValidator.events ManagedRules
      ManagedStreamValidator.Valid where
  start := rfl
  ready := ⟨rfl, rfl, rfl, rfl⟩
  grows taken := by
    simp only [pumpStream, ManagedStreamValidator.accept, bind_eq_ok, Except.ok.injEq, Prod.mk.injEq] at taken
    obtain ⟨_, _, _, _, _, _, _, _, _, _, _, _, _, _, _, _, rfl, rfl⟩ := taken
    rfl
  takes := by
    intro validator frame _ next keeps taken
    simp only [pumpStream, ManagedStreamValidator.accept, bind_eq_ok, must_eq_ok, beq_iff_eq, Except.ok.injEq,
      Prod.mk.injEq] at taken
    obtain ⟨_, given, _, _, event, parsed, _, _, _, _, _, number, ids, identified, _, grows, rfl, rfl⟩ := taken
    obtain ⟨same, starts, request, trace⟩ := ManagedStreamValidator.identify_eq_ok keeps.valid identified
    have isOpen : validator.events.filter terminalEvent = [] := by
      rw [← List.getLast?_eq_none_iff, ← keeps.valid.terminal]
      exact frameFields_terminal given
    have whole := parseStreamEvent_value parsed
    refine ⟨⟨request, trace, ?_, ?_⟩, ⟨number, same, starts, ?_, ?_⟩, whole ▸ parsed⟩
    · rw [usages_snoc, keeps.valid.lastUsage]
      cases event.usage? <;> simp
    · simp only [List.filter_append, keeps.valid.terminal]
      cases final : terminalEvent event <;> simp [final]
    · intro earlier member
      have none := List.filter_eq_nil_iff.mp isOpen earlier member
      rwa [Bool.not_eq_true] at none
    · intro usage found last before
      rw [Option.mem_def.mp found, keeps.valid.lastUsage, Option.mem_def.mp before] at grows
      simpa using grows
  numbered rules := ⟨rules.numbered, rules.endsLast⟩
  finishes keeps finished := by
    simp only [pumpStream, finishManaged] at finished
    split at finished
    · cases finished
    · rename_i terminal held
      split at finished
      · cases finished
      · rename_i whole accepted
        split at finished
        · obtain rfl := Option.some.inj finished
          have complete := complete_of_accepted keeps.parsed accepted
          exact ⟨complete, complete.held (keeps.valid.terminal.symm.trans held)⟩
        · cases finished

/-- The observer of a direct or a managed turn has a prefix of a whole response at every moment exactly when
the frames that the pump takes keep the rules that its own checks leave out. -/
theorem delivered_extends (context : DirectProviderTurnContext) (citationProjectionSupported : Bool)
    (projectUsage : Json → Checked Json) (provided : List (PumpAction (Option Json) ProviderAdapterResult))
    (parseJson : JsString → Option Json) (sensitiveValues : List JsString) (suppressThrough : Option Nat)
    (sent : List (PumpAction ServerSentEventFrame Bool)) :
    let direct := pumpProvider context citationProjectionSupported projectUsage
    let managed := pumpStream parseJson sensitiveValues suppressThrough
    ((∀ moment, moment <+: provided → Extends (direct.run direct.initial moment).observation.pushed) ↔
      Everywhere ProviderOmits (direct.accepted direct.start provided)) ∧
    ((∀ moment, moment <+: sent → Extends (managed.run managed.initial moment).observation.delivered) ↔
      Everywhere ManagedOmits (managed.accepted managed.start sent)) := by
  intro direct managed
  constructor
  · have fresh (moment : List (PumpAction (Option Json) ProviderAdapterResult)) :
        (direct.run direct.initial moment).observation.pushed = (direct.run direct.initial moment).observation.delivered :=
      (StreamPump.run_fresh rfl rfl moment).symm
    simp only [fresh]
    exact (pumpProvider_sound context citationProjectionSupported projectUsage).extends_iff fits_iff_provider
      providerOmits_terminal provided
  · exact (pumpStream_sound parseJson sensitiveValues suppressThrough).extends_iff fits_iff_managed
      managedOmits_terminal sent

end

/-! ### One call twice -/

def sampleCall (sequence : Nat) : Json := sampleFrame .toolCall sequence [
  ("tool_call_id", .str (js "call-1")), ("name", .str (js "lookup")), ("arguments", Json.object [])]

def repeatedCall : List Json := [sampleStarted, sampleCall 1, sampleCall 2]

def sampleContext : DirectProviderTurnContext where
  requestId := ⟨js "request-1", by decide, by decide⟩
  traceId := ⟨js "trace-1", by decide, by decide⟩
  attribution := {
    organization := ⟨js "org-1", by decide, by decide⟩
    project := ⟨js "project-1", by decide, by decide⟩
    serviceEnvironment := ⟨js "env-1", by decide, by decide⟩
    knownUser := none
    session := none
    automation := none }

/-- `JSON.parse` on the texts of the sample frames. -/
def parseSamples (text : JsString) : Option Json := repeatedCall.find? fun value => stringify value == text

def sampleServerFrame (type : StreamEventType) (sequence : Nat) (value : Json) : ServerSentEventFrame where
  event := some (js (Enumeration.text type))
  id := some (js "request-1:" ++ decimal sequence)
  data := some (stringify value)

def repeatedItems : List (PumpAction (Option Json) ProviderAdapterResult) :=
  repeatedCall.map fun value => .item (some value)

def repeatedFrames : List (PumpAction ServerSentEventFrame Bool) := [
  .item (sampleServerFrame .started 0 sampleStarted), .item (sampleServerFrame .toolCall 1 (sampleCall 1)),
  .item (sampleServerFrame .toolCall 2 (sampleCall 2))]

@[reducible] def samplePlatform : WebPlatform := ⟨fun _ => none, fun _ => []⟩

theorem repeated_call_delivered : ∃ (_ : WebPlatform) (context : DirectProviderTurnContext)
    (projectUsage : Json → Checked Json) (provided : List (PumpAction (Option Json) ProviderAdapterResult))
    (parseJson : JsString → Option Json) (sent : List (PumpAction ServerSentEventFrame Bool)),
    let direct := pumpProvider context true projectUsage
    let managed := pumpStream parseJson [] none
    ¬(∀ moment, moment <+: provided → Extends (direct.run direct.initial moment).observation.pushed) ∧
    ¬∀ moment, moment <+: sent → Extends (managed.run managed.initial moment).observation.pushed := by
  refine ⟨samplePlatform, sampleContext, .ok, repeatedItems, parseSamples, repeatedFrames, ?_, ?_⟩
  · intro always
    let _ : WebPlatform := samplePlatform
    have sound := pumpProvider_sound sampleContext true .ok
    have kept := (sound.extends_iff fits_iff_provider providerOmits_terminal repeatedItems).mp fun moment begins => by
      rw [StreamPump.run_fresh rfl rfl moment]
      exact always moment begins
    have distinct := toolCallIds_nodup (kept.imp fun _ _ rule => rule.2)
    revert distinct
    decide +kernel
  · intro always
    let _ : WebPlatform := samplePlatform
    have sound := pumpStream_sound parseSamples [] none
    have kept := (sound.extends_iff fits_iff_managed managedOmits_terminal repeatedFrames).mp fun moment begins => by
      rw [StreamPump.run_fresh rfl rfl moment]
      exact always moment begins
    have distinct := toolCallIds_nodup (kept.imp fun _ _ rule => rule.1)
    revert distinct
    decide +kernel

end Handrail.Transports

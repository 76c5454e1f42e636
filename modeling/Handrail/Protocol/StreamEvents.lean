import Handrail.Protocol.Boundary

/-!
# Stream events

`parseStreamEvent` checks one frame of a response, and `parseStreamEvents` checks that frames make a
whole response. The source hands the checked value itself on, so an event keeps it beside what its
checks read.
-/

namespace Handrail.Protocol
open Js Conversation

/-- `AuthoritativeAttribution`; the sources and the trust of its members are constants. -/
structure AuthoritativeAttribution where
  organization : Identifier
  project : Identifier
  serviceEnvironment : Identifier
  knownUser : Option Identifier
  session : Option Identifier
  automation : Option Identifier
deriving DecidableEq

structure Usage where
  inputTokens : Nat
  outputTokens : Nat
  totalTokens : Nat
deriving DecidableEq

structure PublicError where
  category : PublicErrorCategory
  code : PublicErrorCode
  message : BoundedText false protocolLimits.errorMessageLength
  retryable : Bool
deriving DecidableEq

structure BatchSource where
  source : CitationSource
  value : Json

structure CitationBatch where
  messageId : JsString
  sources : List BatchSource
  citations : List Citation

inductive StreamEventBody where
  | started (attribution : AuthoritativeAttribution)
  | textDelta (delta : BoundedText true protocolLimits.textLength)
  | toolCall (toolCallId name : Identifier) (arguments : Fields)
  | citationBatch (batch : CitationBatch)
  | usage (usage : Usage)
  | completed (outcome : CompletionOutcome)
  | cancelled (reason : CancellationReason)
  | error (error : PublicError)

structure Envelope where
  requestId : Identifier
  traceId : Identifier
  sequence : Nat

structure StreamEvent extends Envelope where
  /-- The value that was checked. -/
  value : Json
  body : StreamEventBody

def StreamEventBody.type : StreamEventBody → StreamEventType
  | started _ => .started
  | textDelta _ => .textDelta
  | toolCall _ _ _ => .toolCall
  | citationBatch _ => .citationBatch
  | usage _ => .usage
  | completed _ => .completed
  | cancelled _ => .cancelled
  | error _ => .error

/-- `event.type` -/
def StreamEvent.type (event : StreamEvent) : StreamEventType := event.body.type

def terminalEvent (event : StreamEvent) : Bool :=
  event.type == .completed || event.type == .cancelled || event.type == .error

/-! ### One event -/

def validateEnvelope (object : Fields) (allowed : List String) : Checked Envelope := do
  requiredKeys object ["type", "protocol_version", "request_id", "trace_id", "sequence"]
  allowedKeys object
    (["type", "protocol_version", "request_id", "trace_id", "sequence", "metadata"] ++ allowed)
  must (isLiteral (Json.get object "protocol_version") protocolVersion) ".protocol_version"
    (js ("must equal \"" ++ protocolVersion ++ "\""))
  let requestId ← field object "request_id" identifierValue
  let traceId ← field object "trace_id" identifierValue
  let sequence ← field object "sequence" nonNegativeInteger
  let _ ← optionalField object "metadata" validateMetadata
  .ok { requestId, traceId, sequence }

/-- `validateAttributionMember` -/
def attributionMember {α : Type} (id : Option Json → Checked α) (value : Option Json) : Checked α := do
  let object ← record "must be a JSON object" value
  requiredKeys object ["id", "source", "trust"]
  allowedKeys object ["id", "source", "trust"]
  let id ← field object "id" id
  must (isLiteral (Json.get object "source") "server_derived") ".source" (js "must equal \"server_derived\"")
  must (isLiteral (Json.get object "trust") "authoritative") ".trust" (js "must equal \"authoritative\"")
  .ok id

def nullableIdentifier : Option Json → Checked (Option Identifier)
  | some .null => .ok none
  | value => (identifierValue value).map some

def validateAttribution (value : Option Json) : Checked AuthoritativeAttribution := do
  let keys := ["organization", "project", "service_environment", "known_user", "session", "automation"]
  let object ← record "must be a JSON object" value
  requiredKeys object keys
  allowedKeys object keys
  let organization ← field object "organization" (attributionMember identifierValue)
  let project ← field object "project" (attributionMember identifierValue)
  let serviceEnvironment ← field object "service_environment" (attributionMember identifierValue)
  let knownUser ← field object "known_user" (attributionMember nullableIdentifier)
  let session ← field object "session" (attributionMember nullableIdentifier)
  let automation ← field object "automation" (attributionMember nullableIdentifier)
  .ok { organization, project, serviceEnvironment, knownUser, session, automation }

def validateUsage (value : Option Json) : Checked Usage := do
  let object ← record "must be a JSON object" value
  requiredKeys object ["input_tokens", "output_tokens", "total_tokens"]
  allowedKeys object ["input_tokens", "output_tokens", "total_tokens"]
  let inputTokens ← field object "input_tokens" nonNegativeInteger
  let outputTokens ← field object "output_tokens" nonNegativeInteger
  let totalTokens ← field object "total_tokens" nonNegativeInteger
  .ok { inputTokens, outputTokens, totalTokens }

def validateLinks (messageId : JsString) : Nat → Option Nat → List Citation → Checked Unit
  | _, _, [] => .ok ()
  | index, previousOrder, citation :: rest => do
    under (js ".citations[" ++ decimal index ++ js "]") do
      must (citation.target == .assistantMessage messageId) ".target"
        (js "must match the assistant output target")
      must (previousOrder.all fun previous => citation.order.toNat? == some (previous + 1)) ".order"
        (js "must be contiguous and strictly increasing within the batch")
    validateLinks messageId (index + 1) citation.order.toNat? rest

def batchSources (records : List CitationSource) : Option Json → List BatchSource
  | some (.arr values) => List.zipWith BatchSource.mk records values
  | _ => []

/-- The assistant output that a batch is about. Its links are not empty, so a `message_id` that is no
string already differs from the target of the first. -/
def batchTarget (citations : List Citation) (object : Fields) : Checked JsString := do
  let target ← field object "target" (record "must be a JSON object")
  under (js ".target") do
    requiredKeys target ["type", "message_id"]
    allowedKeys target ["type", "message_id"]
    must (isLiteral (Json.get target "type") "assistant_message") ".type"
      (js "must equal \"assistant_message\"")
  match Json.get target "message_id" with
  | some (.str messageId) =>
    validateLinks messageId 0 none citations
    .ok messageId
  | _ => under (js ".citations[0].target") (fail (js "must match the assistant output target"))

section
variable [WebPlatform]

def validateCitationBatch (object : Fields) : Checked (Envelope × CitationBatch) := do
  let envelope ← validateEnvelope object ["target", "sources", "citations"]
  requiredKeys object ["target", "sources", "citations"]
  let records ← caught (deduplicateCitationRecords (Json.get object "sources") (Json.get object "citations"))
  must (!records.citations.isEmpty) ".citations" (js "must contain at least one citation link")
  must
    ((Json.get object "sources").any (jsonValuesEqual (.arr (records.sources.map CitationSource.codec.encode))) &&
      (Json.get object "citations").any (jsonValuesEqual (.arr (records.citations.map Citation.codec.encode))))
    "" (js "citation records must already be normalized and identity-deduplicated")
  let messageId ← batchTarget records.citations object
  let sources := batchSources records.sources (Json.get object "sources")
  .ok (envelope, { messageId, sources, citations := records.citations })

def validatePublicError (value : Option Json) : Checked PublicError := do
  let object ← record "must be a JSON object" value
  requiredKeys object ["category", "code", "message", "retryable"]
  allowedKeys object ["category", "code", "message", "retryable"]
  let category ← field object "category" (enumValue Enumeration.values)
  let code ← field object "code" (enumValue Enumeration.values)
  let message ← field object "message" (stringValue false protocolLimits.errorMessageLength)
  let retryable ← field object "retryable" booleanValue
  .ok { category, code, message, retryable }

/-- An event whose one field beside the envelope is `key`. -/
def validateSingle {α : Type} (object : Fields) (key : String) (parse : Option Json → Checked α) :
    Checked (Envelope × α) := do
  let envelope ← validateEnvelope object [key]
  requiredKeys object [key]
  let value ← field object key parse
  .ok (envelope, value)

/-- The cases of `parseStreamEvent`. -/
def validateBody (object : Fields) : StreamEventType → Checked (Envelope × StreamEventBody)
  | .started => do
    let envelope ← validateEnvelope object ["attribution"]
    must (envelope.sequence == 0) ".sequence" (js "must be 0 for response.started")
    requiredKeys object ["attribution"]
    let attribution ← field object "attribution" validateAttribution
    .ok (envelope, .started attribution)
  | .textDelta => do
    let (envelope, delta) ← validateSingle object "delta" (stringValue true protocolLimits.textLength)
    .ok (envelope, .textDelta delta)
  | .toolCall => do
    let envelope ← validateEnvelope object ["tool_call_id", "name", "arguments"]
    requiredKeys object ["tool_call_id", "name", "arguments"]
    let toolCallId ← field object "tool_call_id" identifierValue
    let name ← field object "name" identifierValue
    let arguments ← field object "arguments" credentialFreeRecord
    .ok (envelope, .toolCall toolCallId name arguments)
  | .citationBatch => do
    let (envelope, batch) ← validateCitationBatch object
    .ok (envelope, .citationBatch batch)
  | .usage => do
    let (envelope, usage) ← validateSingle object "usage" validateUsage
    .ok (envelope, .usage usage)
  | .completed => do
    let (envelope, outcome) ← validateSingle object "outcome" (enumValue Enumeration.values)
    .ok (envelope, .completed outcome)
  | .cancelled => do
    let (envelope, reason) ← validateSingle object "reason" (enumValue Enumeration.values)
    .ok (envelope, .cancelled reason)
  | .error => do
    let (envelope, error) ← validateSingle object "error" validatePublicError
    .ok (envelope, .error error)

def parseStreamEvent (value : Option Json) : Checked StreamEvent :=
  under (js "$event") do
    let object ← record "must be a JSON object" value
    let type ← field object "type" (enumValue (Enumeration.values (α := StreamEventType)))
    let (envelope, body) ← validateBody object type
    must (type == .started || envelope.sequence != 0) ".sequence"
      (js "must be greater than 0 after response.started")
    .ok { envelope with value := .obj object, body }

end

/-! ### A whole response -/

/-- One of the three counts of `usage` is less than the same count of `last`. -/
def Usage.decreases (usage last : Usage) : Bool :=
  decide (usage.inputTokens < last.inputTokens) || decide (usage.outputTokens < last.outputTokens) ||
    decide (usage.totalTokens < last.totalTokens)

/-- The variables that the loop of `parseStreamEvents` carries. Maps and sets are lists with the last
entry first. -/
structure StreamScan where
  terminalCount : Nat
  lastUsage : Option Usage
  toolCallCount : Nat
  toolCallIds : List Identifier
  citationTargetId : Option JsString
  nextCitationOrder : Nat
  citationIds : List JsString
  citationSources : List (JsString × JsString)

def StreamScan.initial : StreamScan := ⟨0, none, 0, [], none, 0, [], []⟩

def scanSources : Nat → List (JsString × JsString) → List BatchSource → Checked (List (JsString × JsString))
  | _, known, [] => .ok known
  | index, known, source :: rest =>
    let fingerprint := stringify source.value
    if (known.lookup source.source.sourceId).any (· != fingerprint) then
      under (js ".sources[" ++ decimal index ++ js "].source_id")
        (fail (js "conflicts with an earlier source identity"))
    else scanSources (index + 1) ((source.source.sourceId, fingerprint) :: known) rest

/-- The links of a batch take the next orders and new identifiers; `misplaced` and `repeated` are the
failures at an index and an expected order. -/
def scanCitations (misplaced repeated : Nat → Nat → ValidationError) :
    Nat → Nat → List JsString → List Citation → Checked (Nat × List JsString)
  | _, next, ids, [] => .ok (next, ids)
  | index, next, ids, citation :: rest =>
    if citation.order.toNat? ≠ some next then .error (misplaced index next)
    else if citation.citationId ∈ ids then .error (repeated index next)
    else scanCitations misplaced repeated (index + 1) (next + 1) (citation.citationId :: ids) rest

def scanBatch (scan : StreamScan) (batch : CitationBatch) : Checked StreamScan := do
  must (scan.citationTargetId.all (batch.messageId == ·)) ".target.message_id"
    (js "must match the stream assistant output target")
  let citationSources ← scanSources 0 scan.citationSources batch.sources
  let (nextCitationOrder, citationIds) ← scanCitations
    (fun index next => ⟨js ".citations[" ++ decimal index ++ js "].order", js "must equal " ++ decimal next⟩)
    (fun index _ =>
      ⟨js ".citations[" ++ decimal index ++ js "].citation_id", js "must be unique within the stream"⟩)
    0 scan.nextCitationOrder scan.citationIds batch.citations
  .ok { scan with
    citationTargetId := some (scan.citationTargetId.getD batch.messageId)
    citationSources, nextCitationOrder, citationIds }

def scanBody (scan : StreamScan) (event : StreamEvent) : Checked StreamScan :=
  match event.body with
  | .usage usage => do
    must (!scan.lastUsage.any usage.decreases) ".usage" (js "cumulative usage must not decrease")
    .ok { scan with lastUsage := some usage }
  | .toolCall toolCallId _ _ => do
    must (!scan.toolCallIds.contains toolCallId) ".tool_call_id" (js "must be unique within the stream")
    .ok { scan with toolCallCount := scan.toolCallCount + 1, toolCallIds := toolCallId :: scan.toolCallIds }
  | .citationBatch batch => scanBatch scan batch
  | .completed _ | .cancelled _ | .error _ => .ok { scan with terminalCount := scan.terminalCount + 1 }
  | .started _ | .textDelta _ => .ok scan

/-- One turn of the loop, at `index` of `length` events. -/
def scanEvent (first : StreamEvent) (length index : Nat) (scan : StreamScan) (event : StreamEvent) :
    Checked StreamScan :=
  under (js "$events[" ++ decimal index ++ js "]") do
    must (event.requestId == first.requestId) ".request_id" (js "must match the stream request_id")
    must (event.traceId == first.traceId) ".trace_id" (js "must match the stream trace_id")
    must (event.sequence == index) ".sequence" (js "must equal " ++ decimal index)
    must (!(index != 0 && event.type == .started)) ".type" (js "response.started may appear only once")
    must (!(terminalEvent event && index + 1 != length)) "" (js "terminal event must be last")
    scanBody scan event

def scanEvents (first : StreamEvent) (length : Nat) : Nat → StreamScan → List StreamEvent → Checked StreamScan
  | _, scan, [] => .ok scan
  | index, scan, event :: rest => do
    let scan ← scanEvent first length index scan event
    scanEvents first length (index + 1) scan rest

def stopsForToolCalls (event : StreamEvent) : Bool :=
  match event.body with
  | .completed outcome => outcome == .toolCalls
  | _ => false

/-- `parseStreamEvents` after every event has been parsed. -/
def validateStream : List StreamEvent → Checked (List StreamEvent)
  | [] => under (js "$events") (fail (js "must be a non-empty array"))
  | first :: rest => do
    must (first.type == .started) "$events[0].type" (js "must be response.started")
    let scan ← scanEvents first (rest.length + 1) 0 .initial (first :: rest)
    must (scan.terminalCount == 1) "$events" (js "must contain exactly one terminal event")
    if ((first :: rest).getLast?.any stopsForToolCalls) && scan.toolCallCount == 0 then
      under (js "$events[" ++ decimal rest.length ++ js "].outcome")
        (fail (js "tool_calls requires at least one tool call event"))
    else .ok (first :: rest)

def parseStreamEvents [WebPlatform] (value : Option Json) : Checked (List StreamEvent) :=
  match value with
  | some (.arr values) => do
    let events ← everyItem parseStreamEvent values
    validateStream events
  | _ => under (js "$events") (fail (js "must be a non-empty array"))

end Handrail.Protocol

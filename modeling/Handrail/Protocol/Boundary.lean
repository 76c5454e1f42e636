import Handrail.Conversation.Events

/-!
# The public protocol boundary

The values of `protocol.ts` that a runtime streams to its client, and the checks on untrusted JSON
that its parsers share. The limits, the credential patterns and the messages differ from those of the
durable events, so the walk over a JSON value is the protocol's own.
-/

namespace Handrail.Protocol
open Js Conversation

/-! ### Vocabulary -/

/-- `AI_RUNTIME_PROTOCOL_VERSION` -/
def protocolVersion : String := "handrail.ai-runtime.v1"

/-- `AI_RUNTIME_STREAM_EVENT_TYPES` -/
inductive StreamEventType where
  | started
  | textDelta
  | toolCall
  | citationBatch
  | usage
  | completed
  | cancelled
  | error
deriving DecidableEq, Repr

instance : Enumeration StreamEventType where
  text
    | .started => "response.started"
    | .textDelta => "response.text.delta"
    | .toolCall => "response.tool_call"
    | .citationBatch => "response.citation_batch"
    | .usage => "response.usage"
    | .completed => "response.completed"
    | .cancelled => "response.cancelled"
    | .error => "response.error"
  values := [.started, .textDelta, .toolCall, .citationBatch, .usage, .completed, .cancelled, .error]
  mem_values a := by cases a <;> simp
  text_injective {a b} same := by cases a <;> cases b <;> simp_all

inductive CompletionOutcome where
  | stop
  | length
  | toolCalls
deriving DecidableEq, Repr

instance : Enumeration CompletionOutcome where
  text
    | .stop => "stop"
    | .length => "length"
    | .toolCalls => "tool_calls"
  values := [.stop, .length, .toolCalls]
  mem_values a := by cases a <;> simp
  text_injective {a b} same := by cases a <;> cases b <;> simp_all

inductive CancellationReason where
  | deadlineExceeded
  | policyRevoked
  | runtimeShutdown
deriving DecidableEq, Repr

instance : Enumeration CancellationReason where
  text
    | .deadlineExceeded => "deadline_exceeded"
    | .policyRevoked => "policy_revoked"
    | .runtimeShutdown => "runtime_shutdown"
  values := [.deadlineExceeded, .policyRevoked, .runtimeShutdown]
  mem_values a := by cases a <;> simp
  text_injective {a b} same := by cases a <;> cases b <;> simp_all

inductive PublicErrorCategory where
  | request
  | authentication
  | authorization
  | policy
  | capacity
  | upstream
  | internal
deriving DecidableEq, Repr

instance : Enumeration PublicErrorCategory where
  text
    | .request => "request"
    | .authentication => "authentication"
    | .authorization => "authorization"
    | .policy => "policy"
    | .capacity => "capacity"
    | .upstream => "upstream"
    | .internal => "internal"
  values := [.request, .authentication, .authorization, .policy, .capacity, .upstream, .internal]
  mem_values a := by cases a <;> simp
  text_injective {a b} same := by cases a <;> cases b <;> simp_all

inductive PublicErrorCode where
  | invalidRequest
  | unauthenticated
  | forbidden
  | policyDenied
  | rateLimited
  | capacityExceeded
  | idempotencyConflict
  | deadlineExceeded
  | upstreamUnavailable
  | internalError
deriving DecidableEq, Repr

instance : Enumeration PublicErrorCode where
  text
    | .invalidRequest => "invalid_request"
    | .unauthenticated => "unauthenticated"
    | .forbidden => "forbidden"
    | .policyDenied => "policy_denied"
    | .rateLimited => "rate_limited"
    | .capacityExceeded => "capacity_exceeded"
    | .idempotencyConflict => "idempotency_conflict"
    | .deadlineExceeded => "deadline_exceeded"
    | .upstreamUnavailable => "upstream_unavailable"
    | .internalError => "internal_error"
  values := [.invalidRequest, .unauthenticated, .forbidden, .policyDenied, .rateLimited, .capacityExceeded,
    .idempotencyConflict, .deadlineExceeded, .upstreamUnavailable, .internalError]
  mem_values a := by cases a <;> simp
  text_injective {a b} same := by cases a <;> cases b <;> simp_all

/-- The members of `AI_RUNTIME_PROTOCOL_LIMITS` that stream events are held to. -/
structure ProtocolLimits where
  identifierLength := 256
  textLength := 1000000
  errorMessageLength := 1024
  metadataSerializedBytes := 16384

def protocolLimits : ProtocolLimits := {}

/-! ### Forbidden names and texts -/

/-- `CREDENTIAL_FIELD_NAMES` of `protocol.ts`. -/
def credentialFieldNames : List String := [
  "accesstoken", "apikey", "apitoken", "authorization", "bearertoken", "clientsecret", "cookie",
  "credential", "credentials", "idtoken", "managedtoken", "password", "passwd", "privatekey",
  "proxyauthorization", "refreshtoken", "secret", "secretkey", "secrets", "setcookie", "signingkey"]

/-- `METADATA_FORBIDDEN_FIELD_NAMES` of `protocol.ts`. -/
def metadataForbiddenFieldNames : List String := credentialFieldNames ++ [
  "anthropic", "attribution", "automation", "automationid", "chunk", "choices", "completiontokens",
  "contentblock", "contentblockdelta", "finishreason", "functioncall", "functioncallingconfig",
  "gemini", "headers", "knownuser", "knownuserid", "model", "modelid", "modeltransport",
  "nativechunk", "nativefinishreason", "openai", "organization", "organizationid", "orgid",
  "project", "projectid", "provider", "providerchunk", "providererror", "providername",
  "providerpayload", "providerrequest", "providerresponse", "promptfeedback", "prompttokens", "raw",
  "rawerror", "rawrequest", "rawresponse", "requestheaders", "requestid", "serviceenvironment",
  "serviceenvironmentid", "session", "sessionid", "stopreason", "stopsequence", "systemfingerprint",
  "tooluse", "tooluses", "traceid", "usagemetadata", "xai"]

/-! ### Checks -/

/-- `if (!condition) fail(path + segment, message)` -/
def must (condition : Bool) (segment : String) (message : JsString) : Checked Unit :=
  if condition then .ok () else under (js segment) (fail message)

@[simp] theorem must_eq_ok {condition : Bool} {segment : String} {message : JsString} {done : Unit} :
    must condition segment message = .ok done ↔ condition = true := by
  cases condition <;> simp [must, under, fail, Except.mapError]

/-- An identifier of the protocol: `stringValue(value, path)`. -/
def identifierValue : Option Json → Checked Identifier := stringValue false protocolLimits.identifierLength

/-- `Number.isInteger(value) && value >= 0`, as its value. -/
def nonNegativeInteger : Option Json → Checked Nat
  | some (.num x) =>
    match x.toNat? with
    | some n => .ok n
    | none => fail (js "must be a non-negative integer")
  | _ => fail (js "must be a non-negative integer")

theorem nonNegativeInteger_ofNat (n : Nat) : nonNegativeInteger (some (.num (JsNumber.ofNat n))) = .ok n := by
  simp [nonNegativeInteger]

def booleanValue : Option Json → Checked Bool
  | some (.bool b) => .ok b
  | _ => fail (js "must be a boolean")

/-! ### `validateJson` -/

/-- `JsonLimits` of `protocol.ts`. -/
structure BoundaryLimits where
  maxDepth : Nat
  maxNodes : Nat
  maxArrayLength : Nat
  maxObjectKeys : Nat
  maxKeyLength : Nat
  maxStringLength : Nat
  forbiddenFields : List String
  forbiddenStringValues : List String

/-- `PUBLIC_JSON_LIMITS` -/
def publicJsonLimits : BoundaryLimits where
  maxDepth := 20
  maxNodes := 10000
  maxArrayLength := 2000
  maxObjectKeys := 2000
  maxKeyLength := 256
  maxStringLength := 1000000
  forbiddenFields := credentialFieldNames
  forbiddenStringValues := []

/-- `METADATA_LIMITS` of `protocol.ts`. -/
def metadataLimits : BoundaryLimits where
  maxDepth := 5
  maxNodes := 256
  maxArrayLength := 64
  maxObjectKeys := 64
  maxKeyLength := 128
  maxStringLength := 4096
  forbiddenFields := metadataForbiddenFieldNames
  forbiddenStringValues := metadataForbiddenStringValues

/-- One more JSON value at `depth`: the number of values seen so far. -/
def visitNode (limits : BoundaryLimits) (path : JsString) (depth nodes : Nat) : Checked Nat :=
  if limits.maxNodes < nodes + 1 then
    fail (js "must contain at most " ++ decimal limits.maxNodes ++ js " JSON values")
  else if limits.maxDepth < depth then
    under path (fail (js "exceeds maximum depth " ++ decimal limits.maxDepth))
  else .ok (nodes + 1)

/-- The credential patterns of `protocol.ts` are those of `citations.ts`. -/
def visitString (limits : BoundaryLimits) (path text : JsString) : Checked Unit :=
  if limits.maxStringLength < text.length then
    under path (fail (js "must be at most " ++ decimal limits.maxStringLength ++ js " characters"))
  else if matchesAny citationCredentialPatterns text then
    under path (fail (js "must not contain credential material"))
  else if namedIn limits.forbiddenStringValues text then
    under path (fail (js "must not identify provider-native data"))
  else .ok ()

def visitKey (limits : BoundaryLimits) (path key : JsString) : Checked Unit :=
  if key.length = 0 ∨ limits.maxKeyLength < key.length then
    under (path ++ js "." ++ key)
      (fail (js "field names must be 1-" ++ decimal limits.maxKeyLength ++ js " characters"))
  else if namedIn limits.forbiddenFields key then
    under (path ++ js "." ++ key) (fail (js "is forbidden at this public protocol boundary"))
  else .ok ()

mutual
/-- `visit` of `protocol.ts`, which returns how many JSON values it has counted. -/
def visit (limits : BoundaryLimits) (path : JsString) (depth nodes : Nat) : Json → Checked Nat
  | .null => visitNode limits path depth nodes
  | .bool _ => visitNode limits path depth nodes
  | .num _ => visitNode limits path depth nodes
  | .str text => do
    let nodes ← visitNode limits path depth nodes
    visitString limits path text
    .ok nodes
  | .arr items => do
    let nodes ← visitNode limits path depth nodes
    if limits.maxArrayLength < items.length then
      under path (fail (js "must contain at most " ++ decimal limits.maxArrayLength ++ js " items"))
    else visitItems limits path depth nodes 0 items
  | .obj fields => do
    let nodes ← visitNode limits path depth nodes
    let fields' ← under path (record "must be a JSON object" (some (.obj fields)))
    if limits.maxObjectKeys < fields'.length then
      under path (fail (js "must contain at most " ++ decimal limits.maxObjectKeys ++ js " fields"))
    else visitFields limits path depth nodes fields
termination_by structural j => j
def visitItems (limits : BoundaryLimits) (path : JsString) (depth nodes index : Nat) : List Json → Checked Nat
  | [] => .ok nodes
  | item :: rest => do
    let nodes ← visit limits (path ++ js "[" ++ decimal index ++ js "]") (depth + 1) nodes item
    visitItems limits path depth nodes (index + 1) rest
termination_by structural items => items
def visitFields (limits : BoundaryLimits) (path : JsString) (depth nodes : Nat) : Fields → Checked Nat
  | [] => .ok nodes
  | (key, value) :: rest => do
    visitKey limits path key
    let nodes ← visit limits (path ++ js "." ++ key) (depth + 1) nodes value
    visitFields limits path depth nodes rest
termination_by structural fields => fields
end

/-- `validateJson` of `protocol.ts`. -/
def validateJson (limits : BoundaryLimits) (value : Json) : Checked Unit := do
  let _ ← visit limits JsString.empty 0 0 value
  .ok ()

/-- `validateMetadata` of `protocol.ts`. -/
def validateMetadata (value : Option Json) : Checked Fields := do
  let fields ← record "must be a JSON object" value
  validateJson metadataLimits (.obj fields)
  if protocolLimits.metadataSerializedBytes < utf8ByteLength (stringify (.obj fields)) then
    fail (js "must serialize to at most " ++ decimal protocolLimits.metadataSerializedBytes ++ js " bytes")
  else .ok fields

/-- The `arguments` of a tool call: `record` and then `validateCredentialsAbsent`. -/
def credentialFreeRecord (value : Option Json) : Checked Fields := do
  let fields ← record "must be a JSON object" value
  validateJson publicJsonLimits (.obj fields)
  .ok fields

end Handrail.Protocol

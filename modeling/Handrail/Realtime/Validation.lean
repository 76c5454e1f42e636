import Handrail.Citations
import Handrail.Conversation.Vocabulary

/-!
# `realtime/validation.ts`

The events and the errors of a realtime voice session, and the state that the events drive.
-/

namespace Handrail.Realtime
open Js Conversation

/-- `REALTIME_VOICE_CONTRACT_VERSION` -/
def realtimeVoiceContractVersion : String := "handrail.realtime-voice.v1"

/-- The members of `REALTIME_VOICE_LIMITS` that events and sessions are held to. -/
structure RealtimeVoiceLimits where
  identifierLength := 128
  trackedEventIds := 128
  trackedTerminalSessions := 1000

def realtimeVoiceLimits : RealtimeVoiceLimits := {}

/-! ### Errors -/

inductive RealtimeVoiceErrorCode where
  | invalidRequest
  | invalidState
  | unsupportedCapability
  | authorizationExpired
  | idempotencyConflict
  | cancelled
  | deadlineExceeded
  | temporarilyUnavailable
  | internalFailure
deriving DecidableEq, Repr

instance : Enumeration RealtimeVoiceErrorCode where
  text
    | .invalidRequest => "invalid_request"
    | .invalidState => "invalid_state"
    | .unsupportedCapability => "unsupported_capability"
    | .authorizationExpired => "authorization_expired"
    | .idempotencyConflict => "idempotency_conflict"
    | .cancelled => "cancelled"
    | .deadlineExceeded => "deadline_exceeded"
    | .temporarilyUnavailable => "temporarily_unavailable"
    | .internalFailure => "internal_failure"
  values := [.invalidRequest, .invalidState, .unsupportedCapability, .authorizationExpired, .idempotencyConflict,
    .cancelled, .deadlineExceeded, .temporarilyUnavailable, .internalFailure]
  mem_values a := by cases a <;> simp
  text_injective {a b} same := by cases a <;> cases b <;> simp_all

structure RealtimeVoiceSafeError where
  code : RealtimeVoiceErrorCode
  message : String
  retryable : Bool
deriving DecidableEq, Repr

/-- `realtimeVoiceSafeError`, with its table `SAFE_ERRORS`. -/
def realtimeVoiceSafeError (code : RealtimeVoiceErrorCode) : RealtimeVoiceSafeError :=
  match code with
  | .invalidRequest => ⟨code, "The realtime voice request is invalid.", false⟩
  | .invalidState => ⟨code, "The realtime voice operation is not valid in the current state.", false⟩
  | .unsupportedCapability => ⟨code, "A requested realtime voice capability is unavailable.", false⟩
  | .authorizationExpired => ⟨code, "The realtime voice authorization has expired.", false⟩
  | .idempotencyConflict =>
    ⟨code, "The idempotency key conflicts with another realtime voice operation.", false⟩
  | .cancelled => ⟨code, "The realtime voice operation was cancelled.", false⟩
  | .deadlineExceeded => ⟨code, "The realtime voice operation exceeded its deadline.", true⟩
  | .temporarilyUnavailable => ⟨code, "Realtime voice is temporarily unavailable.", true⟩
  | .internalFailure => ⟨code, "The realtime voice operation failed.", false⟩

inductive Thrown where
  /-- A `RealtimeVoiceOperationError`; a `RealtimeVoiceTransitionError` is one of code `invalid_state`. -/
  | operation (code : RealtimeVoiceErrorCode)
  /-- A `RealtimeVoiceValidationError`. -/
  | validation (error : ValidationError)
  /-- Any other value; `none` is one that is no JSON value, such as a native error. -/
  | value (thrown : Option Json)

/-- `new RealtimeVoiceTransitionError()` -/
def transitionError : Thrown := .operation .invalidState

def orThrow {α : Type} (check : Checked α) : Except Thrown α := check.mapError .validation

def parseRealtimeVoiceSafeError (value : Option Json) : Checked RealtimeVoiceSafeError := under (js "$error") do
  let source ← record "must be a plain JSON object" value
  allowedKeys source ["code", "message", "retryable"]
  requiredKeys source ["code", "message", "retryable"]
  let code ← field source "code" (enumValue (Enumeration.values (α := RealtimeVoiceErrorCode)))
  let expected := realtimeVoiceSafeError code
  match Json.get source "message", Json.get source "retryable" with
  | some (.str message), some (.bool retryable) =>
    if message = js expected.message ∧ retryable = expected.retryable then .ok expected
    else fail (js "must use the fixed safe message and retryability for its code")
  | _, _ => fail (js "must use the fixed safe message and retryability for its code")

/-- The code of `normalizeRealtimeVoiceError(error, signal)`. -/
def normalizeRealtimeVoiceError (error : Thrown) (aborted : Bool) : RealtimeVoiceErrorCode :=
  if aborted then .cancelled
  else
    match error with
    | .operation code => code
    | .validation _ => .internalFailure
    | .value thrown =>
      match parseRealtimeVoiceSafeError thrown with
      | .ok safe => safe.code
      | .error _ => .internalFailure

/-! ### Events -/

/-- `boundedString` of `realtime/validation.ts`; its credential patterns are those of `citations.ts`. -/
def voiceText (maximum : Nat) : Option Json → Checked JsString
  | some (.str value) =>
    if value.length = 0 ∨ maximum < value.length then
      fail (js "must contain 1-" ++ decimal maximum ++ js " characters")
    else if value.units.any fun c => c ≤ 0x1f || c == 0x7f then fail (js "must not contain control characters")
    else if matchesAny citationCredentialPatterns value then fail (js "must not contain credential material")
    else .ok value
  | _ => fail (js "must be a string")

/-- `IDENTIFIER` -/
def voiceIdentifierPattern : Pattern :=
  .all [.start, .unit Pattern.isAlphanumeric, .repeats (alphanumericOr "._:@+-") 0 none, .finish]

/-- `identifier` of `realtime/validation.ts`. -/
def voiceIdentifier (value : Option Json) : Checked JsString := do
  let parsed ← voiceText realtimeVoiceLimits.identifierLength value
  if voiceIdentifierPattern.test parsed then .ok parsed else fail (js "must be an opaque identifier")

/-- `integer` of `realtime/validation.ts`. -/
def voiceInteger (minimum maximum : Nat) : Option Json → Checked Nat
  | some (.num x) =>
    match x.safeNat? with
    | some n =>
      if minimum ≤ n ∧ n ≤ maximum then .ok n
      else fail (js "must be a safe integer from " ++ decimal minimum ++ js " through " ++ decimal maximum)
    | none => fail (js "must be a safe integer from " ++ decimal minimum ++ js " through " ++ decimal maximum)
  | _ => fail (js "must be a safe integer from " ++ decimal minimum ++ js " through " ++ decimal maximum)

def isCanonicalUtc (t : UtcTimestamp) : Bool :=
  (daysInMonth t.year t.month).any (fun days => 1 ≤ t.day && t.day ≤ days) && t.hour ≤ 23 && t.minute ≤ 59 &&
    t.second ≤ 59

/-- `toISOString` of a timestamp of at most millisecond precision. -/
def isoText (text : JsString) : JsString :=
  let fraction := ((text.units.drop 20).dropLast ++ [48, 48, 48]).take 3
  ⟨text.units.take 19 ++ [46] ++ fraction ++ [90]⟩

/-- `timestamp` of `realtime/validation.ts`: its `value`. At most three digits of a fraction fit in 24 code units. -/
def voiceTimestamp : Option Json → Checked JsString
  | some (.str value) =>
    match readTimestamp value with
    | some t =>
      if 24 < value.length then fail (js "must be an RFC 3339 UTC timestamp with at most millisecond precision")
      else if isCanonicalUtc t then .ok (isoText value)
      else fail (js "must be a canonical valid UTC timestamp")
    | none => fail (js "must be an RFC 3339 UTC timestamp with at most millisecond precision")
  | _ => fail (js "must be an RFC 3339 UTC timestamp with at most millisecond precision")

example : isoText (js "2026-01-02T03:04:05.6Z") = js "2026-01-02T03:04:05.600Z" := by decide

inductive RealtimeVoiceEventType where
  | sessionStarted
  | responseStarted
  | responseInterrupted
  | localMediaStopped
  | hangupStarted
  | sessionEnded
  | sessionFailed
deriving DecidableEq, Repr

instance : Enumeration RealtimeVoiceEventType where
  text
    | .sessionStarted => "session_started"
    | .responseStarted => "response_started"
    | .responseInterrupted => "response_interrupted"
    | .localMediaStopped => "local_media_stopped"
    | .hangupStarted => "hangup_started"
    | .sessionEnded => "session_ended"
    | .sessionFailed => "session_failed"
  values := [.sessionStarted, .responseStarted, .responseInterrupted, .localMediaStopped, .hangupStarted,
    .sessionEnded, .sessionFailed]
  mem_values a := by cases a <;> simp
  text_injective {a b} same := by cases a <;> cases b <;> simp_all

structure RealtimeVoiceSessionEvent where
  sessionId : JsString
  eventId : JsString
  sequence : Nat
  occurredAt : JsString
  type : RealtimeVoiceEventType
  /-- `error`, which a `session_failed` has. -/
  error : Option RealtimeVoiceSafeError
deriving DecidableEq, Repr

def eventType : Option Json → Checked RealtimeVoiceEventType
  | some (.str text) =>
    match valueOf Enumeration.values text with
    | some type => .ok type
    | none => fail (js "is not supported")
  | _ => fail (js "is not supported")

def versionValue : Option Json → Checked Unit
  | some (.str text) =>
    if text = js realtimeVoiceContractVersion then .ok ()
    else fail (js "must equal " ++ js realtimeVoiceContractVersion)
  | _ => fail (js "must equal " ++ js realtimeVoiceContractVersion)

/-- `parseRealtimeVoiceSessionEvent` without the error of a failed session. -/
def parseEventBase (source : Fields) : Checked RealtimeVoiceSessionEvent := do
  let type ← field source "type" eventType
  let fields := ["version", "session_id", "event_id", "sequence", "occurred_at", "type"] ++
    if type = .sessionFailed then ["error"] else []
  allowedKeys source fields
  requiredKeys source fields
  let _ ← field source "version" versionValue
  let sessionId ← field source "session_id" voiceIdentifier
  let eventId ← field source "event_id" voiceIdentifier
  let sequence ← field source "sequence" (voiceInteger 1 JsNumber.maxSafeInteger)
  let occurredAt ← field source "occurred_at" voiceTimestamp
  .ok { sessionId, eventId, sequence, occurredAt, type, error := none }

/-- `parseRealtimeVoiceSessionEvent`. The path of a failing error is its own. -/
def parseRealtimeVoiceSessionEvent (value : Option Json) : Checked RealtimeVoiceSessionEvent := do
  let source ← under (js "$event") (record "must be a plain JSON object" value)
  let base ← under (js "$event") (parseEventBase source)
  if base.type = .sessionFailed then
    let error ← parseRealtimeVoiceSafeError (Json.get source "error")
    .ok { base with error := some error }
  else .ok base

/-! ### The state of a session -/

structure RealtimeVoiceAudioConfiguration where
  encoding : JsString
  sampleRateHz : Nat
  channels : Nat
deriving DecidableEq, Repr

structure RealtimeVoiceSessionConfiguration where
  maximumDurationMs : Nat
  idleTimeoutMs : Nat
  inputAudio : Option RealtimeVoiceAudioConfiguration
  outputAudio : Option RealtimeVoiceAudioConfiguration
deriving DecidableEq, Repr

inductive RealtimeVoiceCapabilityDescriptor where
  | supported
  | unsupported (reason : JsString)
deriving DecidableEq, Repr

/-- `supported` -/
def RealtimeVoiceCapabilityDescriptor.isSupported : RealtimeVoiceCapabilityDescriptor → Bool
  | .supported => true
  | .unsupported _ => false

inductive RealtimeVoiceServerToolCapabilityDescriptor where
  | supported (capabilityRef : JsString)
  | unsupported (reason : JsString)
deriving DecidableEq, Repr

structure RealtimeVoiceCapabilities where
  inputAudio : RealtimeVoiceCapabilityDescriptor
  outputAudio : RealtimeVoiceCapabilityDescriptor
  interruption : RealtimeVoiceCapabilityDescriptor
  serverToolExecution : RealtimeVoiceServerToolCapabilityDescriptor
deriving DecidableEq, Repr

inductive RealtimeVoiceSessionStatus where
  | ready
  | active
  | ending
  | ended
  | failed
deriving DecidableEq, Repr

structure RealtimeVoiceSessionState where
  sessionId : JsString
  status : RealtimeVoiceSessionStatus
  configuration : RealtimeVoiceSessionConfiguration
  capabilities : RealtimeVoiceCapabilities
  /-- `local_media === "active"` -/
  localMediaActive : Bool
  responseActive : Bool
  lastEventSequence : Nat
  recentEventIds : List JsString
  error : Option RealtimeVoiceSafeError
deriving DecidableEq, Repr

structure RealtimeVoiceClientAuthorization where
  value : JsString
  expiresAt : JsString
deriving DecidableEq, Repr

structure RealtimeVoiceBootstrapResult where
  requestId : JsString
  sessionId : JsString
  issuedAt : JsString
  expiresAt : JsString
  authorization : RealtimeVoiceClientAuthorization
  /-- `connection.reference`; the transport of a connection is always `webrtc`. -/
  connection : JsString
  configuration : RealtimeVoiceSessionConfiguration
  capabilities : RealtimeVoiceCapabilities
deriving DecidableEq, Repr

/-- `createRealtimeVoiceSessionState`, on a bootstrap result that was parsed. -/
def createRealtimeVoiceSessionState (bootstrap : RealtimeVoiceBootstrapResult) : RealtimeVoiceSessionState where
  sessionId := bootstrap.sessionId
  status := .ready
  configuration := bootstrap.configuration
  capabilities := bootstrap.capabilities
  localMediaActive := true
  responseActive := false
  lastEventSequence := 0
  recentEventIds := []
  error := none

/-- The state with what `rememberEvent` answers. -/
def rememberEvent (state : RealtimeVoiceSessionState) (event : RealtimeVoiceSessionEvent) : RealtimeVoiceSessionState :=
  let ids := state.recentEventIds ++ [event.eventId]
  { state with
    lastEventSequence := event.sequence
    recentEventIds := ids.drop (ids.length - realtimeVoiceLimits.trackedEventIds) }

/-- The state with what `transitionPatch` answers. -/
def transitionPatch (state : RealtimeVoiceSessionState) (event : RealtimeVoiceSessionEvent) :
    Except Thrown RealtimeVoiceSessionState :=
  if state.status = .ended ∨ state.status = .failed then .error transitionError
  else
    match event.type with
    | .sessionStarted => if state.status ≠ .ready then .error transitionError else .ok { state with status := .active }
    | .responseStarted =>
      if state.status ≠ .active ∨ state.responseActive = true then .error transitionError
      else .ok { state with responseActive := true }
    | .responseInterrupted =>
      if state.status ≠ .active ∨ state.responseActive = false then .error transitionError
      else .ok { state with responseActive := false }
    | .localMediaStopped =>
      if state.localMediaActive = false then .error transitionError
      else .ok { state with localMediaActive := false }
    | .hangupStarted =>
      if state.status = .ending then .error transitionError
      else .ok { state with
        status := .ending
        responseActive := false }
    | .sessionEnded =>
      .ok { state with
        status := .ended
        localMediaActive := false
        responseActive := false
        error := none }
    | .sessionFailed =>
      .ok { state with
        status := .failed
        localMediaActive := false
        responseActive := false
        error := event.error }

def applyRealtimeVoiceSessionEvent (state : RealtimeVoiceSessionState) (value : Option Json) :
    Except Thrown RealtimeVoiceSessionState := do
  let event ← orThrow (parseRealtimeVoiceSessionEvent value)
  if event.sessionId ≠ state.sessionId then
    orThrow (under (js "$event.session_id") (fail (js "must match the session state")))
  else if event.sequence ≤ state.lastEventSequence ∨ event.eventId ∈ state.recentEventIds then .ok state
  else (transitionPatch state event).map fun patched => rememberEvent patched event

end Handrail.Realtime

import Handrail.Citations
import Handrail.Conversation.JsonLimits

/-!
# The vocabulary of durable events

The enumerations and the small records that events and the projected state share, with the checks
of `events.ts` on them. Identifiers, timestamps and integers carry their bounds.
-/

namespace Handrail.Conversation
open Js

/-! ### Enumerations -/

/-- `CONVERSATION_EVENT_ACTOR_TYPES` -/
inductive ActorType where
  | user
  | assistant
  | tool
  | system
deriving DecidableEq, Repr

instance : Enumeration ActorType where
  text
    | .user => "user"
    | .assistant => "assistant"
    | .tool => "tool"
    | .system => "system"
  values := [.user, .assistant, .tool, .system]
  mem_values a := by cases a <;> simp
  text_injective {a b} same := by cases a <;> cases b <;> simp_all

/-- `CONVERSATION_EVENT_SOURCE_TYPES` -/
inductive SourceType where
  | client
  | runtime
  | sync
  | «import»
deriving DecidableEq, Repr

instance : Enumeration SourceType where
  text
    | .client => "client"
    | .runtime => "runtime"
    | .sync => "sync"
    | .import => "import"
  values := [.client, .runtime, .sync, .import]
  mem_values a := by cases a <;> simp
  text_injective {a b} same := by cases a <;> cases b <;> simp_all

inductive MessageRole where
  | user
  | assistant
  | system
deriving DecidableEq, Repr

instance : Enumeration MessageRole where
  text
    | .user => "user"
    | .assistant => "assistant"
    | .system => "system"
  values := [.user, .assistant, .system]
  mem_values a := by cases a <;> simp
  text_injective {a b} same := by cases a <;> cases b <;> simp_all

inductive AttachmentKind where
  | image
  | document
deriving DecidableEq, Repr

instance : Enumeration AttachmentKind where
  text
    | .image => "image"
    | .document => "document"
  values := [.image, .document]
  mem_values a := by cases a <;> simp
  text_injective {a b} same := by cases a <;> cases b <;> simp_all

inductive MimeType where
  | jpeg
  | png
  | gif
  | webp
  | pdf
  | spreadsheet
  | excel
  | csv
  | tsv
deriving DecidableEq, Repr

/-- `AI_RUNTIME_IMAGE_MIME_TYPES` -/
def imageMimeTypes : List MimeType := [.jpeg, .png, .gif, .webp]

/-- `AI_RUNTIME_DOCUMENT_MIME_TYPES` -/
def documentMimeTypes : List MimeType := [.pdf, .spreadsheet, .excel, .csv, .tsv]

instance : Enumeration MimeType where
  text
    | .jpeg => "image/jpeg"
    | .png => "image/png"
    | .gif => "image/gif"
    | .webp => "image/webp"
    | .pdf => "application/pdf"
    | .spreadsheet => "application/vnd.openxmlformats-officedocument.spreadsheetml.sheet"
    | .excel => "application/vnd.ms-excel"
    | .csv => "text/csv"
    | .tsv => "text/tab-separated-values"
  values := imageMimeTypes ++ documentMimeTypes
  mem_values a := by cases a <;> simp [imageMimeTypes, documentMimeTypes]
  text_injective {a b} same := by cases a <;> cases b <;> simp_all

/-- The statuses that an event can give a turn: `TURN_STATUSES`. -/
inductive TurnStatus where
  | queued
  | running
  | waitingForToolResult
deriving DecidableEq, Repr

instance : Enumeration TurnStatus where
  text
    | .queued => "queued"
    | .running => "running"
    | .waitingForToolResult => "waiting_for_tool_result"
  values := [.queued, .running, .waitingForToolResult]
  mem_values a := by cases a <;> simp
  text_injective {a b} same := by cases a <;> cases b <;> simp_all

inductive TurnAttemptOperation where
  | start
  | resume
deriving DecidableEq, Repr

instance : Enumeration TurnAttemptOperation where
  text
    | .start => "start"
    | .resume => "resume"
  values := [.start, .resume]
  mem_values a := by cases a <;> simp
  text_injective {a b} same := by cases a <;> cases b <;> simp_all

/-- `RETRY_REASON_CATEGORIES` -/
inductive RetryReasonCategory where
  | rateLimit
  | timeout
  | unavailable
  | internal
  | disconnected
  | interrupted
deriving DecidableEq, Repr

instance : Enumeration RetryReasonCategory where
  text
    | .rateLimit => "rate_limit"
    | .timeout => "timeout"
    | .unavailable => "unavailable"
    | .internal => "internal"
    | .disconnected => "disconnected"
    | .interrupted => "interrupted"
  values := [.rateLimit, .timeout, .unavailable, .internal, .disconnected, .interrupted]
  mem_values a := by cases a <;> simp
  text_injective {a b} same := by cases a <;> cases b <;> simp_all

/-- `RETRY_EXHAUSTION_REASONS` -/
inductive RetryExhaustionReason where
  | maximumAttempts
  | maximumElapsedTime
deriving DecidableEq, Repr

instance : Enumeration RetryExhaustionReason where
  text
    | .maximumAttempts => "maximum_attempts"
    | .maximumElapsedTime => "maximum_elapsed_time"
  values := [.maximumAttempts, .maximumElapsedTime]
  mem_values a := by cases a <;> simp
  text_injective {a b} same := by cases a <;> cases b <;> simp_all

/-- `TURN_COMPLETION_OUTCOMES` -/
inductive TurnCompletionOutcome where
  | stop
  | length
  | toolCalls
deriving DecidableEq, Repr

instance : Enumeration TurnCompletionOutcome where
  text
    | .stop => "stop"
    | .length => "length"
    | .toolCalls => "tool_calls"
  values := [.stop, .length, .toolCalls]
  mem_values a := by cases a <;> simp
  text_injective {a b} same := by cases a <;> cases b <;> simp_all

/-- `TURN_CANCELLATION_REASONS` -/
inductive TurnCancellationReason where
  | user
  | timeout
  | superseded
  | runtimeShutdown
deriving DecidableEq, Repr

instance : Enumeration TurnCancellationReason where
  text
    | .user => "user"
    | .timeout => "timeout"
    | .superseded => "superseded"
    | .runtimeShutdown => "runtime_shutdown"
  values := [.user, .timeout, .superseded, .runtimeShutdown]
  mem_values a := by cases a <;> simp
  text_injective {a b} same := by cases a <;> cases b <;> simp_all

/-- `CONVERSATION_APPROVAL_PROPOSAL_STATUSES` -/
inductive ApprovalProposalStatus where
  | pending
  | confirmed
  | rejected
  | expired
  | executing
  | executed
  | failed
deriving DecidableEq, Repr

instance : Enumeration ApprovalProposalStatus where
  text
    | .pending => "pending"
    | .confirmed => "confirmed"
    | .rejected => "rejected"
    | .expired => "expired"
    | .executing => "executing"
    | .executed => "executed"
    | .failed => "failed"
  values := [.pending, .confirmed, .rejected, .expired, .executing, .executed, .failed]
  mem_values a := by cases a <;> simp
  text_injective {a b} same := by cases a <;> cases b <;> simp_all

/-- `CONVERSATION_APPROVAL_PROPOSAL_TRANSITIONS` -/
def approvalProposalTransitions : ApprovalProposalStatus → List ApprovalProposalStatus
  | .pending => [.confirmed, .rejected, .expired]
  | .confirmed => [.executing]
  | .rejected => []
  | .expired => []
  | .executing => [.executed, .failed]
  | .executed => []
  | .failed => [.executing]

def isLegalApprovalProposalTransition (status next : ApprovalProposalStatus) : Bool :=
  (approvalProposalTransitions status).contains next

inductive ToolLoopBudget where
  | iterations
  | totalToolCalls
  | wallClock
deriving DecidableEq, Repr

instance : Enumeration ToolLoopBudget where
  text
    | .iterations => "iterations"
    | .totalToolCalls => "total_tool_calls"
    | .wallClock => "wall_clock"
  values := [.iterations, .totalToolCalls, .wallClock]
  mem_values a := by cases a <;> simp
  text_injective {a b} same := by cases a <;> cases b <;> simp_all

/-! ### Identifiers, timestamps and integers -/

abbrev Identifier := BoundedText false 256

deriving instance Repr for BoundedText

instance : LawfulBEq Identifier := inferInstance

/-- `identifier` of `events.ts`. -/
def identifier : Option Json → Checked Identifier := stringValue false eventLimits.identifierLength

def boundedText (allowEmpty : Bool) (maxLength : Nat) : Codec (BoundedText allowEmpty maxLength) :=
  Codec.text BoundedText.text
    (fun text =>
      if valid : (allowEmpty = true ∨ 0 < text.length) ∧ text.length ≤ maxLength then
        some ⟨text, valid.1, valid.2⟩
      else none)
    (fun t => dif_pos ⟨t.nonempty, t.bounded⟩)
    (fun {s t} found => by
      split at found
      · rw [← Option.some.inj found]
      · cases found)

def identifierCodec : Codec Identifier := boundedText false 256

instance (allowEmpty : Bool) (maxLength : Nat) : (boundedText allowEmpty maxLength).Leafless := ⟨fun _ _ => rfl, fun _ => trivial⟩

theorem identifier_ne_null (id : Identifier) : identifierCodec.encode id ≠ .null := nofun

instance : identifierCodec.Leafless := inferInstanceAs (boundedText false 256).Leafless

def daysInMonth (year month : Nat) : Option Nat :=
  let leapYear := year % 4 == 0 && (year % 100 != 0 || year % 400 == 0)
  if month = 0 then none
  else [31, if leapYear then 29 else 28, 31, 30, 31, 30, 31, 31, 30, 31, 30, 31][month - 1]?

/-- The ranges that `validateTimestamp` checks; `Date.parse` is finite on every such date. -/
def UtcTimestamp.inRange (t : UtcTimestamp) : Bool :=
  t.year != 0 && (daysInMonth t.year t.month).any (fun days => 1 ≤ t.day && t.day ≤ days) && t.hour ≤ 23 &&
    t.minute ≤ 59 && t.second ≤ 59

/-- `Date.parse(text)` when the text is a valid RFC 3339 UTC timestamp. -/
def timestampTime (text : JsString) : Option Int :=
  if 64 < text.length then none
  else ((readTimestamp text).filter UtcTimestamp.inRange).map UtcTimestamp.time

/-- A `ConversationTimestamp` and the time that `Date.parse` reads from it. -/
structure Timestamp where
  text : JsString
  time : Int
  reads : timestampTime text = some time
deriving DecidableEq, Repr

theorem Timestamp.ext {s t : Timestamp} (same : s.text = t.text) : s = t := by
  obtain ⟨text, time, reads⟩ := s
  obtain ⟨text', time', reads'⟩ := t
  obtain rfl : text = text' := same
  obtain rfl : time = time' := Option.some.inj (reads.symm.trans reads')
  rfl

def readTimestampText (text : JsString) : Option Timestamp :=
  match reads : timestampTime text with
  | some time => some ⟨text, time, reads⟩
  | none => none

theorem readTimestampText_eq_some {text : JsString} {t : Timestamp} :
    readTimestampText text = some t ↔ text = t.text := by
  unfold readTimestampText
  constructor
  · intro found
    split at found
    · rw [← Option.some.inj found]
    · cases found
  · rintro rfl
    split
    · exact congrArg some (Timestamp.ext rfl)
    · rename_i none
      rw [t.reads] at none
      cases none

def timestampCodec : Codec Timestamp :=
  Codec.text Timestamp.text readTimestampText (fun _ => readTimestampText_eq_some.mpr rfl)
    readTimestampText_eq_some.mp

theorem timestamp_ne_null (t : Timestamp) : timestampCodec.encode t ≠ .null := nofun

instance : timestampCodec.Leafless := ⟨fun _ _ => rfl, fun _ => trivial⟩

def validateTimestamp (value : Option Json) : Checked Timestamp := do
  let timestamp ← stringValue false 64 value
  match readTimestampText timestamp.text with
  | some t => .ok t
  | none => fail (js "must be a valid RFC 3339 UTC timestamp")

/-- A safe integer from `min` on. -/
structure SafeInteger (min : Nat) where
  value : Nat
  bounded : min ≤ value
  safe : value ≤ JsNumber.maxSafeInteger
deriving DecidableEq, Repr

abbrev PositiveSafeInteger := SafeInteger 1

/-- The safe integer from `min` on that a number is. -/
def readSafeInteger (min : Nat) (x : JsNumber) : Option (SafeInteger min) :=
  match read : x.safeNat? with
  | some n =>
    if bounded : min ≤ n then
      some ⟨n, bounded, by
        simp only [JsNumber.safeNat?, Option.filter_eq_some_iff, decide_eq_true_eq] at read
        exact read.2⟩
    else none
  | none => none

theorem readSafeInteger_eq_some {min : Nat} {x : JsNumber} {n : SafeInteger min} :
    readSafeInteger min x = some n ↔ x.safeNat? = some n.value := by
  unfold readSafeInteger
  constructor
  · intro found
    split at found
    · rename_i read
      split at found
      · rw [read, ← Option.some.inj found]
      · cases found
    · cases found
  · intro read
    split
    · rename_i m read'
      obtain rfl := Option.some.inj (read'.symm.trans read)
      rw [dif_pos n.bounded]
    · rename_i none
      cases none.symm.trans read

def safeInteger (min : Nat) (message : String) : Option Json → Checked (SafeInteger min)
  | some (.num x) =>
    match readSafeInteger min x with
    | some n => .ok n
    | none => fail (js message)
  | _ => fail (js message)

theorem safeInteger_ofNat {min : Nat} (message : String) (n : SafeInteger min) :
    safeInteger min message (some (.num (.ofNat n.value))) = .ok n := by
  have read : readSafeInteger min (.ofNat n.value) = some n :=
    readSafeInteger_eq_some.mpr (JsNumber.safeNat?_ofNat n.safe)
  simp only [safeInteger, read]

def positiveSafeInteger : Option Json → Checked PositiveSafeInteger :=
  safeInteger 1 "must be a positive safe integer"

def nonnegativeSafeInteger : Option Json → Checked (SafeInteger 0) :=
  safeInteger 0 "must be a non-negative safe integer"

def safeIntegerCodec (min : Nat) : Codec (SafeInteger min) where
  encode n := .num (.ofNat n.value)
  decode j := (Codec.natural.decode j).bind fun n =>
    if valid : min ≤ n ∧ n ≤ JsNumber.maxSafeInteger then some ⟨n, valid.1, valid.2⟩ else none
  map _ n := n
  Intact _ := True
  decode_encode n := by
    have valid : min ≤ n.value ∧ n.value ≤ JsNumber.maxSafeInteger := ⟨n.bounded, n.safe⟩
    have read := Codec.natural.decode_encode n.value
    rw [show Codec.natural.encode n.value = .num (.ofNat n.value) from rfl] at read
    rw [read, Option.bind_some, dif_pos valid]
  decode_sound := by
    intro j n found
    obtain ⟨value, read, found⟩ := Option.bind_eq_some_iff.mp found
    split at found
    · rw [← Option.some.inj found]
      exact Codec.natural.decode_sound read
    · cases found
  decode_reordered := by
    intro j n same
    have valid : min ≤ n.value ∧ n.value ≤ JsNumber.maxSafeInteger := ⟨n.bounded, n.safe⟩
    obtain ⟨value, read, same⟩ := Codec.natural.decode_reordered (a := n.value) same
    obtain rfl : value = n.value := same
    exact ⟨n, by rw [read, Option.bind_some, dif_pos valid], rfl⟩
  encode_roundTrip n := by simp
  encode_sorted _ := rfl
  encode_wellFormed _ := rfl

instance (min : Nat) : (safeIntegerCodec min).Leafless := ⟨fun _ _ => rfl, fun _ => trivial⟩

def booleanValue : Option Json → Checked Bool
  | some (.bool b) => .ok b
  | _ => fail (js "must be a boolean")

def identifierArray (allowEmpty : Bool) : Option Json → Checked (List Identifier)
  | some (.arr items) => do
    if !allowEmpty && items.isEmpty then fail (js "must be a non-empty array")
    else
      let identifiers ← eachItem identifier 0 items
      if identifiers.Nodup then .ok identifiers else fail (js "must contain unique identifiers")
  | _ => fail (js "must be an array")

/-! ### Attribution -/

/-- `ConversationEventActor` -/
structure Actor where
  type : ActorType
  id : Option Identifier
deriving DecidableEq, Repr

/-- `ConversationEventSource` -/
inductive Source where
  | client (clientId : Identifier) (deviceId : Option Identifier)
  | runtime
  | sync
  | «import»
deriving DecidableEq, Repr

/-- `ConversationEventAttribution` -/
structure Attribution where
  actor : Actor
  source : Source
deriving DecidableEq, Repr

def Actor.shape : Shape Actor :=
  (Shape.required "type" (enumeration (α := ActorType)) <|
    Shape.optional "id" identifierCodec Shape.nil).equiv
    (fun a => (a.type, a.id, ())) (fun (a, b, ()) => ⟨a, b⟩) (fun _ => rfl) (fun _ => rfl)

def Actor.codec : Codec Actor := Codec.object Actor.shape

def Source.codec : Codec Source :=
  (Codec.either
    (Codec.object (Shape.tag "type" "client" <| Shape.required "client_id" identifierCodec <|
      Shape.optional "device_id" identifierCodec Shape.nil))
    (Codec.either (Codec.object (Shape.tag "type" "runtime" Shape.nil))
      (Codec.either (Codec.object (Shape.tag "type" "sync" Shape.nil))
        (Codec.object (Shape.tag "type" "import" Shape.nil)) (Codec.tag_apart (by decide)))
      (fun {_ b} same => by
        cases b
        · exact Codec.tag_apart (by decide) same
        · exact Codec.tag_apart (by decide) same))
    (fun {_ b} same => by
      rcases b with _ | _ | _
      · exact Codec.tag_apart (by decide) same
      · exact Codec.tag_apart (by decide) same
      · exact Codec.tag_apart (by decide) same)).equiv
    (fun
      | .client clientId deviceId => .inl (clientId, deviceId, ())
      | .runtime => .inr (.inl ())
      | .sync => .inr (.inr (.inl ()))
      | .import => .inr (.inr (.inr ())))
    (fun
      | .inl (clientId, deviceId, ()) => .client clientId deviceId
      | .inr (.inl ()) => .runtime
      | .inr (.inr (.inl ())) => .sync
      | .inr (.inr (.inr ())) => .import)
    (fun s => by cases s <;> rfl) (fun s => by rcases s with ⟨_, _, _⟩ | _ | _ | _ <;> rfl)

def Attribution.shape : Shape Attribution :=
  (Shape.required "actor" Actor.codec <| Shape.required "source" Source.codec Shape.nil).equiv
    (fun a => (a.actor, a.source, ())) (fun (a, b, ()) => ⟨a, b⟩) (fun _ => rfl) (fun _ => rfl)

def Attribution.codec : Codec Attribution := Codec.object Attribution.shape

theorem Attribution.encode_ne_null (a : Attribution) : Attribution.codec.encode a ≠ .null := nofun

instance : Actor.codec.Leafless := inferInstanceAs (Codec.object (Shape.equiv _ _ _ _ _)).Leafless

instance : Source.codec.Leafless := inferInstanceAs (Codec.equiv _ _ _ _ _).Leafless

instance : Attribution.codec.Leafless := inferInstanceAs (Codec.object (Shape.equiv _ _ _ _ _)).Leafless

def validateActor (value : Option Json) : Checked Actor := do
  let object ← record "must be a JSON object" value
  requiredKeys object ["type"]
  allowedKeys object ["type", "id"]
  let type ← field object "type" (enumValue (Enumeration.values (α := ActorType)))
  let id ← optionalField object "id" identifier
  .ok { type, id }

def validateSource (value : Option Json) : Checked Source := do
  let object ← record "must be a JSON object" value
  requiredKeys object ["type"]
  let sourceType ← field object "type" (enumValue (Enumeration.values (α := SourceType)))
  match sourceType with
  | .client =>
    requiredKeys object ["client_id"]
    allowedKeys object ["type", "client_id", "device_id"]
    let clientId ← field object "client_id" identifier
    let deviceId ← optionalField object "device_id" identifier
    .ok (.client clientId deviceId)
  | .runtime => do
    allowedKeys object ["type"]
    .ok .runtime
  | .sync => do
    allowedKeys object ["type"]
    .ok .sync
  | .import => do
    allowedKeys object ["type"]
    .ok .import

/-! ### Attachments -/

/-- The limits of `AI_RUNTIME_PROTOCOL_LIMITS` on attachments. -/
structure AttachmentLimits where
  attachmentIdLength := 256
  attachmentFilenameLength := 255
  imageAttachmentMinBytes := 1
  imageAttachmentMaxBytes := 10485760
  documentAttachmentMinBytes := 1
  documentAttachmentMaxBytes := 26214400

def attachmentLimits : AttachmentLimits := {}

/-- `ConversationAttachmentReference` -/
structure AttachmentReference where
  attachmentId : JsString
  kind : Option AttachmentKind
  mediaType : MimeType
  filename : Option JsString
  sizeBytes : Option Nat
deriving DecidableEq, Repr

/-- The reference as `cloneAttachment` writes it. -/
def AttachmentReference.shape : Shape AttachmentReference :=
  (Shape.required "attachment_id" Codec.string <|
    Shape.optional "kind" (enumeration (α := AttachmentKind)) <|
    Shape.required "media_type" (enumeration (α := MimeType)) <|
    Shape.optional "filename" Codec.string <| Shape.optional "size_bytes" Codec.natural Shape.nil).equiv
    (fun a => (a.attachmentId, a.kind, a.mediaType, a.filename, a.sizeBytes, ()))
    (fun (a, b, c, d, e, ()) => ⟨a, b, c, d, e⟩) (fun _ => rfl) (fun _ => rfl)

def AttachmentReference.codec : Codec AttachmentReference := Codec.object AttachmentReference.shape

instance : AttachmentReference.codec.Leafless := inferInstanceAs (Codec.object (Shape.equiv _ _ _ _ _)).Leafless

/-- `AI_RUNTIME_ATTACHMENT_ID_GRAMMAR` -/
def attachmentIdPattern : Pattern :=
  let literal : Pattern := .all ((js "att_").units.map fun u => .unit (· == u))
  .all [.start, literal, .unit Pattern.isAlphanumeric, .repeats (alphanumericOr "._-") 0 (some 251), .finish]

def validateAttachmentId (value : Option Json) : Checked JsString := do
  let attachmentId ← stringValue false attachmentLimits.attachmentIdLength value
  if attachmentIdPattern.test attachmentId.text then .ok attachmentId.text
  else fail (js "must be an opaque identifier matching ^att_[A-Za-z0-9][A-Za-z0-9._-]\x7b0,251\x7d$")

def validateFilename (value : Option Json) : Checked JsString := do
  let filename ← stringValue false attachmentLimits.attachmentFilenameLength value
  let hasUnsafeCharacter := filename.text.units.any fun c =>
    c ≤ 31 || c == 127 || Pattern.oneOf "<>:\"/\\|?*" c
  if filename.text = js "." ∨ filename.text = js ".." ∨ hasUnsafeCharacter ∨
      matchesAny credentialValuePatterns filename.text then
    fail (js "must be a safe filename without path separators or control characters")
  else .ok filename.text

def minBytes (kind : Option AttachmentKind) : Nat :=
  if kind = some .document then attachmentLimits.documentAttachmentMinBytes
  else attachmentLimits.imageAttachmentMinBytes

def maxBytes (kind : Option AttachmentKind) : Nat :=
  if kind = some .document then attachmentLimits.documentAttachmentMaxBytes
  else attachmentLimits.imageAttachmentMaxBytes

def validateSizeBytes (kind : Option AttachmentKind) (value : Option Json) : Checked Nat :=
  let message := js "must be a safe integer from " ++ decimal (minBytes kind) ++ js " through " ++
    decimal (maxBytes kind)
  match value with
  | some (.num x) =>
    match x.safeNat? with
    | some n => if minBytes kind ≤ n ∧ n ≤ maxBytes kind then .ok n else fail message
    | none => fail message
  | _ => fail message

def validateAttachmentReference (value : Option Json) : Checked AttachmentReference := do
  let object ← record "must be a JSON object" value
  requiredKeys object ["attachment_id", "media_type"]
  allowedKeys object ["attachment_id", "kind", "media_type", "filename", "size_bytes"]
  let attachmentId ← field object "attachment_id" validateAttachmentId
  let kind ← optionalField object "kind" (enumValue (Enumeration.values (α := AttachmentKind)))
  let mediaTypes := if kind = some .document then documentMimeTypes else imageMimeTypes
  let mediaType ← field object "media_type" (enumValue mediaTypes)
  let filename ← optionalField object "filename" validateFilename
  if kind.isSome && !Json.hasOwn object "size_bytes" then
    under (js ".size_bytes") (fail (js "is required when kind is present"))
  else
    let sizeBytes ← optionalField object "size_bytes" (validateSizeBytes kind)
    .ok { attachmentId, kind, mediaType, filename, sizeBytes }

/-! ### Reviewed arguments and reasons -/

/-- `ConversationApprovalReviewedArguments` -/
inductive ReviewedArguments where
  | redactedJson (value : JsonObject)
  | opaqueReference (argumentRef : JsString)

/-- The arguments as `cloneApprovalReviewedArguments` writes them. -/
def ReviewedArguments.codec : Codec ReviewedArguments :=
  (Codec.either
    (Codec.object (Shape.tag "type" "redacted_json" (Shape.required "value" Codec.jsonObject Shape.nil)))
    (Codec.object (Shape.tag "type" "opaque_reference" (Shape.required "argument_ref" Codec.string Shape.nil)))
    (Codec.tag_apart (by decide))).equiv
    (fun
      | .redactedJson value => .inl (value, ())
      | .opaqueReference argumentRef => .inr (argumentRef, ()))
    (fun
      | .inl (value, ()) => .redactedJson value
      | .inr (argumentRef, ()) => .opaqueReference argumentRef)
    (fun a => by cases a <;> rfl) (fun a => by rcases a with ⟨_, _⟩ | ⟨_, _⟩ <;> rfl)

def validateApprovalReason (value : Option Json) : Checked JsString := do
  let reason ← stringValue false eventLimits.approvalReasonLength value
  if matchesAny credentialValuePatterns reason.text || matchesAny approvalBinaryValuePatterns reason.text then
    fail (js "must not contain credential or binary material")
  else .ok reason.text

def argumentReferencePattern : Pattern :=
  .all [.start, .unit Pattern.isAlphanumeric, .repeats (alphanumericOr "._:/-") 0 none, .finish]

def validateArgumentReference (value : Option Json) : Checked JsString := do
  let reference ← stringValue false eventLimits.approvalArgumentReferenceLength value
  if !argumentReferencePattern.test reference.text || includes reference.text (js "://") ||
      matchesAny credentialValuePatterns reference.text then
    fail (js "must be a safe host-owned opaque reference")
  else .ok reference.text

def validateApprovalReviewedArguments (value : Option Json) : Checked ReviewedArguments := do
  let object ← record "must be a JSON object" value
  requiredKeys object ["type"]
  match Json.get object "type" with
  | some (.str type) =>
    if type = js "redacted_json" then do
      requiredKeys object ["value"]
      allowedKeys object ["type", "value"]
      let value ← field object "value"
        (validateBoundedObject approvalSnapshotLimits eventLimits.approvalSnapshotSerializedBytes)
      .ok (.redactedJson value)
    else if type = js "opaque_reference" then do
      requiredKeys object ["argument_ref"]
      allowedKeys object ["type", "argument_ref"]
      let argumentRef ← field object "argument_ref" validateArgumentReference
      .ok (.opaqueReference argumentRef)
    else under (js ".type") (fail (js "must equal \"redacted_json\" or \"opaque_reference\""))
  | _ => under (js ".type") (fail (js "must equal \"redacted_json\" or \"opaque_reference\""))

end Handrail.Conversation

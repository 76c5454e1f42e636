import Handrail.Conversation.Vocabulary

/-!
# Provider-context checkpoints

`parseProviderContextCheckpoint` of `provider-context.ts`. A checkpoint that was parsed carries its checks,
and parses again as itself.
-/

namespace Handrail.ProviderContext
open Js Conversation

/-- `PROVIDER_CONTEXT_LIMITS` -/
structure ContextLimits where
  identifierLength := 256
  checkpointOpaqueStateLength := 65536
  checkpointSerializedBytes := 70000
  idempotencyKeyLength := 128

def contextLimits : ContextLimits := {}

/-! ### Texts -/

/-- `IDENTIFIER` -/
def identifierPattern : Pattern :=
  .seq .start (.all [.unit Pattern.isAlphanumeric, .repeats (alphanumericOr "._:@/+~-") 0 none, .finish])

/-- `IDEMPOTENCY_KEY` -/
def idempotencyKeyPattern : Pattern :=
  .seq .start (.all [.unit Pattern.isAlphanumeric, .repeats (alphanumericOr "._:-") 0 none, .finish])

/-- `[a-f0-9]` -/
def isHexUnit (c : UInt16) : Bool := Pattern.isDigit c || (97 ≤ c && c ≤ 102)

/-- `FINGERPRINT` -/
def fingerprintPattern : Pattern :=
  .seq .start (.all [.all ((js "sha256:").units.map fun u => .unit (· == u)), .repeats (.unit isHexUnit) 64 (some 0), .finish])

/-- `OPAQUE_STATE` -/
def opaqueStatePattern : Pattern :=
  .seq .start (.all [.repeats (alphanumericOr "_-") 1 none, .repeats (.unit (Pattern.oneOf "=")) 0 (some 2), .finish])

/-- `CREDENTIAL_VALUE_PATTERNS` of `provider-context.ts`. -/
def contextCredentialPatterns : List Pattern := [
  .all [.wordBoundary, .word "bearer", .repeats (.unit isWhitespace) 1 none,
    .repeats (alphanumericOr "._~+/=-") 8 none],
  .all [.any [.start, .unit fun c => !Pattern.isAlphanumeric c], .word "sk-", .repeats (alphanumericOr "_-") 8 none,
    .wordBoundary],
  .all [.word "-----begin ", .any [.word "rsa ", .word "ec ", .word "openssh ", .empty],
    .word "private key-----"]]

def isControlUnit (c : UInt16) : Bool := c ≤ 0x1f || c == 0x7f

/-- A text that `safeString` lets through, with the pattern that its caller tests. -/
structure ContextText (maxLength : Nat) (pattern : Pattern) where
  text : JsString
  nonempty : text.length ≠ 0
  bounded : text.length ≤ maxLength
  printable : text.units.any isControlUnit = false
  plain : matchesAny contextCredentialPatterns text = false
  matched : pattern.test text = true

theorem ContextText.text_inj {maxLength : Nat} {pattern : Pattern} (a b : ContextText maxLength pattern) :
    a.text = b.text ↔ a = b := by
  cases a
  cases b
  simp

instance {maxLength : Nat} {pattern : Pattern} : DecidableEq (ContextText maxLength pattern) :=
  fun a b => decidable_of_iff (a.text = b.text) (a.text_inj b)

/-- `safeString`, and the test of a pattern. -/
def safeString (maxLength : Nat) (pattern : Pattern) (message : String) : Option Json → Checked (ContextText maxLength pattern)
  | some (.str text) =>
    if fits : text.length ≠ 0 ∧ text.length ≤ maxLength then
      if printable : text.units.any isControlUnit = false then
        if plain : matchesAny contextCredentialPatterns text = false then
          if matched : pattern.test text = true then .ok ⟨text, fits.1, fits.2, printable, plain, matched⟩
          else fail (js message)
        else fail (js "must not contain credential material")
      else fail (js "must not contain control characters")
    else fail (js "must contain 1-" ++ decimal maxLength ++ js " characters")
  | _ => fail (js "must be a string")

theorem safeString_text {maxLength : Nat} {pattern : Pattern} (message : String) (t : ContextText maxLength pattern) :
    safeString maxLength pattern message (some (.str t.text)) = .ok t := by
  simp only [safeString]
  rw [dif_pos ⟨t.nonempty, t.bounded⟩, dif_pos t.printable, dif_pos t.plain, dif_pos t.matched]

theorem safeString_eq_ok {maxLength : Nat} {pattern : Pattern} {message : String} {value : Option Json}
    {t : ContextText maxLength pattern} : safeString maxLength pattern message value = .ok t ↔ value = some (.str t.text) := by
  constructor
  · intro read
    unfold safeString at read
    repeat' split at read
    all_goals cases read
    rfl
  · rintro rfl
    exact safeString_text message t

abbrev ContextIdentifier := ContextText contextLimits.identifierLength identifierPattern

def contextIdentifier : Option Json → Checked ContextIdentifier :=
  safeString contextLimits.identifierLength identifierPattern "must be an opaque identifier"

abbrev IdempotencyKey := ContextText contextLimits.idempotencyKeyLength idempotencyKeyPattern

def parseProviderContextIdempotencyKey : Option Json → Checked IdempotencyKey :=
  safeString contextLimits.idempotencyKeyLength idempotencyKeyPattern
    "must use letters, numbers, dots, underscores, colons, or hyphens"

structure ProviderContextFingerprint where
  text : JsString
  matched : fingerprintPattern.test text = true
deriving DecidableEq

def parseFingerprint : Option Json → Checked ProviderContextFingerprint
  | some (.str text) =>
    if matched : fingerprintPattern.test text = true then .ok ⟨text, matched⟩
    else fail (js "must be a lowercase sha256 fingerprint")
  | _ => fail (js "must be a lowercase sha256 fingerprint")

theorem parseFingerprint_text (fingerprint : ProviderContextFingerprint) :
    parseFingerprint (some (.str fingerprint.text)) = .ok fingerprint := by
  unfold parseFingerprint
  exact dif_pos fingerprint.matched

/-! ### History positions -/

structure HistoryPosition where
  conversationId : ContextIdentifier
  revision : SafeInteger 0
  eventId : Option ContextIdentifier
  agrees : revision.value = 0 ↔ eventId = none
deriving DecidableEq

def nullableIdentifier : Option Json → Checked (Option ContextIdentifier)
  | some .null => .ok none
  | value => (contextIdentifier value).map some

def parseHistoryPosition (value : Option Json) : Checked HistoryPosition := do
  let source ← record "must be a plain JSON object" value
  allowedKeys source ["conversation_id", "revision", "event_id"]
  requiredKeys source ["conversation_id", "revision", "event_id"]
  let revision ← field source "revision" (safeInteger 0 "must be a safe integer greater than or equal to 0")
  let eventId ← field source "event_id" nullableIdentifier
  if agrees : revision.value = 0 ↔ eventId = none then
    let conversationId ← field source "conversation_id" contextIdentifier
    return { conversationId, revision, eventId, agrees }
  else fail (js "revision zero requires a null event_id and nonzero revisions require an event_id")

def HistoryPosition.toJson (p : HistoryPosition) : Json := Json.object [
  ("conversation_id", .str p.conversationId.text),
  ("revision", .num (.ofNat p.revision.value)),
  ("event_id", p.eventId.elim .null fun id => .str id.text)]

theorem nullableIdentifier_elim (id : Option ContextIdentifier) :
    nullableIdentifier (some (id.elim .null fun id => .str id.text)) = .ok id := by
  cases id with
  | none => rfl
  | some id => exact congrArg (Except.map some) (safeString_text "must be an opaque identifier" id)

theorem parseHistoryPosition_toJson (p : HistoryPosition) : parseHistoryPosition (some p.toJson) = .ok p := by
  unfold parseHistoryPosition
  refine bind_eq_ok.mpr ⟨_, record_object _ (by simp), ?_⟩
  refine bind_eq_ok.mpr ⟨(), allowedKeys_fieldsOf (by simp), ?_⟩
  refine bind_eq_ok.mpr ⟨(), requiredKeys_fieldsOf (by simp), ?_⟩
  refine bind_eq_ok.mpr ⟨p.revision, field_fieldsOf rfl (safeInteger_ofNat ..), ?_⟩
  refine bind_eq_ok.mpr ⟨p.eventId, field_fieldsOf rfl (nullableIdentifier_elim _), ?_⟩
  rw [dif_pos p.agrees]
  exact bind_eq_ok.mpr ⟨p.conversationId, field_fieldsOf rfl (safeString_text ..), rfl⟩

/-! ### Checkpoints -/

/-- The fields of a checkpoint, beside its `version`. -/
structure CheckpointFields where
  providerId : ContextIdentifier
  checkpointId : ContextIdentifier
  format : ContextIdentifier
  opaqueState : ContextText contextLimits.checkpointOpaqueStateLength opaqueStatePattern
  contextFingerprint : ProviderContextFingerprint
  historyPosition : HistoryPosition
deriving DecidableEq

def CheckpointFields.toJson (c : CheckpointFields) : Json := Json.object [
  ("version", .num (.ofNat 1)),
  ("provider_id", .str c.providerId.text),
  ("checkpoint_id", .str c.checkpointId.text),
  ("format", .str c.format.text),
  ("opaque_state", .str c.opaqueState.text),
  ("context_fingerprint", .str c.contextFingerprint.text),
  ("history_position", c.historyPosition.toJson)]

/-- The UTF-8 length of `JSON.stringify(checkpoint)`. -/
def CheckpointFields.serializedBytes (c : CheckpointFields) : Nat := utf8ByteLength (stringify c.toJson)

structure ProviderContextCheckpoint extends CheckpointFields where
  bounded : toCheckpointFields.serializedBytes ≤ contextLimits.checkpointSerializedBytes
deriving DecidableEq

def checkpointFields : List String :=
  ["version", "provider_id", "checkpoint_id", "format", "opaque_state", "context_fingerprint", "history_position"]

def checkpointVersion : Option Json → Checked Unit
  | some (.num x) => if x = .ofNat 1 then .ok () else fail (js "must equal 1")
  | _ => fail (js "must equal 1")

def parseProviderContextCheckpoint (value : Option Json) : Checked ProviderContextCheckpoint := do
  let source ← record "must be a plain JSON object" value
  allowedKeys source checkpointFields
  requiredKeys source checkpointFields
  field source "version" checkpointVersion
  let opaqueState ← field source "opaque_state" (safeString contextLimits.checkpointOpaqueStateLength opaqueStatePattern
    "must be a provider-issued base64url value")
  let providerId ← field source "provider_id" contextIdentifier
  let checkpointId ← field source "checkpoint_id" contextIdentifier
  let format ← field source "format" contextIdentifier
  let contextFingerprint ← field source "context_fingerprint" parseFingerprint
  let historyPosition ← field source "history_position" parseHistoryPosition
  let checkpoint : CheckpointFields :=
    { providerId, checkpointId, format, opaqueState, contextFingerprint, historyPosition }
  if bounded : checkpoint.serializedBytes ≤ contextLimits.checkpointSerializedBytes then
    return { checkpoint with bounded }
  else fail (js "must serialize to at most " ++ decimal contextLimits.checkpointSerializedBytes ++ js " bytes")

theorem parseProviderContextCheckpoint_toJson (c : ProviderContextCheckpoint) :
    parseProviderContextCheckpoint (some c.toJson) = .ok c := by
  unfold parseProviderContextCheckpoint
  refine bind_eq_ok.mpr ⟨_, record_object _ (by simp), ?_⟩
  refine bind_eq_ok.mpr ⟨(), allowedKeys_fieldsOf (by simp [checkpointFields]), ?_⟩
  refine bind_eq_ok.mpr ⟨(), requiredKeys_fieldsOf (by simp [checkpointFields]), ?_⟩
  refine bind_eq_ok.mpr ⟨(), field_fieldsOf rfl (by simp [checkpointVersion]), ?_⟩
  refine bind_eq_ok.mpr ⟨c.opaqueState, field_fieldsOf rfl (safeString_text ..), ?_⟩
  refine bind_eq_ok.mpr ⟨c.providerId, field_fieldsOf rfl (safeString_text ..), ?_⟩
  refine bind_eq_ok.mpr ⟨c.checkpointId, field_fieldsOf rfl (safeString_text ..), ?_⟩
  refine bind_eq_ok.mpr ⟨c.format, field_fieldsOf rfl (safeString_text ..), ?_⟩
  refine bind_eq_ok.mpr ⟨c.contextFingerprint, field_fieldsOf rfl (parseFingerprint_text _), ?_⟩
  refine bind_eq_ok.mpr ⟨c.historyPosition, field_fieldsOf rfl (parseHistoryPosition_toJson _), ?_⟩
  exact dif_pos c.bounded

end Handrail.ProviderContext

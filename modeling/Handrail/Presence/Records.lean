import Handrail.Presence.Timestamps
import Handrail.Js.TextOrder

/-!
# `presence/types.ts`: one record

A presence record is what one session last said of itself. It is checked and brought to a canonical form wherever it
comes from.
-/

namespace Handrail.Presence
open Js

inductive PresenceParticipantKind where
  | human
  | assistant
  | system
deriving DecidableEq, Repr

instance : Enumeration PresenceParticipantKind where
  text
    | .human => "human"
    | .assistant => "assistant"
    | .system => "system"
  values := [.human, .assistant, .system]
  mem_values a := by cases a <;> simp
  text_injective {a b} same := by cases a <;> cases b <;> simp_all

inductive PresenceState where
  | online
  | active
  | idle
  | offline
deriving DecidableEq, Repr

instance : Enumeration PresenceState where
  text
    | .online => "online"
    | .active => "active"
    | .idle => "idle"
    | .offline => "offline"
  values := [.online, .active, .idle, .offline]
  mem_values a := by cases a <;> simp
  text_injective {a b} same := by cases a <;> cases b <;> simp_all

inductive AssistantActivity where
  | thinking
  | responding
  | usingTool
deriving DecidableEq, Repr

instance : Enumeration AssistantActivity where
  text
    | .thinking => "thinking"
    | .responding => "responding"
    | .usingTool => "using_tool"
  values := [.thinking, .responding, .usingTool]
  mem_values a := by cases a <;> simp
  text_injective {a b} same := by cases a <;> cases b <;> simp_all

/-- `PRESENCE_LIMITS.identifierLength` -/
def presenceIdentifierLength : Nat := 256

/-! ### Checks -/

/-- `ALLOWED_RECORD_FIELDS` -/
def allowedRecordFields : List String :=
  ["participant_id", "device_id", "session_id", "participant_kind", "state", "assistant_activity", "typing", "updated_at",
    "expires_at", "typing_expires_at"]

/-- `expectObject`, and the names of its fields. The path of an error is the name of the field. -/
def expectRecord (input : Json) : Checked Fields := do
  let source ← under (js "presence") (record "must be a plain object" (some input))
  match (Json.keys source).find? fun key => !allowedRecordFields.any (js · == key) with
  | some key => under key (fail (js "is not a supported field"))
  | none => .ok source

/-- `normalize(requireField(record, field), field)` -/
def requireField {α : Type} (source : Fields) (field : String) (normalize : Json → Checked α) : Checked α :=
  under (js field) <|
    match Json.get source field with
    | some value => normalize value
    | none => fail (js "is required")

/-- `IDENTIFIER_PATTERN` -/
def presenceIdentifierPattern : Pattern :=
  .all [.start, .unit Pattern.isAlphanumeric, .repeats (alphanumericOr "._:@-") 0 none, .finish]

/-- A `PresenceParticipantId`, a `PresenceDeviceId` or a `PresenceSessionId`. -/
structure PresenceIdentifier where
  text : JsString
  trimmed : trim text = text
  nonempty : text.length ≠ 0
  short : ¬presenceIdentifierLength < text.length
  matched : presenceIdentifierPattern.test text = true

theorem PresenceIdentifier.ext_text {a b : PresenceIdentifier} (same : a.text = b.text) : a = b := by
  obtain ⟨text, _, _, _, _⟩ := a
  obtain ⟨text', _, _, _, _⟩ := b
  obtain rfl : text = text' := same
  rfl

def normalizeIdentifier : Json → Checked PresenceIdentifier
  | .str value =>
    let normalized := trim value
    if nonempty : normalized.length = 0 then fail (js "must not be empty")
    else if short : presenceIdentifierLength < normalized.length then
      fail (js "must be at most " ++ decimal presenceIdentifierLength ++ js " characters")
    else if matched : presenceIdentifierPattern.test normalized = true then
      .ok ⟨normalized, trim_trim value, nonempty, short, matched⟩
    else fail (js "must use letters, numbers, dot, underscore, colon, at-sign, or hyphen")
  | _ => fail (js "must be a string identifier")

def normalizeEnum {α : Type} [Enumeration α] : Json → Checked α
  | .str text =>
    match valueOf Enumeration.values text with
    | some a => .ok a
    | none => fail (js ("must be one of " ++ ", ".intercalate ((Enumeration.values (α := α)).map Enumeration.text)))
  | _ => fail (js ("must be one of " ++ ", ".intercalate ((Enumeration.values (α := α)).map Enumeration.text)))

def normalizeBoolean : Json → Checked Bool
  | .bool value => .ok value
  | _ => fail (js "must be a boolean")

theorem normalizeIdentifier_text (a : PresenceIdentifier) : normalizeIdentifier (.str a.text) = .ok a := by
  have matched := a.matched
  rw [← a.trimmed] at matched
  simp only [normalizeIdentifier]
  rw [dif_neg (by rw [a.trimmed]; exact a.nonempty), dif_neg (by rw [a.trimmed]; exact a.short), dif_pos matched]
  exact congrArg Except.ok (PresenceIdentifier.ext_text a.trimmed)

theorem normalizeEnum_literal {α : Type} [Enumeration α] (a : α) : normalizeEnum (literal a) = .ok a := by
  simp only [normalizeEnum, literal]
  rw [valueOf_eq_some.mpr ⟨Enumeration.mem_values a, rfl⟩]

/-! ### The record -/

structure PresenceRecord where
  participantId : PresenceIdentifier
  deviceId : Option PresenceIdentifier
  sessionId : PresenceIdentifier
  participantKind : PresenceParticipantKind
  state : PresenceState
  assistantActivity : Option AssistantActivity
  typing : Bool
  updatedAt : PresenceTimestamp
  expiresAt : PresenceTimestamp
  typingExpiresAt : Option PresenceTimestamp
  lives : updatedAt.milliseconds < expiresAt.milliseconds
  /-- Only an assistant has an activity. -/
  assistant : assistantActivity ≠ none → participantKind = .assistant
  typed : typingExpiresAt.isSome = typing
  typingLives : ∀ t ∈ typingExpiresAt, updatedAt.milliseconds < t.milliseconds
  /-- A session that is offline neither types nor acts. -/
  silent : state = .offline → typing = false ∧ assistantActivity = none

def normalizeActivity (kind : PresenceParticipantKind) (value : Option Json) :
    Checked { activity : Option AssistantActivity // activity ≠ none → kind = .assistant } :=
  under (js "assistant_activity") <|
    match value with
    | none => .ok ⟨none, fun some => (some rfl).elim⟩
    | some value => do
      let activity ← normalizeEnum value
      if assistant : kind = .assistant then .ok ⟨some activity, fun _ => assistant⟩
      else fail (js "is valid only for assistant participants")

def normalizeTyping (typing : Bool) (updatedAt : PresenceTimestamp) (value : Option Json) :
    Checked { ends : Option PresenceTimestamp //
      ends.isSome = typing ∧ ∀ t ∈ ends, updatedAt.milliseconds < t.milliseconds } :=
  under (js "typing_expires_at") <|
    match typing, value with
    | true, some value => do
      let ends ← parseTimestamp value
      if later : updatedAt.milliseconds < ends.milliseconds then
        .ok ⟨some ends, rfl, fun _ named => Option.some.inj named ▸ later⟩
      else fail (js "must be later than updated_at")
    | true, none => fail (js "is required")
    | false, some _ => fail (js "must be omitted when typing is false")
    | false, none => .ok ⟨none, rfl, fun t named => absurd named (Option.not_mem_none t)⟩

def normalizePresenceRecord (input : Json) : Checked PresenceRecord := do
  let source ← expectRecord input
  let participantId ← requireField source "participant_id" normalizeIdentifier
  let sessionId ← requireField source "session_id" normalizeIdentifier
  let participantKind ← requireField source "participant_kind" normalizeEnum
  let state ← requireField source "state" normalizeEnum
  let typing ← requireField source "typing" normalizeBoolean
  let updatedAt ← requireField source "updated_at" parseTimestamp
  let expiresAt ← requireField source "expires_at" parseTimestamp
  if lives : updatedAt.milliseconds < expiresAt.milliseconds then
    let deviceId ← (Json.get source "device_id").mapM fun value => under (js "device_id") (normalizeIdentifier value)
    let activity ← normalizeActivity participantKind (Json.get source "assistant_activity")
    let ends ← normalizeTyping typing updatedAt (Json.get source "typing_expires_at")
    if typingOffline : state = .offline ∧ typing = true then
      under (js "typing") (fail (js "must be false when state is offline"))
    else if actingOffline : state = .offline ∧ activity.1 ≠ none then
      under (js "assistant_activity") (fail (js "must be omitted when state is offline"))
    else
      .ok { participantId, deviceId, sessionId, participantKind, state, assistantActivity := activity.1, typing, updatedAt,
            expiresAt, typingExpiresAt := ends.1, lives, assistant := activity.2, typed := ends.2.1,
            typingLives := ends.2.2,
            silent := fun offline => ⟨by simpa [offline] using typingOffline, by simpa [offline] using actingOffline⟩ }
  else under (js "expires_at") (fail (js "must be later than updated_at"))

/-! ### The value of a record -/

def optionalField (name : String) (value : Option Json) : List (String × Json) := (value.map fun v => (name, v)).toList

/-- The fields of the object that `normalizePresenceRecord` returns. -/
def PresenceRecord.fields (r : PresenceRecord) : List (String × Json) :=
  [("participant_id", .str r.participantId.text)] ++ optionalField "device_id" (r.deviceId.map (.str ·.text)) ++
    [("session_id", .str r.sessionId.text), ("participant_kind", literal r.participantKind), ("state", literal r.state)] ++
    optionalField "assistant_activity" (r.assistantActivity.map literal) ++
    [("typing", .bool r.typing), ("updated_at", .str r.updatedAt.text), ("expires_at", .str r.expiresAt.text)] ++
    optionalField "typing_expires_at" (r.typingExpiresAt.map (.str ·.text))

def PresenceRecord.toJson (r : PresenceRecord) : Json := Json.object r.fields

theorem PresenceRecord.get_fields (r : PresenceRecord) :
    r.fields.lookup "participant_id" = some (.str r.participantId.text) ∧
    r.fields.lookup "device_id" = r.deviceId.map (.str ·.text) ∧
    r.fields.lookup "session_id" = some (.str r.sessionId.text) ∧
    r.fields.lookup "participant_kind" = some (literal r.participantKind) ∧
    r.fields.lookup "state" = some (literal r.state) ∧
    r.fields.lookup "assistant_activity" = r.assistantActivity.map literal ∧
    r.fields.lookup "typing" = some (.bool r.typing) ∧
    r.fields.lookup "updated_at" = some (.str r.updatedAt.text) ∧
    r.fields.lookup "expires_at" = some (.str r.expiresAt.text) ∧
    r.fields.lookup "typing_expires_at" = r.typingExpiresAt.map (.str ·.text) := by
  unfold PresenceRecord.fields optionalField
  cases r.deviceId <;> cases r.assistantActivity <;> cases r.typingExpiresAt <;>
    exact ⟨rfl, rfl, rfl, rfl, rfl, rfl, rfl, rfl, rfl, rfl⟩

theorem PresenceRecord.names_fields (r : PresenceRecord) : (r.fields.map Prod.fst).Sublist allowedRecordFields := by
  unfold PresenceRecord.fields optionalField
  cases r.deviceId <;> cases r.assistantActivity <;> cases r.typingExpiresAt <;> dsimp [List.map] <;> decide

theorem expectRecord_toJson (r : PresenceRecord) : expectRecord r.toJson = .ok (Json.fieldsOf r.fields) := by
  have keys : Json.keys (Json.fieldsOf r.fields) = (r.fields.map Prod.fst).map js := by
    rw [Json.keys, Json.fieldsOf, List.map_map, List.map_map]
    rfl
  have plain : record "must be a plain object" (some r.toJson) = .ok (Json.fieldsOf r.fields) := by
    refine record_eq_ok.mpr ⟨rfl, ?_⟩
    rw [keys]
    have distinct : allowedRecordFields.Nodup := by decide
    exact (distinct.sublist r.names_fields).map fun _ _ same => js_inj.mp same
  have allowed : (Json.keys (Json.fieldsOf r.fields)).find? (fun key => !allowedRecordFields.any (js · == key)) = none := by
    rw [keys, List.find?_eq_none]
    intro key member
    obtain ⟨name, listed, rfl⟩ := List.mem_map.mp member
    simpa using r.names_fields.subset listed
  unfold expectRecord
  rw [plain]
  simp only [under_ok, bind, Except.bind]
  rw [allowed]

theorem requireField_fields {α : Type} {fields : List (String × Json)} {field : String} {normalize : Json → Checked α}
    {value : Json} {a : α} (found : fields.lookup field = some value) (accepted : normalize value = .ok a) :
    requireField (Json.fieldsOf fields) field normalize = .ok a := by
  unfold requireField
  rw [Json.get_fieldsOf, found]
  simp only [accepted, under_ok]

theorem normalizeBoolean_bool (b : Bool) : normalizeBoolean (.bool b) = .ok b := rfl

theorem normalizeActivity_record (r : PresenceRecord) :
    normalizeActivity r.participantKind (r.assistantActivity.map literal) = .ok ⟨r.assistantActivity, r.assistant⟩ := by
  obtain ⟨_, _, _, kind, _, activity, _, _, _, _, _, assistant, _, _, _⟩ := r
  cases activity with
  | none => rfl
  | some activity =>
    obtain rfl : kind = .assistant := assistant (by simp)
    simp [normalizeActivity, normalizeEnum_literal, bind, Except.bind]

theorem normalizeTyping_record (r : PresenceRecord) :
    normalizeTyping r.typing r.updatedAt (r.typingExpiresAt.map (.str ·.text)) =
      .ok ⟨r.typingExpiresAt, r.typed, r.typingLives⟩ := by
  obtain ⟨_, _, _, _, _, _, typing, updatedAt, _, ends, _, _, typed, typingLives, _⟩ := r
  cases ends with
  | none =>
    obtain rfl : false = typing := typed
    rfl
  | some ends =>
    obtain rfl : true = typing := typed
    simp [normalizeTyping, parseTimestamp_text, bind, Except.bind, typingLives ends rfl]

theorem normalizePresenceRecord_toJson (r : PresenceRecord) : normalizePresenceRecord r.toJson = .ok r := by
  obtain ⟨participant, device, session, kind, state, activity, typing, updated, expires, ends⟩ := r.get_fields
  have deviceId : (r.deviceId.map (Json.str ·.text)).mapM (fun value => under (js "device_id") (normalizeIdentifier value)) =
      .ok r.deviceId := by
    cases r.deviceId with
    | none => rfl
    | some id => simp [normalizeIdentifier_text]
  unfold normalizePresenceRecord
  rw [expectRecord_toJson]
  simp only [bind, Except.bind, requireField_fields participant (normalizeIdentifier_text _),
    requireField_fields session (normalizeIdentifier_text _), requireField_fields kind (normalizeEnum_literal _),
    requireField_fields state (normalizeEnum_literal _), requireField_fields typing (normalizeBoolean_bool _),
    requireField_fields updated (parseTimestamp_text _), requireField_fields expires (parseTimestamp_text _)]
  rw [dif_pos r.lives]
  simp only [Json.get_fieldsOf, device, deviceId, activity, normalizeActivity_record, ends, normalizeTyping_record]
  rw [dif_neg (fun both => by simp [(r.silent both.1).1] at both), dif_neg (fun both => both.2 (r.silent both.1).2)]

end Handrail.Presence

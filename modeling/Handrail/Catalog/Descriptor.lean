import Handrail.Conversation.Activity

/-!
# Catalog descriptors

The parsers of `catalog.ts`. Every failed check is the same error of the operation that asked for it.
-/

namespace Handrail.Catalog
open Js Conversation

/-- `CONVERSATION_CATALOG_LIMITS` -/
structure CatalogLimits where
  identifierLength := 256
  titleLength := 256
  idempotencyKeyLength := 128
  metadataDepth := 4
  metadataNodes := 64
  metadataArrayLength := 16
  metadataObjectKeys := 16
  metadataKeyLength := 64
  metadataStringLength := 256
  metadataSerializedBytes := 4096

def catalogLimits : CatalogLimits := {}

/-- `ConversationCatalogAuthorizationAction` -/
inductive CatalogAction where
  | list
  | create
  | get
  | rename
  | clear
  | archive
  | restore
  | permanentDelete
deriving DecidableEq, Repr

inductive CatalogErrorCode where
  | invalidInput
  | notFound
  | versionConflict
  | idempotencyConflict
  | forbidden
  | unsupported
  | unavailable
deriving DecidableEq, Repr

/-- `ConversationCatalogError` -/
structure CatalogError where
  code : CatalogErrorCode
  operation : CatalogAction
deriving DecidableEq, Repr

abbrev CatalogChecked := Except CatalogError

def invalid {α : Type} (operation : CatalogAction) : CatalogChecked α := .error ⟨.invalidInput, operation⟩

/-! ### Texts -/

def catalogIdentifierPattern : Pattern :=
  .all [.start, .unit Pattern.isAlphanumeric, .repeats (alphanumericOr "._:@/+~-") 0 none, .finish]

def catalogKeyPattern : Pattern :=
  .all [.start, .unit Pattern.isAlphanumeric, .repeats (alphanumericOr "._:-") 0 none, .finish]

structure CatalogText (maxLength : Nat) (pattern : Pattern) where
  text : JsString
  valid : text.length ≠ 0 ∧ text.length ≤ maxLength ∧ pattern.test text = true
deriving DecidableEq

def parseCatalogText (maxLength : Nat) (pattern : Pattern) (operation : CatalogAction) :
    Option Json → CatalogChecked (CatalogText maxLength pattern)
  | some (.str text) =>
    if valid : text.length ≠ 0 ∧ text.length ≤ maxLength ∧ pattern.test text = true then .ok ⟨text, valid⟩
    else invalid operation
  | _ => invalid operation

abbrev ConversationId := CatalogText catalogLimits.identifierLength catalogIdentifierPattern

def parseIdentifier (operation : CatalogAction) : Option Json → CatalogChecked ConversationId :=
  parseCatalogText catalogLimits.identifierLength catalogIdentifierPattern operation

abbrev CatalogKey := CatalogText catalogLimits.idempotencyKeyLength catalogKeyPattern

/-- `parseConversationCatalogIdempotencyKey` -/
def parseCatalogKey (operation : CatalogAction) : Option Json → CatalogChecked CatalogKey :=
  parseCatalogText catalogLimits.idempotencyKeyLength catalogKeyPattern operation

theorem parseCatalogText_text {maxLength : Nat} {pattern : Pattern} (operation : CatalogAction)
    (t : CatalogText maxLength pattern) : parseCatalogText maxLength pattern operation (some (.str t.text)) = .ok t :=
  dif_pos t.valid

def containsDisallowedControl (value : JsString) (allowTextWhitespace : Bool) : Bool :=
  value.units.any fun c => c == 127 || (c < 32 && !(allowTextWhitespace && (c == 9 || c == 10 || c == 13)))

/-- A title that `parseConversationCatalogTitle` returns. -/
structure CatalogTitle where
  text : JsString
  trimmed : trim text = text
  valid : text.length ≠ 0 ∧ text.length ≤ catalogLimits.titleLength ∧ containsDisallowedControl text false = false
deriving DecidableEq

/-- `parseConversationCatalogTitle` -/
def parseTitle (operation : CatalogAction) : Option Json → CatalogChecked CatalogTitle
  | some (.str value) =>
    if valid : (trim value).length ≠ 0 ∧ (trim value).length ≤ catalogLimits.titleLength ∧
        containsDisallowedControl (trim value) false = false then
      .ok ⟨trim value, trim_trim value, valid⟩
    else invalid operation
  | _ => invalid operation

theorem parseTitle_text (operation : CatalogAction) (title : CatalogTitle) :
    parseTitle operation (some (.str title.text)) = .ok title := by
  obtain ⟨text, trimmed, valid⟩ := title
  simp only [parseTitle, trimmed]
  exact dif_pos valid

/-! ### Metadata -/

/-- `FORBIDDEN_METADATA_FIELDS` -/
def forbiddenMetadataFields : List String := [
  "accesstoken", "apikey", "attachment", "attachments", "auth", "authorization", "authorizationcontext", "base64",
  "binary", "blob", "buffer", "bytes", "content", "contentref", "contentreference", "cookie", "credential",
  "credentials", "data", "file", "fileid", "filename", "headers", "href", "message", "messages", "modelid",
  "objectkey", "password", "payload", "permissioncontext", "prompt", "provider", "providerconfig", "providerid",
  "providernative", "proto", "prototype", "constructor", "ref", "reference", "refreshtoken", "secret", "storagekey",
  "token", "toolinput", "toolinputs", "toolresult", "toolresults", "transcript", "uri", "url"]

/-- The flags `iu` fold two characters beyond ASCII into ASCII letters: the long s and the Kelvin sign. -/
def foldUnicode (value : JsString) : JsString :=
  ⟨value.units.map fun c => if c == 0x17f then 115 else if c == 0x212a then 107 else c⟩

/-- `CREDENTIAL_VALUE_PATTERNS` of `catalog.ts`. -/
def catalogCredentialPatterns : List Pattern := [
  .all [.wordBoundary, .word "bearer", .repeats (.unit isWhitespace) 1 none,
    .repeats (alphanumericOr "._~+/=-") 8 none],
  .all [.any [.start, .unit fun c => !Pattern.isAlphanumeric c], .word "sk-", .repeats (alphanumericOr "_-") 8 none,
    .wordBoundary],
  .all [.word "-----begin ", .any [.word "rsa ", .word "ec ", .word "openssh ", .empty],
    .word "private key-----"]]

/-- `CONTENT_REFERENCE_PATTERNS` -/
def contentReferencePatterns : List Pattern := [
  .all [.start, .any [.word "data", .word "blob"], .word ":"],
  .all [.start, .any [.word "attachment", .word "content", .word "file", .word "object", .word "storage"],
    .any [.unit (Pattern.oneOf "_-"), .empty], .any [.word "ref", .word "reference", .word "id"], .word ":"]]

/-- The condition of `safeMetadataString`. -/
def isSafeMetadataString (value : JsString) : Bool :=
  decide (value.length ≤ catalogLimits.metadataStringLength) && !containsDisallowedControl value true &&
    !matchesAny catalogCredentialPatterns (foldUnicode value) && !matchesAny contentReferencePatterns (foldUnicode value)

def isMetadataKey (key : JsString) : Bool :=
  key.length != 0 && decide (key.length ≤ catalogLimits.metadataKeyLength) && !namedIn forbiddenMetadataFields key

/-- One more value at `depth`: how many were seen. -/
def countNode (depth nodes : Nat) : Option Nat :=
  if catalogLimits.metadataNodes < nodes + 1 ∨ catalogLimits.metadataDepth < depth then none else some (nodes + 1)

mutual
/-- `visit` of `parseConversationCatalogMetadata`: how many values were seen, when it accepts. -/
def visitMetadata (depth nodes : Nat) : Json → Option Nat
  | .null => countNode depth nodes
  | .bool _ => countNode depth nodes
  | .num _ => countNode depth nodes
  | .str text => (countNode depth nodes).filter fun _ => isSafeMetadataString text
  | .arr items => do
    let nodes ← countNode depth nodes
    if catalogLimits.metadataArrayLength < items.length then none else visitMetadataItems depth nodes items
  | .obj fields => do
    let nodes ← countNode depth nodes
    if ¬(Json.keys fields).Nodup ∨ catalogLimits.metadataObjectKeys < fields.length then none
    else visitMetadataFields depth nodes fields
termination_by structural j => j
def visitMetadataItems (depth nodes : Nat) : List Json → Option Nat
  | [] => some nodes
  | item :: rest => do
    let nodes ← visitMetadata (depth + 1) nodes item
    visitMetadataItems depth nodes rest
termination_by structural items => items
def visitMetadataFields (depth nodes : Nat) : Fields → Option Nat
  | [] => some nodes
  | (key, value) :: rest => do
    if isMetadataKey key then
      let nodes ← visitMetadata (depth + 1) nodes value
      visitMetadataFields depth nodes rest
    else none
termination_by structural fields => fields
end

def isMetadata (fields : Fields) : Bool :=
  (visitMetadata 0 0 (.obj fields)).isSome &&
    decide (utf8ByteLength (stringify (.obj fields)) ≤ catalogLimits.metadataSerializedBytes)

/-- Metadata that `parseConversationCatalogMetadata` returns. -/
structure CatalogMetadata where
  fields : Fields
  valid : isMetadata fields = true

/-- `parseConversationCatalogMetadata` -/
def parseMetadata (operation : CatalogAction) : Option Json → CatalogChecked CatalogMetadata
  | some (.obj fields) => if valid : isMetadata fields = true then .ok ⟨fields, valid⟩ else invalid operation
  | _ => invalid operation

theorem parseMetadata_obj (operation : CatalogAction) (metadata : CatalogMetadata) :
    parseMetadata operation (some (.obj metadata.fields)) = .ok metadata := dif_pos metadata.valid

def CatalogMetadata.empty : CatalogMetadata := ⟨[], by decide +kernel⟩

/-! ### Descriptors -/

abbrev CatalogVersion := PositiveSafeInteger

/-- `parseConversationCatalogVersion` -/
def parseVersion (operation : CatalogAction) : Option Json → CatalogChecked CatalogVersion
  | some (.num x) =>
    match readSafeInteger 1 x with
    | some version => .ok version
    | none => invalid operation
  | _ => invalid operation

theorem parseVersion_ofNat (operation : CatalogAction) (version : CatalogVersion) :
    parseVersion operation (some (.num (.ofNat version.value))) = .ok version := by
  have read : readSafeInteger 1 (.ofNat version.value) = some version :=
    readSafeInteger_eq_some.mpr (JsNumber.safeNat?_ofNat version.safe)
  simp only [parseVersion, read]

inductive CatalogLifecycle where
  | active
  | archived (archivedAt : JsString)
deriving DecidableEq

/-- `ConversationCatalogDescriptor`, before its timestamps are checked. -/
structure CatalogDescriptor where
  conversationId : ConversationId
  title : Option CatalogTitle
  createdAt : JsString
  updatedAt : JsString
  version : CatalogVersion
  lifecycle : CatalogLifecycle
  metadata : CatalogMetadata

def CatalogDescriptor.isActive (d : CatalogDescriptor) : Bool :=
  match d.lifecycle with
  | .active => true
  | .archived _ => false

def CatalogDescriptor.jsonFields (d : CatalogDescriptor) : List (String × Json) := [
  ("conversationId", .str d.conversationId.text),
  ("title", d.title.elim .null fun title => .str title.text),
  ("createdAt", .str d.createdAt),
  ("updatedAt", .str d.updatedAt),
  ("version", .num (.ofNat d.version.value)),
  ("lifecycle", .str (match d.lifecycle with
    | .active => js "active"
    | .archived _ => js "archived")),
  ("archivedAt", match d.lifecycle with
    | .active => .null
    | .archived at_ => .str at_),
  ("metadata", .obj d.metadata.fields)]

def CatalogDescriptor.toJson (d : CatalogDescriptor) : Json := Json.object d.jsonFields

/-- `exactKeys` of a record, for any operation. -/
def exactKeys (operation : CatalogAction) (value : Json) (allowed required : List String) : CatalogChecked Fields :=
  match record "" (some value) with
  | .ok fields =>
    match allowedKeys fields allowed, requiredKeys fields required with
    | .ok (), .ok () => .ok fields
    | _, _ => invalid operation
  | .error _ => invalid operation

theorem exactKeys_object {fields : List (String × Json)} {allowed required : List String} (operation : CatalogAction)
    (distinct : (fields.map Prod.fst).Nodup) (known : ∀ key ∈ fields.map Prod.fst, key ∈ allowed)
    (given : ∀ key ∈ required, (fields.lookup key).isSome) :
    exactKeys operation (Json.object fields) allowed required = .ok (Json.fieldsOf fields) := by
  simp only [exactKeys, record_object "" distinct, allowedKeys_fieldsOf known, requiredKeys_fieldsOf given]

def descriptorKeys : List String :=
  ["conversationId", "title", "createdAt", "updatedAt", "version", "lifecycle", "archivedAt", "metadata"]

def isNullValue : Option Json → Bool
  | some .null => true
  | _ => false

def parseNullableTitle (operation : CatalogAction) : Option Json → CatalogChecked (Option CatalogTitle)
  | some .null => .ok none
  | value => (parseTitle operation value).map some

section
variable [DatePlatform]

/-- The condition of `parseTimestamp` and of `isCanonicalTimestamp`. -/
def isCanonicalTimestamp (value : JsString) : Bool :=
  decide (value.length ≤ 32) && DatePlatform.isoString value == some value

def parseTimestamp (operation : CatalogAction) : Option Json → CatalogChecked JsString
  | some (.str value) => if isCanonicalTimestamp value then .ok value else invalid operation
  | _ => invalid operation

def parseConversationCatalogDescriptor (value : Json) : CatalogChecked CatalogDescriptor := do
  let source ← exactKeys .get value descriptorKeys descriptorKeys
  let conversationId ← parseIdentifier .get (Json.get source "conversationId")
  let title ← parseNullableTitle .get (Json.get source "title")
  let createdAt ← parseTimestamp .get (Json.get source "createdAt")
  let updatedAt ← parseTimestamp .get (Json.get source "updatedAt")
  if ¬createdAt ≤ updatedAt then invalid .get
  else
    let version ← parseVersion .get (Json.get source "version")
    let metadata ← parseMetadata .get (Json.get source "metadata")
    match Json.get source "lifecycle", Json.get source "archivedAt" with
    | some (.str lifecycle), archived =>
      if lifecycle = js "active" ∧ isNullValue archived = true then
        return { conversationId, title, createdAt, updatedAt, version, lifecycle := .active, metadata }
      else if lifecycle = js "archived" then
        let archivedAt ← parseTimestamp .get archived
        if ¬createdAt ≤ archivedAt ∨ ¬archivedAt ≤ updatedAt then invalid .get
        else return { conversationId, title, createdAt, updatedAt, version, lifecycle := .archived archivedAt, metadata }
      else invalid .get
    | _, _ => invalid .get

def CatalogDescriptor.timely (d : CatalogDescriptor) : Bool :=
  isCanonicalTimestamp d.createdAt && isCanonicalTimestamp d.updatedAt && decide (d.createdAt ≤ d.updatedAt) &&
    match d.lifecycle with
    | .active => true
    | .archived at_ => isCanonicalTimestamp at_ && decide (d.createdAt ≤ at_) && decide (at_ ≤ d.updatedAt)

theorem parseTimestamp_str (operation : CatalogAction) (value : JsString) : parseTimestamp operation (some (.str value)) =
    if isCanonicalTimestamp value then .ok value else invalid operation := rfl

omit [DatePlatform] in
theorem parseNullableTitle_elim (operation : CatalogAction) (title : Option CatalogTitle) :
    parseNullableTitle operation (some (title.elim .null fun title => .str title.text)) = .ok title := by
  cases title with
  | none => rfl
  | some title => exact congrArg (Except.map some) (parseTitle_text operation title)

theorem parse_toJson (d : CatalogDescriptor) :
    parseConversationCatalogDescriptor d.toJson = if d.timely then .ok d else invalid .get := by
  have source : exactKeys .get d.toJson descriptorKeys descriptorKeys = .ok (Json.fieldsOf d.jsonFields) :=
    exactKeys_object .get (by simp [CatalogDescriptor.jsonFields]) (by simp [CatalogDescriptor.jsonFields, descriptorKeys])
      (by simp [CatalogDescriptor.jsonFields, descriptorKeys])
  have get {key : String} {value : Json} (found : d.jsonFields.lookup key = some value) :
      Json.get (Json.fieldsOf d.jsonFields) key = some value := by rw [Json.get_fieldsOf, found]
  have id := get (show d.jsonFields.lookup "conversationId" = some _ from rfl)
  have title := get (show d.jsonFields.lookup "title" = some _ from rfl)
  have createdAt := get (show d.jsonFields.lookup "createdAt" = some _ from rfl)
  have updatedAt := get (show d.jsonFields.lookup "updatedAt" = some _ from rfl)
  have version := get (show d.jsonFields.lookup "version" = some _ from rfl)
  have lifecycle := get (show d.jsonFields.lookup "lifecycle" = some _ from rfl)
  have archivedAt := get (show d.jsonFields.lookup "archivedAt" = some _ from rfl)
  have metadata := get (show d.jsonFields.lookup "metadata" = some _ from rfl)
  unfold parseConversationCatalogDescriptor
  rw [source]
  simp only [bind, Except.bind, pure, Except.pure, id, title, createdAt, updatedAt, version, lifecycle, archivedAt, metadata,
    parseIdentifier, parseCatalogText_text, parseNullableTitle_elim, parseTimestamp_str, parseVersion_ofNat, parseMetadata_obj]
  by_cases created : isCanonicalTimestamp d.createdAt = true
  · by_cases updated : isCanonicalTimestamp d.updatedAt = true
    · by_cases order : d.createdAt ≤ d.updatedAt
      · simp only [created, updated, order, ↓reduceIte, not_true_eq_false]
        clear source get id title createdAt updatedAt version lifecycle archivedAt metadata
        obtain ⟨id, title, createdAt, updatedAt, version, lifecycle, metadata⟩ := d
        cases lifecycle with
        | active => simp [CatalogDescriptor.timely, isNullValue, created, updated, order]
        | archived at_ =>
          have apart : ¬js "archived" = js "active" := by decide
          simp only [apart, false_and, ↓reduceIte, parseTimestamp_str]
          by_cases archived : isCanonicalTimestamp at_ = true
          · by_cases above : createdAt ≤ at_ <;> by_cases below : at_ ≤ updatedAt <;>
              simp [CatalogDescriptor.timely, created, updated, order, archived, above, below]
          · simp [CatalogDescriptor.timely, archived, invalid]
      · simp [CatalogDescriptor.timely, created, updated, order]
    · simp [CatalogDescriptor.timely, created, updated, invalid]
  · simp [CatalogDescriptor.timely, created, invalid]

end

end Handrail.Catalog

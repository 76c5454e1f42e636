import Handrail.Validation

/-!
# Bounded JSON in durable events

`validateJson` and the checks built on it: metadata, tool arguments, tool results and approval
snapshots are plain JSON within fixed limits, without credential material.
-/

namespace Handrail.Conversation
open Js

/-- `CONVERSATION_EVENT_LIMITS` -/
structure EventLimits where
  identifierLength := 256
  textLength := 1000000
  textChunkBytes := 1000000
  titleLength := 4096
  filenameLength := 255
  metadataSerializedBytes := 16384
  approvalReasonLength := 1024
  approvalArgumentReferenceLength := 512
  approvalSnapshotSerializedBytes := 16384

def eventLimits : EventLimits := {}

/-! ### Patterns -/

/-- `CREDENTIAL_VALUE_PATTERNS` of `events.ts`. -/
def credentialValuePatterns : List Pattern := [
  .all [.wordBoundary, .word "bearer", .repeats (.unit isWhitespace) 1 none,
    .repeats (alphanumericOr "._~+/=-") 8 none],
  .all [.wordBoundary, .word "sk-", .repeats (alphanumericOr "_-") 8 none, .wordBoundary],
  .all [.word "-----begin ", .any [.word "rsa ", .word "ec ", .word "openssh ", .empty],
    .word "private key-----"]]

def approvalBinaryValuePatterns : List Pattern := [
  .all [.start, .word "data:", .repeats (.unit fun c => c != 44) 1 (some 255), .word ";base64,"],
  .all [.start, .repeats (alphanumericOr "+/") 256 none, .repeats (.word "=") 0 (some 2), .finish]]

/-! ### Forbidden names -/

def credentialFieldNames : List String := [
  "accesstoken", "apikey", "apitoken", "authorization", "bearertoken", "clientsecret", "cookie",
  "credential", "credentials", "idtoken", "password", "passwd", "privatekey", "refreshtoken",
  "secret", "secretkey", "secrets", "setcookie", "signingkey"]

def metadataForbiddenFieldNames : List String := credentialFieldNames ++ [
  "anthropic", "choices", "completiontokens", "contentblock", "finishreason", "functioncall",
  "gemini", "headers", "model", "modelid", "nativechunk", "nativepayload", "openai", "prompttokens",
  "provider", "providerchunk", "providererror", "providername", "providerpayload",
  "providerrequest", "providerresponse", "rawerror", "rawrequest", "rawresponse", "requestheaders",
  "systemfingerprint", "usagemetadata", "xai"]

def approvalSnapshotForbiddenFieldNames : List String := metadataForbiddenFieldNames ++ [
  "base64", "binary", "bytes", "hiddeninstruction", "hiddeninstructions", "prompt",
  "systeminstruction", "systeminstructions", "systemprompt"]

def metadataForbiddenStringValues : List String := [
  "anthropic", "chatcompletion", "chatcompletionchunk", "contentblockdelta", "gemini", "openai", "xai"]

/-! ### `validateJson` -/

structure JsonLimits where
  maxDepth : Nat
  maxNodes : Nat
  maxArrayLength : Nat
  maxObjectKeys : Nat
  maxKeyLength : Nat
  maxStringLength : Nat
  forbiddenFields : List String
  forbiddenStringValues : List String
  forbiddenStringPatterns : List Pattern

def jsonLimits : JsonLimits where
  maxDepth := 20
  maxNodes := 10000
  maxArrayLength := 2000
  maxObjectKeys := 2000
  maxKeyLength := 256
  maxStringLength := 1000000
  forbiddenFields := credentialFieldNames
  forbiddenStringValues := []
  forbiddenStringPatterns := []

def metadataLimits : JsonLimits where
  maxDepth := 5
  maxNodes := 256
  maxArrayLength := 64
  maxObjectKeys := 64
  maxKeyLength := 128
  maxStringLength := 4096
  forbiddenFields := metadataForbiddenFieldNames
  forbiddenStringValues := metadataForbiddenStringValues
  forbiddenStringPatterns := []

def approvalSnapshotLimits : JsonLimits where
  maxDepth := 8
  maxNodes := 512
  maxArrayLength := 128
  maxObjectKeys := 128
  maxKeyLength := 128
  maxStringLength := 4096
  forbiddenFields := approvalSnapshotForbiddenFieldNames
  forbiddenStringValues := metadataForbiddenStringValues
  forbiddenStringPatterns := approvalBinaryValuePatterns

def visitString (limits : JsonLimits) (path text : JsString) : Checked Unit :=
  if limits.maxStringLength < text.length then
    under path (fail (js "must be at most " ++ decimal limits.maxStringLength ++ js " characters"))
  else if matchesAny credentialValuePatterns text then
    under path (fail (js "must not contain credential material"))
  else if namedIn limits.forbiddenStringValues text then
    under path (fail (js "must not identify provider-native data"))
  else if matchesAny limits.forbiddenStringPatterns text then
    under path (fail (js "must not contain binary content"))
  else .ok ()

def visitKey (limits : JsonLimits) (path key : JsString) : Checked Unit :=
  if key.length = 0 ∨ limits.maxKeyLength < key.length then
    under (path ++ js "." ++ key)
      (fail (js "field names must be 1-" ++ decimal limits.maxKeyLength ++ js " characters"))
  else if namedIn limits.forbiddenFields key then
    under (path ++ js "." ++ key) (fail (js "is forbidden in durable public data"))
  else .ok ()

/-- One more JSON value at `depth`: the number of values seen so far. -/
def visitNode (limits : JsonLimits) (path : JsString) (depth nodes : Nat) : Checked Nat :=
  if limits.maxNodes < nodes + 1 then
    fail (js "must contain at most " ++ decimal limits.maxNodes ++ js " JSON values")
  else if limits.maxDepth < depth then
    under path (fail (js "exceeds maximum depth " ++ decimal limits.maxDepth))
  else .ok (nodes + 1)

mutual
/-- `visit`, which returns how many JSON values it has counted. The path is relative to the root. -/
def visit (limits : JsonLimits) (path : JsString) (depth nodes : Nat) : Json → Checked Nat
  | .null => visitNode limits path depth nodes
  | .bool _ => visitNode limits path depth nodes
  | .num _ => visitNode limits path depth nodes
  | .str text => do
    let nodes ← visitNode limits path depth nodes
    visitString limits path text
    .ok nodes
  | .arr items => do
    let nodes ← visitNode limits path depth nodes
    if limits.maxArrayLength < items.length then
      under path (fail (js "must contain at most " ++ decimal limits.maxArrayLength ++ js " items"))
    else visitItems limits path depth nodes 0 items
  | .obj fields => do
    let nodes ← visitNode limits path depth nodes
    let fields' ← under path (record "must be a JSON object" (some (.obj fields)))
    if limits.maxObjectKeys < fields'.length then
      under path (fail (js "must contain at most " ++ decimal limits.maxObjectKeys ++ js " fields"))
    else visitFields limits path depth nodes fields
termination_by structural j => j
def visitItems (limits : JsonLimits) (path : JsString) (depth nodes index : Nat) : List Json → Checked Nat
  | [] => .ok nodes
  | item :: rest => do
    let nodes ← visit limits (path ++ js "[" ++ decimal index ++ js "]") (depth + 1) nodes item
    visitItems limits path depth nodes (index + 1) rest
termination_by structural items => items
def visitFields (limits : JsonLimits) (path : JsString) (depth nodes : Nat) : Fields → Checked Nat
  | [] => .ok nodes
  | (key, value) :: rest => do
    visitKey limits path key
    let nodes ← visit limits (path ++ js "." ++ key) (depth + 1) nodes value
    visitFields limits path depth nodes rest
termination_by structural fields => fields
end

def validateJson (limits : JsonLimits) (value : Json) : Checked Unit := do
  let _ ← visit limits JsString.empty 0 0 value
  .ok ()

variable {limits : JsonLimits}

theorem visitItems_eq_ok {path : JsString} {depth nodes index total : Nat}
    {items : List Json} (h : visitItems limits path depth nodes index items = .ok total) :
    ∀ item ∈ items, ∃ path depth before after, visit limits path depth before item = .ok after := by
  induction items generalizing nodes index with
  | nil => simp
  | cons item rest ih =>
    rw [visitItems, bind_eq_ok] at h
    obtain ⟨after, first, h⟩ := h
    rw [List.forall_mem_cons]
    exact ⟨⟨_, _, _, _, first⟩, ih h⟩

theorem visitFields_eq_ok {path : JsString} {depth nodes total : Nat}
    {fields : Fields} (h : visitFields limits path depth nodes fields = .ok total) :
    ∀ field ∈ fields, ∃ path depth before after, visit limits path depth before field.2 = .ok after := by
  induction fields generalizing nodes with
  | nil => simp
  | cons field rest ih =>
    obtain ⟨key, value⟩ := field
    rw [visitFields] at h
    obtain ⟨_, _, h⟩ := bind_eq_ok.mp h
    obtain ⟨after, first, h⟩ := bind_eq_ok.mp h
    rw [List.forall_mem_cons]
    exact ⟨⟨_, _, _, _, first⟩, ih h⟩

/-- What the limits accept is a JSON value whose objects have distinct field names. -/
theorem visit_wellFormed {path : JsString} {depth nodes total : Nat} {value : Json}
    (h : visit limits path depth nodes value = .ok total) : value.wellFormed = true := by
  induction value using Json.induction generalizing path depth nodes total with
  | null | bool | num | str => rfl
  | arr items ih =>
    rw [visit] at h
    obtain ⟨_, _, h⟩ := bind_eq_ok.mp h
    split at h
    · simp [under, fail, Except.mapError] at h
    · rw [Json.wellFormed_arr]
      intro item member
      obtain ⟨_, _, _, _, inner⟩ := visitItems_eq_ok h item member
      exact ih item member inner
  | obj fields ih =>
    rw [visit] at h
    obtain ⟨_, _, h⟩ := bind_eq_ok.mp h
    obtain ⟨same, plain, h⟩ := bind_eq_ok.mp h
    obtain ⟨_, distinct⟩ := record_eq_ok.mp (under_eq_ok.mp plain)
    obtain rfl : fields = same := by simpa using (record_eq_ok.mp (under_eq_ok.mp plain)).1
    split at h
    · simp [under, fail, Except.mapError] at h
    · rw [Json.wellFormed_obj]
      refine ⟨distinct, fun field member => ?_⟩
      obtain ⟨_, _, _, _, inner⟩ := visitFields_eq_ok h field member
      exact ih field member inner

theorem validateJson_wellFormed {value : Json}
    (h : validateJson limits value = .ok ()) : value.wellFormed = true := by
  obtain ⟨_, visited, _⟩ := bind_eq_ok.mp h
  exact visit_wellFormed visited

theorem visit_roundTrip (limits : JsonLimits) (path : JsString) (depth nodes : Nat) (value : Json) :
    visit limits path depth nodes value.roundTrip = visit limits path depth nodes value := by
  induction value using Json.induction generalizing path depth nodes with
  | null | bool | num | str => rfl
  | arr items ih =>
    have each (nodes index : Nat) : visitItems limits path depth nodes index (items.map Json.roundTrip) =
        visitItems limits path depth nodes index items := by
      induction items generalizing nodes index with
      | nil => rfl
      | cons item rest tail =>
        simp only [List.forall_mem_cons] at ih
        simp only [List.map_cons, visitItems, ih.1, tail ih.2]
    simp only [Json.roundTrip_arr, visit, List.length_map, each]
  | obj fields ih =>
    have each (nodes : Nat) :
        visitFields limits path depth nodes (fields.map fun field => (field.1, field.2.roundTrip)) =
          visitFields limits path depth nodes fields := by
      induction fields generalizing nodes with
      | nil => rfl
      | cons field rest tail =>
        simp only [List.forall_mem_cons] at ih
        simp only [List.map_cons, visitFields, ih.1, tail ih.2]
    have names : Json.keys (fields.map fun field => (field.1, field.2.roundTrip)) = Json.keys fields := by
      simp [Json.keys, Function.comp_def]
    simp only [Json.roundTrip_obj, visit, record, names]
    by_cases distinct : (Json.keys fields).Nodup
    · simp only [distinct, ↓reduceIte, under_ok]
      refine congrArg _ (funext fun nodes => ?_)
      simp only [bind, Except.bind, List.length_map, each]
    · simp only [distinct, ↓reduceIte, fail, under, Except.mapError, bind, Except.bind]

@[simp] theorem validateJson_roundTrip (limits : JsonLimits) (value : Json) :
    validateJson limits value.roundTrip = validateJson limits value := by
  simp only [validateJson, visit_roundTrip]

/-- A plain object within `limits`. -/
def validateObject (limits : JsonLimits) (value : Option Json) : Checked JsonObject := do
  let fields ← record "must be a JSON object" value
  validateJson limits (.obj fields)
  .ok ⟨fields⟩

/-- An object within `limits` whose text has at most `bytes` UTF-8 bytes. -/
def validateBoundedObject (limits : JsonLimits) (bytes : Nat) (value : Option Json) : Checked JsonObject := do
  let object ← validateObject limits value
  if bytes < utf8ByteLength (stringify (.obj object.fields)) then
    fail (js "must serialize to at most " ++ decimal bytes ++ js " bytes")
  else .ok object

def validateMetadata (value : Option Json) : Checked JsonObject :=
  validateBoundedObject metadataLimits eventLimits.metadataSerializedBytes value

theorem validateObject_eq_ok {value : Option Json} {object : JsonObject} :
    validateObject limits value = .ok object ↔
      value = some (.obj object.fields) ∧ (Json.keys object.fields).Nodup ∧
        validateJson limits (.obj object.fields) = .ok () := by
  simp only [validateObject, bind_eq_ok, record_eq_ok, Except.ok.injEq]
  constructor
  · rintro ⟨fields, ⟨rfl, distinct⟩, _, accepted, rfl⟩
    exact ⟨rfl, distinct, accepted⟩
  · rintro ⟨rfl, distinct, accepted⟩
    exact ⟨_, ⟨rfl, distinct⟩, (), accepted, rfl⟩

theorem validateBoundedObject_eq_ok {bytes : Nat} {value : Option Json}
    {object : JsonObject} : validateBoundedObject limits bytes value = .ok object ↔
      validateObject limits value = .ok object ∧
        utf8ByteLength (stringify (.obj object.fields)) ≤ bytes := by
  simp only [validateBoundedObject, bind_eq_ok]
  constructor
  · rintro ⟨found, accepted, short⟩
    split at short
    · cases short
    · obtain rfl := Except.ok.inj short
      exact ⟨accepted, by omega⟩
  · rintro ⟨accepted, short⟩
    exact ⟨object, accepted, by rw [if_neg (by omega)]⟩

theorem validateObject_wellFormed {value : Option Json} {object : JsonObject}
    (accepted : validateObject limits value = .ok object) :
    (Json.obj object.fields).wellFormed = true :=
  validateJson_wellFormed (validateObject_eq_ok.mp accepted).2.2

end Handrail.Conversation

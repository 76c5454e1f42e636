import Handrail.ProviderContext.Checkpoint

/-!
# Normalized contexts

`normalizeInstructions`, `normalizeJson` and `canonicalJson` of `provider-context.ts`.
-/

namespace Handrail.ProviderContext
open Js Conversation

/-- The members of `PROVIDER_CONTEXT_LIMITS` that the input of a fingerprint is held to. -/
structure FingerprintLimits where
  instructions := 32
  instructionLength := 100000
  tools := 256
  providerSettingDepth := 8
  providerSettingNodes := 1024
  providerSettingObjectKeys := 128
  providerSettingArrayLength := 128
  providerSettingKeyLength := 128
  providerSettingStringLength := 4096
  providerSettingsSerializedBytes := 32768
  fingerprintSerializedBytes := 2097152

def fingerprintLimits : FingerprintLimits := {}

/-- `String.prototype.normalize("NFC")`, which the Unicode tables of the platform decide. -/
class UnicodeForms where
  normalize : JsString → JsString

variable [UnicodeForms]

/-! ### Instructions -/

/-- `replace(/\r\n?/g, "\n")` -/
def unixLines : List UInt16 → List UInt16
  | [] => []
  | 13 :: 10 :: rest => 10 :: unixLines rest
  | 13 :: rest => 10 :: unixLines rest
  | c :: rest => c :: unixLines rest

/-- `replace(/[\t ]+/g, " ")`, after a blank or not. -/
def collapseBlanks : Bool → List UInt16 → List UInt16
  | _, [] => []
  | blank, c :: rest =>
    if c = 9 ∨ c = 32 then (if blank then [] else [32]) ++ collapseBlanks true rest
    else c :: collapseBlanks false rest

/-- What `normalizeInstructions` makes of an instruction that it accepts. -/
def instructionText (value : JsString) : JsString :=
  let lines := (unixLines (UnicodeForms.normalize value).units).splitOn 10
  trim ⟨[10].intercalate (lines.map fun line => collapseBlanks false (trim ⟨line⟩).units)⟩

/-- The control characters but `\n`, `\r` and `\t`. -/
def isUnsupportedControl (c : UInt16) : Bool := (c ≤ 0x1f && c != 10 && c != 13 && c != 9) || c == 0x7f

def normalizeInstruction : Option Json → Checked JsString
  | some (.str value) =>
    if value.length = 0 ∨ fingerprintLimits.instructionLength < value.length then
      fail (js "must contain 1-" ++ decimal fingerprintLimits.instructionLength ++ js " characters")
    else if value.units.any isUnsupportedControl then fail (js "must not contain unsupported control characters")
    else if matchesAny contextCredentialPatterns value then fail (js "must not contain credential material")
    else if (instructionText value).length = 0 then fail (js "must not normalize to an empty instruction")
    else .ok (instructionText value)
  | _ => fail (js "must contain 1-" ++ decimal fingerprintLimits.instructionLength ++ js " characters")

def normalizeInstructions : Option Json → Checked (List JsString)
  | some (.arr values) =>
    if fingerprintLimits.instructions < values.length then
      fail (js "must contain at most " ++ decimal fingerprintLimits.instructions ++ js " items")
    else eachItem normalizeInstruction 0 values
  | _ => fail (js "must contain at most " ++ decimal fingerprintLimits.instructions ++ js " items")

/-! ### Settings -/

/-- `FORBIDDEN_SETTING_FIELDS` -/
def forbiddenSettingFields : List String := [
  "accesstoken", "apikey", "authorization", "cookie", "credential",
  "credentials", "headers", "input", "instructions", "messages", "output",
  "password", "privatekey", "prompt", "refreshtoken",
  "providerrequest", "providerresponse", "rawrequest", "rawresponse",
  "request", "response", "secret", "systeminstruction", "toolpayload",
  "tooldefinitions", "toolresult", "toolresults", "tools"]

/-- A visit of a value, after so many others: the normalized value and how many have been visited. -/
abbrev SettingVisit (α : Type) := Nat → Checked (α × Nat)

/-- One more value at `depth`. -/
def settingNode (path : JsString) (depth nodes : Nat) : Checked Nat :=
  if fingerprintLimits.providerSettingNodes < nodes + 1 then fail (js "contains too many values")
  else if fingerprintLimits.providerSettingDepth < depth then under path (fail (js "is too deeply nested"))
  else .ok (nodes + 1)

def settingKey (path key : JsString) : Checked Unit :=
  if key.length = 0 ∨ fingerprintLimits.providerSettingKeyLength < key.length then
    under (path ++ js "." ++ key) (fail (js "has an invalid field name length"))
  else if namedIn forbiddenSettingFields key then
    under (path ++ js "." ++ key) (fail (js "is sensitive or provider-native request data"))
  else .ok ()

/-- `Object.keys(source).sort()`, with what each key leads to. -/
def sortVisits (visits : List (JsString × SettingVisit Json)) : List (JsString × SettingVisit Json) :=
  visits.insertionSort fun a b => a.1 ≤ b.1

/-- The fields in the order given. An assignment to `__proto__` makes no field. -/
def visitSettings (path : JsString) : List (JsString × SettingVisit Json) → SettingVisit Fields
  | [], nodes => .ok ([], nodes)
  | (key, visit) :: rest, nodes => do
    settingKey path key
    let value ← visit nodes
    let others ← visitSettings path rest value.2
    .ok (if key = js "__proto__" then others.1 else (key, value.1) :: others.1, others.2)

mutual
/-- `visit` of `normalizeJson`. The path is relative to the root. -/
def settingVisit (path : JsString) (depth : Nat) : Json → SettingVisit Json
  | .null, nodes => do
    let nodes ← settingNode path depth nodes
    .ok (.null, nodes)
  | .bool b, nodes => do
    let nodes ← settingNode path depth nodes
    .ok (.bool b, nodes)
  | .num x, nodes => do
    let nodes ← settingNode path depth nodes
    .ok (.num x.roundTrip, nodes)
  | .str s, nodes => do
    let nodes ← settingNode path depth nodes
    let text ← under path (safeString fingerprintLimits.providerSettingStringLength .empty "" (some (.str s)))
    .ok (.str (UnicodeForms.normalize text.text), nodes)
  | .arr items, nodes => do
    let nodes ← settingNode path depth nodes
    if fingerprintLimits.providerSettingArrayLength < items.length then under path (fail (js "contains too many items"))
    else do
      let seen ← settingItems path depth 0 items nodes
      .ok (.arr seen.1, seen.2)
  | .obj fields, nodes => do
    let nodes ← settingNode path depth nodes
    let source ← under path (record "must be a plain JSON object" (some (.obj fields)))
    if fingerprintLimits.providerSettingObjectKeys < source.length then under path (fail (js "contains too many fields"))
    else do
      let seen ← visitSettings path (sortVisits (settingFields path depth fields)) nodes
      .ok (.obj seen.1, seen.2)
termination_by structural value => value
def settingItems (path : JsString) (depth index : Nat) : List Json → SettingVisit (List Json)
  | [], nodes => .ok ([], nodes)
  | item :: rest, nodes => do
    let value ← settingVisit (path ++ js "[" ++ decimal index ++ js "]") (depth + 1) item nodes
    let others ← settingItems path depth (index + 1) rest value.2
    .ok (value.1 :: others.1, others.2)
termination_by structural items => items
def settingFields (path : JsString) (depth : Nat) : Fields → List (JsString × SettingVisit Json)
  | [] => []
  | (key, value) :: rest =>
    (key, settingVisit (path ++ js "." ++ key) (depth + 1) value) :: settingFields path depth rest
termination_by structural fields => fields
end

def normalizeJson (value : Option Json) : Checked Json :=
  match value with
  | some value => (settingVisit JsString.empty 0 value 0).map Prod.fst
  | none => fail (js "must be JSON-safe")

omit [UnicodeForms] in
/-- `canonicalJson`: the text of `JSON.stringify`, with the keys of every object sorted. -/
def canonicalJson (value : Json) : JsString := stringify value.canonical

end Handrail.ProviderContext

import Handrail.Conversation.ApprovalStore
import Handrail.Js.Utf8
import Handrail.Protocol.ToolDefinition
import Handrail.ProviderContext.Normalization

/-!
# Context fingerprints

`createProviderContextFingerprint` of `provider-context.ts`.
-/

namespace Handrail.ProviderContext
open Js Conversation

class Sha256 where
  digest : List UInt8 → JsString

/-- `PROVIDER_CONTEXT_CONTRACT_VERSION` -/
def contractVersion : String := "handrail.provider-context.v1"

/-- What `createProviderContextFingerprint` serializes, the version apart. -/
structure NormalizedContext where
  providerId : ContextIdentifier
  modelId : ContextIdentifier
  instructions : List JsString
  tools : List Json
  maxOutputTokens : PositiveSafeInteger
  temperature : JsNumber
  providerSettings : Json

def NormalizedContext.fields (c : NormalizedContext) : List (String × Json) := [
  ("version", .str (js contractVersion)),
  ("model", .object [("provider_id", .str c.providerId.text), ("model_id", .str c.modelId.text)]),
  ("instructions", .arr (c.instructions.map .str)),
  ("tools", .arr c.tools),
  ("generation", .object [("max_output_tokens", .num (.ofNat c.maxOutputTokens.value)), ("temperature", .num c.temperature)]),
  ("provider_settings", c.providerSettings)]

def NormalizedContext.toJson (c : NormalizedContext) : Json := .object c.fields

section
variable [Collation]

/-- `canonicalJson(left).localeCompare(canonicalJson(right)) <= 0` -/
def toolLe (left right : Json) : Prop := Collation.localeCompare (canonicalJson left) (canonicalJson right) ≤ 0

instance : DecidableRel toolLe :=
  fun left right => inferInstanceAs (Decidable (Collation.localeCompare (canonicalJson left) (canonicalJson right) ≤ 0))

/-- `tools.sort((left, right) => canonicalJson(left).localeCompare(canonicalJson(right)))` -/
def sortTools (tools : List Json) : List Json := tools.insertionSort toolLe

variable [UnicodeForms]

omit [Collation] in
/-- One of `source.tools`. The path of a definition that is refused starts at the tool. -/
def normalizeTool (index : Nat) (tool : Json) : Checked Json := do
  let parsed ← Protocol.parseToolDefinition (some tool)
  under (js ".tools[" ++ decimal index ++ js "]") (normalizeJson (some (.obj parsed)))

omit [Collation] in
def normalizeEachTool : Nat → List Json → Checked (List Json)
  | _, [] => .ok []
  | index, tool :: rest => do
    let normalized ← normalizeTool index tool
    let others ← normalizeEachTool (index + 1) rest
    .ok (normalized :: others)

/-- `source.tools`, normalized and sorted. -/
def normalizeTools : Option Json → Checked (List Json)
  | some (.arr tools) =>
    if fingerprintLimits.tools < tools.length then
      under (js ".tools") (fail (js "must contain at most " ++ decimal fingerprintLimits.tools ++ js " tools"))
    else (normalizeEachTool 0 tools).map sortTools
  | _ => under (js ".tools") (fail (js "must contain at most " ++ decimal fingerprintLimits.tools ++ js " tools"))

omit [Collation] [UnicodeForms] in
def withinTemperature (x : JsNumber) : Bool :=
  (!x.negative || x.digits == 0) && x.digits * 10 ^ x.exponent.toNat ≤ 2 * 10 ^ (-x.exponent).toNat

omit [Collation] [UnicodeForms] in
/-- `generation.temperature`, where the zero has no sign. -/
def normalizeTemperature : Option Json → Checked JsNumber
  | some (.num x) =>
    if withinTemperature x then .ok x.roundTrip else fail (js "must be a finite number from 0 through 2")
  | _ => fail (js "must be a finite number from 0 through 2")

omit [Collation] in
def normalizeSettings (source : Fields) : Checked Json :=
  if Json.hasOwn source "provider_settings" then field source "provider_settings" normalizeJson else .ok (.obj [])

/-- The record that `createProviderContextFingerprint` builds from its input. -/
def normalizeContext (input : Option Json) : Checked NormalizedContext := do
  let source ← record "must be a plain JSON object" input
  allowedKeys source ["model", "instructions", "tools", "generation", "provider_settings"]
  requiredKeys source ["model", "instructions", "tools", "generation"]
  let model ← field source "model" (record "must be a plain JSON object")
  under (js ".model") (allowedKeys model ["provider_id", "model_id"])
  under (js ".model") (requiredKeys model ["provider_id", "model_id"])
  let tools ← normalizeTools (Json.get source "tools")
  let generation ← field source "generation" (record "must be a plain JSON object")
  under (js ".generation") (allowedKeys generation ["max_output_tokens", "temperature"])
  under (js ".generation") (requiredKeys generation ["max_output_tokens", "temperature"])
  let maxOutputTokens ← under (js ".generation")
    (field generation "max_output_tokens" (safeInteger 1 "must be a safe integer greater than or equal to 1"))
  let temperature ← under (js ".generation") (field generation "temperature" normalizeTemperature)
  let providerId ← under (js ".model") (field model "provider_id" contextIdentifier)
  let modelId ← under (js ".model") (field model "model_id" contextIdentifier)
  let instructions ← field source "instructions" normalizeInstructions
  let providerSettings ← normalizeSettings source
  return { providerId, modelId, instructions, tools, maxOutputTokens, temperature, providerSettings }

def serializeContext (input : Option Json) : Checked JsString := do
  let normalized ← normalizeContext input
  if fingerprintLimits.providerSettingsSerializedBytes < (encodeUtf8 (canonicalJson normalized.providerSettings)).length then
    under (js ".provider_settings")
      (fail (js "must serialize to at most " ++ decimal fingerprintLimits.providerSettingsSerializedBytes ++ js " bytes"))
  else if fingerprintLimits.fingerprintSerializedBytes < (encodeUtf8 (canonicalJson normalized.toJson)).length then
    fail (js "must normalize to at most " ++ decimal fingerprintLimits.fingerprintSerializedBytes ++ js " bytes")
  else .ok (canonicalJson normalized.toJson)

def createProviderContextFingerprint [Sha256] (input : Option Json) : Checked JsString := do
  let serialized ← serializeContext input
  .ok (js "sha256:" ++ Sha256.digest (encodeUtf8 serialized))

end

end Handrail.ProviderContext

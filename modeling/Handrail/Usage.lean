import Handrail.Conversation.Activity

/-!
# `usage.ts`

The receipt of one provider invocation. The parser checks an untrusted receipt and answers it unchanged.
-/

namespace Handrail.Usage
open Js Conversation

inductive UsageValueStatus where
  | reported
  | estimated
  | unavailable
deriving DecidableEq, Repr

instance : Enumeration UsageValueStatus where
  text
    | .reported => "reported"
    | .estimated => "estimated"
    | .unavailable => "unavailable"
  values := [.reported, .estimated, .unavailable]
  mem_values a := by cases a <;> simp
  text_injective {a b} same := by cases a <;> cases b <;> simp_all

inductive UsageReceiptSource where
  | provider
  | runtime
deriving DecidableEq, Repr

instance : Enumeration UsageReceiptSource where
  text
    | .provider => "provider"
    | .runtime => "runtime"
  values := [.provider, .runtime]
  mem_values a := by cases a <;> simp
  text_injective {a b} same := by cases a <;> cases b <;> simp_all

inductive UsageReceiptTerminalStatus where
  | completed
  | cancelled
  | failed
deriving DecidableEq, Repr

instance : Enumeration UsageReceiptTerminalStatus where
  text
    | .completed => "completed"
    | .cancelled => "cancelled"
    | .failed => "failed"
  values := [.completed, .cancelled, .failed]
  mem_values a := by cases a <;> simp
  text_injective {a b} same := by cases a <;> cases b <;> simp_all

/-- `NORMALIZED_USAGE_RECEIPT_LIMITS` -/
structure ReceiptLimits where
  identifierLength := 256
  providerIdLength := 128
  modelIdLength := 256
  decimalLength := 128
  currencyLength := 3

def receiptLimits : ReceiptLimits := {}

/-! ### Texts -/

/-- `CREDENTIAL_VALUE_PATTERNS` of `usage.ts`. -/
def receiptCredentialPatterns : List Pattern := [
  .all [.wordBoundary, .word "bearer", .repeats (.unit isWhitespace) 1 none,
    .repeats (alphanumericOr "._~+/=-") 8 none],
  .all [.wordBoundary, .word "sk-", .repeats (alphanumericOr "_-") 8 none, .wordBoundary],
  .all [.word "-----begin ", .any [.word "rsa ", .word "ec ", .word "openssh ", .empty],
    .word "private key-----"]]

/-- `EXACT_NON_NEGATIVE_DECIMAL` -/
def exactDecimalPattern : Pattern :=
  let digit : Pattern := .unit Pattern.isDigit
  .all [.start,
    .any [.unit (Pattern.oneOf "0"), .all [.unit (Pattern.oneOf "123456789"), .repeats digit 0 none]],
    .any [.all [.unit (Pattern.oneOf "."), .repeats digit 1 none], .empty], .finish]

/-- `SAFE_PROVIDER_ID` -/
def safeProviderIdPattern : Pattern :=
  .all [.start, .unit Pattern.isAlphanumeric, .repeats (alphanumericOr "._:/-") 0 none, .finish]

/-- `SAFE_MODEL_ID` -/
def safeModelIdPattern : Pattern :=
  .all [.start, .unit Pattern.isAlphanumeric, .repeats (alphanumericOr "._:@/+-") 0 none, .finish]

/-- `/^[A-Z]{3}$/` -/
def currencyPattern : Pattern :=
  .all [.start, .repeats (.unit fun c => 65 ≤ c && c ≤ 90) 3 (some 0), .finish]

/-- `boundedString` of `usage.ts`. -/
def receiptText (maxLength : Nat) : Option Json → Checked JsString
  | some (.str value) =>
    if value.length = 0 then fail (js "must not be empty")
    else if maxLength < value.length then fail (js "must be at most " ++ decimal maxLength ++ js " characters")
    else if value.units.any fun c => c ≤ 0x1f || c == 0x7f then fail (js "must not contain control characters")
    else if matchesAny receiptCredentialPatterns value then fail (js "must not contain credential material")
    else .ok value
  | _ => fail (js "must be a string")

/-- `identifier` of `usage.ts`. -/
def receiptIdentifier : Option Json → Checked JsString := receiptText receiptLimits.identifierLength

/-- `nonNegativeSafeInteger` of `usage.ts`. -/
def receiptInteger (value : Option Json) : Checked Nat :=
  (nonnegativeSafeInteger value).map SafeInteger.value

/-! ### Parts -/

def validateIdentity (value : Option Json) : Checked Unit := do
  let object ← record "must be a JSON object" value
  requiredKeys object ["id", "index"]
  allowedKeys object ["id", "index"]
  let _ ← field object "id" receiptIdentifier
  let _ ← field object "index" receiptInteger

/-- `validateQuantity`, with its `knownQuantityValue`. -/
def validateQuantity (value : Option Json) : Checked (Option Nat) := do
  let object ← record "must be a JSON object" value
  requiredKeys object ["status"]
  let status ← field object "status" (enumValue [UsageValueStatus.reported, .estimated, .unavailable])
  if status = .unavailable then
    allowedKeys object ["status"]
    return none
  requiredKeys object ["value"]
  allowedKeys object ["status", "value"]
  let value ← field object "value" receiptInteger
  return some value

def failAt {α : Type} (path message : String) : Checked α := under (js path) (fail (js message))

def validateTokenUsage (value : Option Json) : Checked Unit := do
  let fields := ["input_tokens", "cached_input_tokens", "output_tokens", "reasoning_tokens", "total_tokens"]
  let object ← record "must be a JSON object" value
  requiredKeys object fields
  allowedKeys object (fields ++ ["cache_write_input_tokens"])
  let input ← field object "input_tokens" validateQuantity
  let cached ← field object "cached_input_tokens" validateQuantity
  let output ← field object "output_tokens" validateQuantity
  let reasoning ← field object "reasoning_tokens" validateQuantity
  let total ← field object "total_tokens" validateQuantity
  let cacheWrite ← (optionalField object "cache_write_input_tokens" validateQuantity).map Option.join
  let knownTotals := ([input, output, total].filter Option.isSome).length
  if knownTotals ≠ 0 ∧ knownTotals ≠ 3 then
    fail (js "input_tokens, output_tokens, and total_tokens must be available together")
  if input.isSome ∧ output.isSome ∧ total ≠ some (input.getD 0 + output.getD 0) then
    failAt ".total_tokens.value" "must equal input_tokens + output_tokens"
  if cached.isSome ∧ input.isNone then
    failAt ".cached_input_tokens" "cannot be available when input_tokens is unavailable"
  if cached.isSome ∧ input.isSome ∧ input.getD 0 < cached.getD 0 then
    failAt ".cached_input_tokens.value" "must not exceed input_tokens"
  if cacheWrite.isSome ∧ (input.isNone ∨ input.getD 0 < cacheWrite.getD 0 + cached.getD 0) then
    failAt ".cache_write_input_tokens.value" "must be a disjoint subset of input_tokens"
  if reasoning.isSome ∧ output.isNone then
    failAt ".reasoning_tokens" "cannot be available when output_tokens is unavailable"
  if reasoning.isSome ∧ output.isSome ∧ output.getD 0 < reasoning.getD 0 then
    failAt ".reasoning_tokens.value" "must not exceed output_tokens"

def validateCost (value : Option Json) : Checked Unit := do
  let object ← record "must be a JSON object" value
  requiredKeys object ["status"]
  let status ← field object "status" (enumValue [UsageValueStatus.reported, .estimated, .unavailable])
  if status = .unavailable then
    allowedKeys object ["status"]
    return
  requiredKeys object ["amount", "currency"]
  allowedKeys object ["status", "amount", "currency"]
  let amount ← field object "amount" (receiptText receiptLimits.decimalLength)
  if !exactDecimalPattern.test amount then
    failAt ".amount" "must be an exact non-negative base-10 decimal string"
  let currency ← field object "currency" (receiptText receiptLimits.currencyLength)
  if !currencyPattern.test currency then
    failAt ".currency" "must be a three-letter uppercase ISO 4217 code"

def validateAttributionMember (isOptional : Bool) (value : Option Json) : Checked Unit := do
  let object ← record "must be a JSON object" value
  requiredKeys object ["id", "source", "trust"]
  allowedKeys object ["id", "source", "trust"]
  match isOptional, Json.get object "id" with
  | true, some .null => pure ()
  | _, _ =>
    let _ ← field object "id" receiptIdentifier
  match Json.get object "source" with
  | some (.str text) => if text ≠ js "server_derived" then failAt ".source" "must equal \"server_derived\""
  | _ => failAt ".source" "must equal \"server_derived\""
  match Json.get object "trust" with
  | some (.str text) => if text ≠ js "authoritative" then failAt ".trust" "must equal \"authoritative\""
  | _ => failAt ".trust" "must equal \"authoritative\""

def validateAttribution (value : Option Json) : Checked Unit := do
  let fields := ["organization", "project", "service_environment", "known_user", "session", "automation"]
  let object ← record "must be a JSON object" value
  requiredKeys object fields
  allowedKeys object fields
  field object "organization" (validateAttributionMember false)
  field object "project" (validateAttributionMember false)
  field object "service_environment" (validateAttributionMember false)
  field object "known_user" (validateAttributionMember true)
  field object "session" (validateAttributionMember true)
  field object "automation" (validateAttributionMember true)

def validateProviderIdentity (maxLength : Nat) (pattern : Pattern) (value : Option Json) : Checked Unit := do
  let id ← receiptText maxLength value
  if !pattern.test id then fail (js "must be a safe provider/model identifier")

/-! ### The receipt -/

structure ReceiptIdentity where
  usageReceiptId : JsString
  turnId : JsString
  terminalStatus : UsageReceiptTerminalStatus

structure NormalizedUsageReceipt extends ReceiptIdentity where
  json : Json

def receiptFields : List String := ["version", "usage_receipt_id", "conversation_id", "turn_id",
  "logical_request_id", "trace_id", "attempt", "continuation", "provider_id", "model_id", "attribution", "source",
  "terminal_status", "tokens", "provider_cost"]

variable [DatePlatform]

/-- `occurred_at`: what `toISOString` prints of it. -/
def validateOccurredAt (value : Option Json) : Checked Unit := do
  let occurredAt ← receiptText 64 value
  if DatePlatform.isoString occurredAt ≠ some occurredAt then fail (js "must be a canonical ISO-8601 timestamp")

/-- The checks of `parseNormalizedUsageReceipt`. -/
def validateReceipt (value : Json) : Checked ReceiptIdentity := do
  let object ← record "must be a JSON object" (some value)
  requiredKeys object receiptFields
  allowedKeys object (receiptFields ++ ["occurred_at"])
  match Json.get object "version" with
  | some (.num n) => if n ≠ .ofNat 1 then failAt ".version" "must equal 1"
  | _ => failAt ".version" "must equal 1"
  let _ ← optionalField object "occurred_at" validateOccurredAt
  let usageReceiptId ← field object "usage_receipt_id" receiptIdentifier
  let _ ← field object "conversation_id" receiptIdentifier
  let turnId ← field object "turn_id" receiptIdentifier
  let _ ← field object "logical_request_id" receiptIdentifier
  let _ ← field object "trace_id" receiptIdentifier
  field object "attempt" validateIdentity
  field object "continuation" validateIdentity
  field object "provider_id" (validateProviderIdentity receiptLimits.providerIdLength safeProviderIdPattern)
  field object "model_id" (validateProviderIdentity receiptLimits.modelIdLength safeModelIdPattern)
  field object "attribution" validateAttribution
  let _ ← field object "source" (enumValue [UsageReceiptSource.provider, .runtime])
  let terminalStatus ← field object "terminal_status" (enumValue [UsageReceiptTerminalStatus.completed, .cancelled, .failed])
  field object "tokens" validateTokenUsage
  field object "provider_cost" validateCost
  return { usageReceiptId, turnId, terminalStatus }

def parseNormalizedUsageReceipt (value : Json) : Checked NormalizedUsageReceipt :=
  (under (js "$receipt") (validateReceipt value)).map fun identity => { identity with json := value }

theorem parse_json {value : Json} {receipt : NormalizedUsageReceipt}
    (parsed : parseNormalizedUsageReceipt value = .ok receipt) : receipt.json = value := by
  obtain ⟨_, _, rfl⟩ := map_eq_ok.mp parsed
  rfl

end Handrail.Usage

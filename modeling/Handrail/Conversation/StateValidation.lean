import Handrail.Conversation.SoundStates

/-!
# `state-validation.ts`

The check of a JSON value that claims to be a conversation state. Some checks convert a field with
`String(value)`, which throws on an object that has a field `toString`.
-/

namespace Handrail.Conversation
open Js

/-! ### `String(value)` -/

mutual
/-- The text of `String(value)`, `none` when the conversion throws. -/
def stringOf : Json → Option JsString
  | .null => some (js "null")
  | .bool b => some (if b then js "true" else js "false")
  | .num x => some x.text
  | .str s => some s
  | .arr items => joinItems true items
  | .obj fields => if Json.hasOwn fields "toString" then none else some (js "[object Object]")
termination_by structural j => j
/-- `items.join()`, a comma before each item but the first. -/
def joinItems : Bool → List Json → Option JsString
  | _, [] => some JsString.empty
  | first, item :: rest => do
    let text ← match item with
      | .null => some JsString.empty
      | item => stringOf item
    let others ← joinItems false rest
    some ((if first then JsString.empty else js ",") ++ text ++ others)
termination_by structural _ items => items
end

inductive StateFault where
  /-- A check returned `false`. -/
  | refused
  /-- `String(value)` threw a `TypeError`. -/
  | typeError
deriving DecidableEq, Repr

abbrev StateCheck := Except StateFault

def ensure (holds : Bool) : StateCheck Unit := if holds then .ok () else .error .refused

@[simp] theorem ensure_eq_ok {holds : Bool} {u : Unit} : ensure holds = .ok u ↔ holds = true := by
  unfold ensure
  split <;> simp_all

/-- `values.includes(String(value))` for the texts of an enumeration. -/
def includesText {α : Type} [Enumeration α] (values : List α) (value : Option Json) : StateCheck Unit :=
  match value with
  | none => .error .refused
  | some j =>
    match stringOf j with
    | none => .error .typeError
    | some text => ensure (valueOf values text).isSome

/-- `value === null || check(value)` -/
def nullOr (check : Option Json → StateCheck Unit) (value : Option Json) : StateCheck Unit :=
  match value with
  | some .null => .ok ()
  | value => check value

/-! ### Values -/

/-- `Object.keys(value)` has the expected keys and no others. -/
def hasExactKeys (object : Fields) (expected : List String) : Bool :=
  (Json.keys object).length == expected.length && expected.all (Json.hasOwn object)

def isIdentifier : Option Json → Bool
  | some (.str text) => 0 < text.length
  | _ => false

def isString : Option Json → Bool
  | some (.str _) => true
  | _ => false

def isBoolean : Option Json → Bool
  | some (.bool _) => true
  | _ => false

def isJsonObject : Option Json → Bool
  | some (.obj _) => true
  | _ => false

/-- `typeof value === "string" && values.includes(value)` -/
def isOneOf {α : Type} [Enumeration α] (values : List α) : Option Json → Bool
  | some (.str text) => (valueOf values text).isSome
  | _ => false

def isSafeIntegerFrom (min : Nat) : Option Json → Bool
  | some (.num x) => x.safeNat?.any (min ≤ ·)
  | _ => false

/-- `Date.parse(value)` when `isConversationTimestamp(value)`. -/
def conversationTime : Option Json → Option Int
  | some (.str text) => timestampTime text
  | _ => none

def isConversationTimestamp (value : Option Json) : Bool := (conversationTime value).isSome

def isConversationAttachmentReference (value : Option Json) : Bool := (validateAttachmentReference value).isOk

def isConversationApprovalReason (value : Option Json) : Bool := (validateApprovalReason value).isOk

def isConversationApprovalReviewedArguments (value : Option Json) : Bool :=
  (validateApprovalReviewedArguments value).isOk

def recordArray (predicate : Fields → StateCheck Unit) : Option Json → StateCheck (List Fields)
  | some (.arr items) => items.mapM fun item =>
    match item with
    | .obj fields => do
      predicate fields
      .ok fields
    | _ => .error .refused
  | _ => .error .refused

def identifierTexts : Option Json → StateCheck (List JsString)
  | some (.arr items) => items.mapM fun item =>
    match item with
    | .str text => if 0 < text.length then .ok text else .error .refused
    | _ => .error .refused
  | _ => .error .refused

def textOf (object : Fields) (key : String) : Option JsString :=
  match Json.get object key with
  | some (.str text) => some text
  | _ => none

/-! ### Records -/

def isAttribution (value : Option Json) : StateCheck Unit := do
  match value with
  | some (.obj fields) =>
    match Json.get fields "actor", Json.get fields "source" with
    | some (.obj actor), some (.obj source) =>
      includesText (Enumeration.values (α := ActorType)) (Json.get actor "type")
      ensure (!Json.hasOwn actor "id" || isIdentifier (Json.get actor "id"))
      includesText (Enumeration.values (α := SourceType)) (Json.get source "type")
      ensure (!isLiteral (Json.get source "type") "client" || isIdentifier (Json.get source "client_id"))
    | _, _ => .error .refused
  | _ => .error .refused

def isNullableAttribution : Option Json → StateCheck Unit := nullOr isAttribution

def isTextPart : Json → Bool
  | .obj fields =>
    hasExactKeys fields ["type", "text"] && isLiteral (Json.get fields "type") "text" &&
      isString (Json.get fields "text")
  | _ => false

def isJsonPart : Json → Bool
  | .obj fields => isLiteral (Json.get fields "type") "json" && Json.hasOwn fields "value"
  | _ => false

def everyPart (check : Json → Bool) : Option Json → Bool
  | some (.arr items) => items.all check
  | _ => false

def itemsOf (object : Fields) (key : String) : List Json :=
  match Json.get object key with
  | some (.arr items) => items
  | _ => []

/-- The `attachment_id` of a reference. -/
def attachmentIdOf : Json → Option JsString
  | .obj fields => textOf fields "attachment_id"
  | _ => none

/-- `!Object.hasOwn(object, key) || check(object[key])` -/
def ownOr (check : Option Json → StateCheck Unit) (object : Fields) (key : String) : StateCheck Unit :=
  if Json.hasOwn object key then check (Json.get object key) else .ok ()

def isMessage (message : Fields) : StateCheck Unit := do
  ensure (hasExactKeys message
    (if Json.hasOwn message "turn_id" then
      ["message_id", "turn_id", "role", "content", "attachments", "created_at", "attribution"]
    else ["message_id", "role", "content", "attachments", "created_at", "attribution"]))
  ensure (isIdentifier (Json.get message "message_id"))
  ownOr (nullOr fun id => ensure (isIdentifier id)) message "turn_id"
  nullOr (includesText (Enumeration.values (α := MessageRole))) (Json.get message "role")
  ensure (everyPart isTextPart (Json.get message "content"))
  ensure (everyPart (fun a => isConversationAttachmentReference (some a)) (Json.get message "attachments"))
  ensure (decide ((itemsOf message "attachments").map attachmentIdOf).Nodup)
  nullOr (fun time => ensure (isString time)) (Json.get message "created_at")
  isNullableAttribution (Json.get message "attribution")

def isAttachmentRecord (attachment : Fields) : StateCheck Unit := do
  ensure (hasExactKeys attachment ["message_id", "attachment_id", "reference", "referenced_at", "attribution"])
  ensure (isIdentifier (Json.get attachment "message_id"))
  ensure (isConversationAttachmentReference (Json.get attachment "reference"))
  ensure (isString (Json.get attachment "attachment_id") &&
    textOf attachment "attachment_id" == (Json.get attachment "reference").bind attachmentIdOf)
  ensure (isConversationTimestamp (Json.get attachment "referenced_at"))
  isAttribution (Json.get attachment "attribution")

def sameAttachmentReference (left right : Option Json) : Bool :=
  match validateAttachmentReference left, validateAttachmentReference right with
  | .ok a, .ok b => decide (a = b)
  | _, _ => false

def recordKey (attachment : Fields) : JsString :=
  ((textOf attachment "message_id").getD JsString.empty) ++ js "\x00" ++
    ((textOf attachment "attachment_id").getD JsString.empty)

def hasConsistentAttachmentProjection (messages attachments : List Fields) : Bool :=
  decide (messages.map fun message => textOf message "message_id").Nodup &&
    decide (attachments.map recordKey).Nodup &&
    (messages.all fun message => (itemsOf message "attachments").all fun reference =>
      (attachments.find? fun attachment =>
        textOf attachment "message_id" == textOf message "message_id" &&
          textOf attachment "attachment_id" == attachmentIdOf reference).any fun matching =>
        sameAttachmentReference (Json.get matching "reference") (some reference)) &&
    attachments.all fun attachment =>
      (messages.find? fun message =>
        textOf message "message_id" == textOf attachment "message_id").any fun message =>
        (itemsOf message "attachments").any fun reference =>
          sameAttachmentReference (Json.get attachment "reference") (some reference)

def isTurnError : Option Json → Bool
  | some (.obj fields) =>
    isString (Json.get fields "code") && isString (Json.get fields "message") &&
      isBoolean (Json.get fields "retryable")
  | _ => false

def isTurnRetryRecord (value : Json) : StateCheck Unit := do
  match value with
  | .obj retry =>
    ensure (isSafeIntegerFrom 1 (Json.get retry "attempt"))
    ensure (isConversationTimestamp (Json.get retry "occurred_at"))
    isAttribution (Json.get retry "attribution")
    if isLiteral (Json.get retry "type") "turn.attempt_started" then
      ensure (hasExactKeys retry ["type", "attempt", "operation", "occurred_at", "attribution"] &&
        isOneOf (Enumeration.values (α := TurnAttemptOperation)) (Json.get retry "operation"))
    else if isLiteral (Json.get retry "type") "turn.retry_scheduled" then
      ensure (hasExactKeys retry
          ["type", "attempt", "reason_category", "delay_ms", "occurred_at", "attribution"] &&
        isOneOf (Enumeration.values (α := RetryReasonCategory)) (Json.get retry "reason_category") &&
        isSafeIntegerFrom 0 (Json.get retry "delay_ms"))
    else if isLiteral (Json.get retry "type") "turn.retry_exhausted" then
      ensure (hasExactKeys retry
          ["type", "attempt", "reason_category", "exhaustion_reason", "occurred_at", "attribution"] &&
        isOneOf (Enumeration.values (α := RetryReasonCategory)) (Json.get retry "reason_category") &&
        isOneOf (Enumeration.values (α := RetryExhaustionReason)) (Json.get retry "exhaustion_reason"))
    else .error .refused
  | _ => .error .refused

def everyValue (check : Json → StateCheck Unit) : Option Json → StateCheck Unit
  | some (.arr items) => items.forM check
  | _ => .error .refused

def isTurn (turn : Fields) : StateCheck Unit := do
  ensure (isIdentifier (Json.get turn "turn_id"))
  nullOr (fun id => ensure (isIdentifier id)) (Json.get turn "continuation_of_turn_id")
  includesText (Enumeration.values (α := TurnStateStatus)) (Json.get turn "status")
  let _ ← identifierTexts (Json.get turn "input_message_ids")
  let _ ← identifierTexts (Json.get turn "output_message_ids")
  nullOr (includesText (Enumeration.values (α := TurnCompletionOutcome))) (Json.get turn "outcome")
  nullOr (includesText (Enumeration.values (α := TurnCancellationReason))) (Json.get turn "cancellation_reason")
  nullOr (fun status => ensure (isOneOf (Enumeration.values (α := TurnCancellationStatus)) status))
    (Json.get turn "cancellation_status")
  nullOr (fun reason => ensure (isOneOf (Enumeration.values (α := TurnCancellationReason)) reason))
    (Json.get turn "cancellation_requested_reason")
  ensure (isBoolean (Json.get turn "remote_may_still_be_running"))
  nullOr (fun error => ensure (isTurnError error)) (Json.get turn "error")
  everyValue isTurnRetryRecord (Json.get turn "retry_history")
  nullOr (fun time => ensure (isString time)) (Json.get turn "started_at")
  nullOr (fun time => ensure (isString time)) (Json.get turn "terminal_at")
  isNullableAttribution (Json.get turn "attribution")

def isToolLoopBudgetExhaustion (exhaustion : Fields) : StateCheck Unit := do
  ensure (isIdentifier (Json.get exhaustion "turn_id"))
  includesText (Enumeration.values (α := ToolLoopBudget)) (Json.get exhaustion "budget")
  ensure (isSafeIntegerFrom 1 (Json.get exhaustion "limit"))
  ensure (isString (Json.get exhaustion "exhausted_at"))
  isAttribution (Json.get exhaustion "attribution")

def isUsageLink (link : Fields) : StateCheck Unit := do
  ensure (isIdentifier (Json.get link "usage_receipt_id"))
  ensure (isIdentifier (Json.get link "turn_id"))
  ensure (isString (Json.get link "linked_at"))
  isAttribution (Json.get link "attribution")

/-- `object[key] === null` -/
def isNull (object : Fields) (key : String) : Bool :=
  match Json.get object key with
  | some .null => true
  | _ => false

def actorTypeOf : Option Json → Option Json
  | some (.obj attribution) =>
    match Json.get attribution "actor" with
    | some (.obj actor) => Json.get actor "type"
    | _ => none
  | _ => none

def isProposalStatus (proposal : Fields) : StateCheck Unit :=
  let status := Json.get proposal "status"
  if isLiteral status "pending" then
    ensure (isNumber (Json.get proposal "proposal_version") 1 && isNull proposal "decision_at" &&
      isNull proposal "decision_attribution" && isNull proposal "decision_reason" && isNull proposal "failure_reason")
  else do
    ensure (isSafeIntegerFrom 2 (Json.get proposal "proposal_version") && !isNull proposal "decision_at" &&
      !isNull proposal "decision_attribution")
    includesText [ActorType.user, ActorType.system] (actorTypeOf (Json.get proposal "decision_attribution"))
    if isOneOf [ApprovalProposalStatus.confirmed, .rejected, .expired, .executing, .executed] status then
      ensure (isNull proposal "failure_reason")
    else ensure (!isLiteral status "failed" || !isNull proposal "failure_reason")

/-- `Date.parse(value[later]) <= Date.parse(value[earlier])`, with `order` for the comparison. -/
def comparesTimes (order : Int → Int → Bool) (object : Fields) (left right : String) : Bool :=
  match conversationTime (Json.get object left), conversationTime (Json.get object right) with
  | some a, some b => order a b
  | _, _ => false

def isApprovalProposal (proposal : Fields) : StateCheck Unit := do
  ensure (hasExactKeys proposal ["proposal_id", "group_id", "turn_id", "tool_call_id", "tool_name",
    "reviewed_arguments", "status", "proposal_version", "expires_at", "created_at", "updated_at",
    "created_attribution", "latest_attribution", "decision_at", "decision_attribution", "decision_reason",
    "failure_reason"])
  ensure (isIdentifier (Json.get proposal "proposal_id"))
  nullOr (fun id => ensure (isIdentifier id)) (Json.get proposal "group_id")
  ensure (isIdentifier (Json.get proposal "turn_id"))
  ensure (isIdentifier (Json.get proposal "tool_call_id"))
  ensure (isIdentifier (Json.get proposal "tool_name"))
  ensure (isConversationApprovalReviewedArguments (Json.get proposal "reviewed_arguments"))
  ensure (isOneOf (Enumeration.values (α := ApprovalProposalStatus)) (Json.get proposal "status"))
  ensure (isSafeIntegerFrom 1 (Json.get proposal "proposal_version"))
  ensure (isConversationTimestamp (Json.get proposal "expires_at"))
  ensure (isConversationTimestamp (Json.get proposal "created_at"))
  ensure (isConversationTimestamp (Json.get proposal "updated_at"))
  ensure (!comparesTimes (· ≤ ·) proposal "expires_at" "created_at")
  ensure (!comparesTimes (· < ·) proposal "updated_at" "created_at")
  isAttribution (Json.get proposal "created_attribution")
  ensure (isLiteral (actorTypeOf (Json.get proposal "created_attribution")) "system")
  isAttribution (Json.get proposal "latest_attribution")
  nullOr (fun time => ensure (isConversationTimestamp time)) (Json.get proposal "decision_at")
  isNullableAttribution (Json.get proposal "decision_attribution")
  nullOr (fun reason => ensure (isConversationApprovalReason reason)) (Json.get proposal "decision_reason")
  nullOr (fun reason => ensure (isConversationApprovalReason reason)) (Json.get proposal "failure_reason")
  isProposalStatus proposal

def isRequestedIn (toolCalls : List Fields) (proposal : Fields) : Bool :=
  toolCalls.any fun toolCall =>
    textOf toolCall "tool_call_id" == textOf proposal "tool_call_id" &&
      textOf toolCall "turn_id" == textOf proposal "turn_id" &&
      textOf toolCall "name" == textOf proposal "tool_name" && !isNull toolCall "approval_required_at"

section
variable [WebPlatform]

/-- The citation records of a result pass their normalization unchanged and belong to the tool call. -/
def areResultRecords (toolCallId : Option JsString) (value : Option Json) : Bool :=
  match normalizeCitationRecords value with
  | .error _ => false
  | .ok records =>
    !records.citations.isEmpty && value.any (jsonValuesEqual (CitationRecordSet.codec.encode records)) &&
      records.citations.all fun citation =>
        match citation.target with
        | .toolResult id => some id == toolCallId
        | .assistantMessage _ => false

def isToolResult (toolCallId : Option JsString) : Option Json → StateCheck Unit
  | some (.obj result) => do
    let cited := Json.hasOwn result "citation_records"
    ensure (hasExactKeys result
      (if cited then ["content", "is_error", "citation_records", "recorded_at", "attribution"]
      else ["content", "is_error", "recorded_at", "attribution"]))
    ensure (everyPart (fun part => isTextPart part || isJsonPart part) (Json.get result "content"))
    ensure (isBoolean (Json.get result "is_error"))
    ensure (isString (Json.get result "recorded_at"))
    isAttribution (Json.get result "attribution")
    ensure (!cited || areResultRecords toolCallId (Json.get result "citation_records"))
  | _ => .error .refused

def isToolCall (toolCall : Fields) : StateCheck Unit := do
  ensure (isIdentifier (Json.get toolCall "tool_call_id"))
  ensure (isIdentifier (Json.get toolCall "turn_id"))
  nullOr (fun name => ensure (isString name)) (Json.get toolCall "name")
  nullOr (fun arguments => ensure (isJsonObject arguments)) (Json.get toolCall "arguments")
  nullOr (fun time => ensure (isString time)) (Json.get toolCall "requested_at")
  nullOr (fun time => ensure (isString time)) (Json.get toolCall "discovered_at")
  nullOr (fun time => ensure (isString time)) (Json.get toolCall "started_at")
  nullOr (fun time => ensure (isString time)) (Json.get toolCall "approval_required_at")
  isNullableAttribution (Json.get toolCall "attribution")
  nullOr (isToolResult (textOf toolCall "tool_call_id")) (Json.get toolCall "result")

def isCited (messages toolCalls : List Fields) : CitationAttachmentTarget → Bool
  | .assistantMessage messageId =>
    (messages.find? fun message => textOf message "message_id" == some messageId).any fun message =>
      isNull message "role" || isLiteral (Json.get message "role") "assistant"
  | .toolResult toolCallId => toolCalls.any fun toolCall => textOf toolCall "tool_call_id" == some toolCallId

def hasValidCitationProjection (sources citations : Json) (messages toolCalls : List Fields) : Bool :=
  match normalizeCitationRecords (some (Json.object [("sources", sources), ("citations", citations)])) with
  | .error _ => false
  | .ok normalized =>
    jsonValuesEqual (.arr (normalized.sources.map CitationSource.codec.encode)) sources &&
      jsonValuesEqual (.arr (normalized.citations.map Citation.codec.encode)) citations &&
      normalized.citations.all fun citation => isCited messages toolCalls citation.target

def stateKeys : List String := ["conversation_id", "revision", "last_event_id", "processed_event_ids",
  "processed_mutation_ids", "messages", "attachments", "citation_sources", "citations", "turns",
  "active_turn_id", "tool_calls", "approval_proposals", "tool_loop_budget_exhaustions",
  "usage_receipt_links", "metadata", "title", "replay_error"]

/-- `value === expected` for a string or `null`. -/
def equalsText (value : Option Json) : Option JsString → Bool
  | none => match value with
    | some .null => true
    | _ => false
  | some expected => match value with
    | some (.str text) => text == expected
    | _ => false

/-- `value === revision` for a number or `null`. -/
def equalsRevision (value : Option Json) : Option Nat → Bool
  | none => match value with
    | some .null => true
    | _ => false
  | some revision => isNumber value revision

def isActiveIn (turns : List Fields) : Option Json → Bool
  | some (.str active) => turns.any fun turn =>
      textOf turn "turn_id" == some active &&
        ((Json.get turn "status").bind stringOf).any fun status =>
          (valueOf [TurnStateStatus.queued, .running, .waitingForToolResult] status).isSome
  | _ => true

/-- `isConversationState`; an error is `false`, or a `TypeError` that the caller sees. -/
def isConversationState (value : Json) (conversationId : Option JsString) (revision : Option Nat) :
    StateCheck Unit :=
  match value with
  | .obj state => do
    ensure (hasExactKeys state stateKeys)
    ensure (equalsText (Json.get state "conversation_id") conversationId)
    ensure (equalsRevision (Json.get state "revision") revision)
    ensure (match revision with
      | none => isNull state "last_event_id"
      | some _ => isIdentifier (Json.get state "last_event_id"))
    ensure (isNull state "replay_error")
    ensure (isNull state "title" || isString (Json.get state "title"))
    ensure (isJsonObject (Json.get state "metadata"))
    let eventIds ← identifierTexts (Json.get state "processed_event_ids")
    let mutationIds ← identifierTexts (Json.get state "processed_mutation_ids")
    ensure (eventIds.length == revision.getD 0)
    ensure (decide eventIds.Nodup)
    ensure (decide mutationIds.Nodup)
    ensure (revision.isNone || eventIds.getLast? == textOf state "last_event_id")
    let messages ← recordArray isMessage (Json.get state "messages")
    let attachments ← recordArray isAttachmentRecord (Json.get state "attachments")
    ensure (hasConsistentAttachmentProjection messages attachments)
    let turns ← recordArray isTurn (Json.get state "turns")
    let toolCalls ← recordArray isToolCall (Json.get state "tool_calls")
    ensure (hasValidCitationProjection ((Json.get state "citation_sources").getD .null)
      ((Json.get state "citations").getD .null) messages toolCalls)
    let proposals ← recordArray isApprovalProposal (Json.get state "approval_proposals")
    ensure (decide (proposals.map fun proposal => textOf proposal "proposal_id").Nodup)
    ensure (proposals.all (isRequestedIn toolCalls))
    let _ ← recordArray isToolLoopBudgetExhaustion (Json.get state "tool_loop_budget_exhaustions")
    let _ ← recordArray isUsageLink (Json.get state "usage_receipt_links")
    ensure (isNull state "active_turn_id" || isIdentifier (Json.get state "active_turn_id"))
    ensure (isActiveIn turns (Json.get state "active_turn_id"))
  | _ => .error .refused

end

end Handrail.Conversation

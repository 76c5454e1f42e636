import Handrail.Presence.Records
import Handrail.Js.OrderedMap
import Mathlib.Data.Rat.Defs
import Mathlib.Algebra.Order.Ring.Rat
import Mathlib.Data.Prod.Lex

/-!
# `presence/types.ts`: collections of records

Merging, pruning and selecting. Every function checks the records it is given, whoever made them.
-/

namespace Handrail.Presence
open Js

/-- `string ?? null` -/
def orNull : Option Json → Json
  | some value => value
  | none => .null

/-! ### Keys -/

/-- The text of a `PresenceRecordKey`. -/
def recordKey (participantId sessionId : PresenceIdentifier) (deviceId : Option PresenceIdentifier) : JsString :=
  stringify (.arr [.str participantId.text, orNull (deviceId.map (.str ·.text)), .str sessionId.text])

def createPresenceRecordKey (participantId sessionId : Json) (deviceId : Option Json) : Checked JsString := do
  let normalizedParticipantId ← under (js "participant_id") (normalizeIdentifier participantId)
  let normalizedSessionId ← under (js "session_id") (normalizeIdentifier sessionId)
  let normalizedDeviceId ← deviceId.mapM fun value => under (js "device_id") (normalizeIdentifier value)
  .ok (recordKey normalizedParticipantId normalizedSessionId normalizedDeviceId)

/-- `getPresenceRecordKey`. The identifiers of a record pass their checks, see `createPresenceRecordKey_record`. -/
def getPresenceRecordKey (r : PresenceRecord) : JsString := recordKey r.participantId r.sessionId r.deviceId

theorem createPresenceRecordKey_record (r : PresenceRecord) :
    createPresenceRecordKey (.str r.participantId.text) (.str r.sessionId.text) (r.deviceId.map (.str ·.text)) =
      .ok (getPresenceRecordKey r) := by
  unfold createPresenceRecordKey getPresenceRecordKey
  cases r.deviceId <;> simp [normalizeIdentifier_text, bind, Except.bind, pure, Except.pure]

/-! ### The order of records -/

def lexicalCompare (left right : JsString) : Int := if left < right then -1 else if right < left then 1 else 0

/-- What `recordFingerprint` names first: the session, and what it does. -/
def fingerprintHead (r : PresenceRecord) : List Json :=
  [.str r.participantId.text, orNull (r.deviceId.map (.str ·.text)), .str r.sessionId.text, literal r.participantKind,
    literal r.state, orNull (r.assistantActivity.map literal)]

def recordFingerprint (r : PresenceRecord) : JsString :=
  stringify <| .arr <| fingerprintHead r ++
    [.bool r.typing, .str r.updatedAt.text, .str r.expiresAt.text, orNull (r.typingExpiresAt.map (.str ·.text))]

def compareRecords (left right : PresenceRecord) : Int :=
  let timestampDifference := left.updatedAt.milliseconds - right.updatedAt.milliseconds
  if timestampDifference ≠ 0 then timestampDifference
  -- An equal-timestamp offline tombstone must not lose to a live observation.
  else if left.state = .offline ∧ right.state ≠ .offline then 1
  else if right.state = .offline ∧ left.state ≠ .offline then -1
  else lexicalCompare (recordFingerprint left) (recordFingerprint right)

/-! ### Merging -/

/-- One round of the loop of `mergePresenceRecords`. -/
def mergeRecord (merged : OrderedMap JsString PresenceRecord) (candidate : PresenceRecord) :
    OrderedMap JsString PresenceRecord :=
  let key := getPresenceRecordKey candidate
  match merged.get key with
  | none => merged.set key candidate
  | some existing => if 0 < compareRecords candidate existing then merged.set key candidate else merged

def mergePresenceRecords (current updates : List Json) : Checked (List PresenceRecord) := do
  let merged ← (current ++ updates).foldlM (fun merged input => do
    let candidate ← normalizePresenceRecord input
    .ok (mergeRecord merged candidate)) OrderedMap.empty
  .ok ((merged.entries.insertionSort fun left right => left.1 ≤ right.1).map Prod.snd)

/-! ### Time -/

/-- `readNow`: what the clock of the options returns, `none` when it is no finite number. -/
def readNow : Option ℚ → Checked ℚ
  | some now => .ok now
  | none => under (js "clock") (fail (js "must return finite Unix epoch milliseconds"))

def resolveTypingAt (r : PresenceRecord) (now : ℚ) : PresenceRecord :=
  if r.typing = false ∨ r.typingExpiresAt.any (fun t => now < t.milliseconds) then r
  else { r with typing := false, typingExpiresAt := none, typed := rfl, typingLives := fun t named => absurd named (Option.not_mem_none t),
                silent := fun offline => ⟨rfl, (r.silent offline).2⟩ }

def sortByRecordKey (records : List PresenceRecord) : List PresenceRecord :=
  records.insertionSort fun left right => getPresenceRecordKey left ≤ getPresenceRecordKey right

def normalizeMany (records : List Json) : Checked (List PresenceRecord) := records.mapM normalizePresenceRecord

def pruneExpiredPresenceRecords (records : List Json) (clock : Option ℚ) : Checked (List PresenceRecord) := do
  let now ← readNow clock
  let normalized ← normalizeMany records
  .ok (sortByRecordKey ((normalized.filter fun r => now < r.expiresAt.milliseconds).map (resolveTypingAt · now)))

def selectActiveAt (records : List Json) (now : ℚ) : Checked (List PresenceRecord) := do
  let normalized ← normalizeMany records
  .ok (sortByRecordKey
    ((normalized.filter fun r => r.state ≠ .offline && now < r.expiresAt.milliseconds).map (resolveTypingAt · now)))

def selectActivePresenceRecords (records : List Json) (clock : Option ℚ) : Checked (List PresenceRecord) := do
  let now ← readNow clock
  selectActiveAt records now

/-! ### Summaries -/

structure PresenceParticipantSummary where
  participantId : PresenceIdentifier
  participantKind : PresenceParticipantKind
  state : PresenceState
  assistantActivity : Option AssistantActivity
  typing : Bool
  updatedAt : PresenceTimestamp
  recordCount : Nat
  records : List PresenceRecord

/-- `STATE_PRIORITY`; a selected record is not offline. -/
def statePriority : PresenceState → Nat
  | .idle => 1
  | .online => 2
  | .active => 3
  | .offline => 0

/-- The later of two records, as `reduce` keeps it. -/
def fresher (selected record : PresenceRecord) : PresenceRecord :=
  if 0 < compareRecords record selected then record else selected

def groupRecords (records : List PresenceRecord) : OrderedMap JsString (PresenceRecord × List PresenceRecord) :=
  records.foldl (fun grouped record =>
    grouped.set record.participantId.text <|
      match grouped.get record.participantId.text with
      | some (first, rest) => (first, rest ++ [record])
      | none => (record, [])) OrderedMap.empty

def summarizeParticipant (first : PresenceRecord) (rest : List PresenceRecord) : PresenceParticipantSummary :=
  let records := first :: rest
  let freshest := rest.foldl fresher first
  let state := records.foldl (fun selected record =>
    if statePriority selected < statePriority record.state then record.state else selected) .idle
  let activityRecord := (records.filter fun record => record.assistantActivity.isSome).foldl (fun selected record =>
    match selected with
    | none => some record
    | some selected => some (fresher selected record)) none
  { participantId := first.participantId
    participantKind := freshest.participantKind
    state
    assistantActivity := activityRecord.bind (·.assistantActivity)
    typing := records.any (·.typing)
    updatedAt := freshest.updatedAt
    recordCount := records.length
    records }

def summarizePresence (records : List Json) (clock : Option ℚ) : Checked (List PresenceParticipantSummary) := do
  let now ← readNow clock
  let active ← selectActiveAt records now
  .ok (((groupRecords active).entries.insertionSort fun left right => left.1 ≤ right.1).map fun group =>
    summarizeParticipant group.2.1 group.2.2)

end Handrail.Presence

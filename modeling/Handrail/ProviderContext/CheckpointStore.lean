import Handrail.Js.OrderedMap
import Handrail.ProviderContext.Checkpoint

/-!
# The checkpoint store in memory

`InMemoryProviderContextCheckpointStore` of `provider-context-checkpoint-store.ts`. What it does after its
input was read runs one call after the other, so each call is one step.
-/

namespace Handrail.ProviderContext
open Js Conversation

/-- Limits that `resolveLimits` lets through. -/
structure CheckpointStoreLimits where
  maxCheckpointSerializedBytes : Nat
  maxCheckpoints : Nat
  maxIdempotencyRecords : Nat
  bytes : 1 ≤ maxCheckpointSerializedBytes ∧ maxCheckpointSerializedBytes ≤ contextLimits.checkpointSerializedBytes
  checkpoints : 1 ≤ maxCheckpoints ∧ maxCheckpoints ≤ 1000000
  idempotencyRecords : 1 ≤ maxIdempotencyRecords ∧ maxIdempotencyRecords ≤ 1000000

inductive CheckpointStoreOperation where
  | load
  | save
  | invalidate
deriving DecidableEq, Repr

inductive CheckpointStoreErrorCode where
  | invalidInput
  | checkpointTooLarge
  | versionConflict
  | idempotencyConflict
  | cancelled
  | unavailable
deriving DecidableEq, Repr

/-- `ProviderContextCheckpointStoreError` -/
structure CheckpointStoreError where
  code : CheckpointStoreErrorCode
  operation : CheckpointStoreOperation
deriving DecidableEq, Repr

abbrev CheckpointResult := Except CheckpointStoreError

/-! ### Inputs -/

/-- The `signal` of an input: no `AbortSignal`, or one that is aborted before the call runs or is not. -/
inductive SignalInput where
  | invalid
  | signal (aborted : Bool)
deriving DecidableEq, Repr

/-- An input, with its `signal` apart. -/
structure StoreInput where
  source : Json
  signal : SignalInput

/-- A conversation id that `parseConversationId` lets through. -/
structure StoreConversationId where
  text : JsString
  nonempty : text.length ≠ 0
  bounded : text.length ≤ contextLimits.identifierLength
  matched : identifierPattern.test text = true

theorem StoreConversationId.text_inj (a b : StoreConversationId) : a.text = b.text ↔ a = b := by
  cases a
  cases b
  simp

instance : DecidableEq StoreConversationId := fun a b => decidable_of_iff (a.text = b.text) (a.text_inj b)

structure CheckpointScope where
  conversationId : StoreConversationId
  fingerprint : ProviderContextFingerprint
deriving DecidableEq

def scopeKey (scope : CheckpointScope) : JsString := scope.conversationId.text ++ ⟨[0]⟩ ++ scope.fingerprint.text

structure LoadSnapshot where
  scope : CheckpointScope
  aborted : Bool

structure InvalidateSnapshot extends LoadSnapshot where
  expectedVersion : Option PositiveSafeInteger
  idempotencyKey : IdempotencyKey
  signature : JsString

structure SaveSnapshot extends InvalidateSnapshot where
  checkpoint : ProviderContextCheckpoint
  checkpointBytes : Nat

section
variable (operation : CheckpointStoreOperation)

/-- Every failed check is reported as `invalid_input`. -/
def validInput {α : Type} (check : Checked α) : CheckpointResult α :=
  check.mapError fun _ => ⟨.invalidInput, operation⟩

/-- The fields of an input; the first fields after `signal` are the same in every input. -/
def inputRecord (input : StoreInput) (fields : List String) : CheckpointResult Fields := do
  let source ← validInput operation (record "" (some input.source))
  validInput operation (allowedKeys source ("conversation_id" :: "context_fingerprint" :: fields))
  validInput operation (requiredKeys source ("conversation_id" :: "context_fingerprint" :: fields))
  return source

def parseConversationId : Option Json → CheckpointResult StoreConversationId
  | some (.str text) =>
    if valid : text.length ≠ 0 ∧ text.length ≤ contextLimits.identifierLength ∧ identifierPattern.test text = true then
      .ok ⟨text, valid.1, valid.2.1, valid.2.2⟩
    else .error ⟨.invalidInput, operation⟩
  | _ => .error ⟨.invalidInput, operation⟩

def parseSignal : SignalInput → CheckpointResult Bool
  | .invalid => .error ⟨.invalidInput, operation⟩
  | .signal aborted => .ok aborted

def parseExpectedVersion : Option Json → CheckpointResult (Option PositiveSafeInteger)
  | some .null => .ok none
  | value => (validInput operation (positiveSafeInteger value)).map some

def snapshotLoadFields (source : Fields) (signal : SignalInput) : CheckpointResult LoadSnapshot := do
  let conversationId ← parseConversationId operation (Json.get source "conversation_id")
  let fingerprint ← validInput operation (parseFingerprint (Json.get source "context_fingerprint"))
  let aborted ← parseSignal operation signal
  return { scope := { conversationId, fingerprint }, aborted }

end

def snapshotLoad (input : StoreInput) : CheckpointResult LoadSnapshot := do
  let source ← inputRecord .load input []
  snapshotLoadFields .load source input.signal

def signatureFields (operation : String) (scope : CheckpointScope) (expectedVersion : Option PositiveSafeInteger) :
    List (String × Json) := [
  ("operation", .str (js operation)),
  ("conversation_id", .str scope.conversationId.text),
  ("context_fingerprint", .str scope.fingerprint.text),
  ("expected_version", expectedVersion.elim .null fun n => .num (.ofNat n.value))]

def snapshotSave (input : StoreInput) : CheckpointResult SaveSnapshot := do
  let source ← inputRecord .save input ["checkpoint", "expected_version", "idempotency_key"]
  let base ← snapshotLoadFields .save source input.signal
  let checkpoint ← validInput .save (parseProviderContextCheckpoint (Json.get source "checkpoint"))
  if checkpoint.historyPosition.conversationId.text ≠ base.scope.conversationId.text ∨
      checkpoint.contextFingerprint ≠ base.scope.fingerprint then
    .error ⟨.invalidInput, .save⟩
  else
    let expectedVersion ← parseExpectedVersion .save (Json.get source "expected_version")
    let idempotencyKey ← validInput .save (parseProviderContextIdempotencyKey (Json.get source "idempotency_key"))
    let signature := stringify <| Json.object <|
      signatureFields "save" base.scope expectedVersion ++ [("checkpoint", .str (stringify checkpoint.toJson))]
    return { base with checkpoint, checkpointBytes := checkpoint.serializedBytes, expectedVersion, idempotencyKey, signature }

def snapshotInvalidate (input : StoreInput) : CheckpointResult InvalidateSnapshot := do
  let source ← inputRecord .invalidate input ["expected_version", "idempotency_key"]
  let base ← snapshotLoadFields .invalidate source input.signal
  let expectedVersion ← parseExpectedVersion .invalidate (Json.get source "expected_version")
  let idempotencyKey ← validInput .invalidate (parseProviderContextIdempotencyKey (Json.get source "idempotency_key"))
  let signature := stringify (Json.object (signatureFields "invalidate" base.scope expectedVersion))
  return { base with expectedVersion, idempotencyKey, signature }

/-! ### The store -/

structure CheckpointSlot where
  version : Nat
  checkpoint : Option ProviderContextCheckpoint
deriving DecidableEq

/-- `ProviderContextCheckpointRecord` -/
structure CheckpointRecord where
  scope : CheckpointScope
  checkpoint : ProviderContextCheckpoint
  storeVersion : Nat
deriving DecidableEq

/-- `ProviderContextCheckpointInvalidationResult` -/
structure InvalidationResult where
  scope : CheckpointScope
  invalidated : Bool
  storeVersion : Option Nat
deriving DecidableEq

inductive IdempotencyRecord where
  | save (signature : JsString) (result : CheckpointRecord)
  | invalidate (signature : JsString) (result : InvalidationResult)

/-- The copy that `parseProviderContextCheckpoint` makes. -/
def cloneCheckpoint (checkpoint : ProviderContextCheckpoint) : ProviderContextCheckpoint :=
  match parseProviderContextCheckpoint (some checkpoint.toJson) with
  | .ok clone => clone
  | .error _ => checkpoint

@[simp] theorem cloneCheckpoint_eq (checkpoint : ProviderContextCheckpoint) : cloneCheckpoint checkpoint = checkpoint := by
  unfold cloneCheckpoint
  rw [parseProviderContextCheckpoint_toJson]

def cloneCheckpointRecord (record : CheckpointRecord) : CheckpointRecord :=
  { record with checkpoint := cloneCheckpoint record.checkpoint }

@[simp] theorem cloneCheckpointRecord_eq (record : CheckpointRecord) : cloneCheckpointRecord record = record := by
  simp [cloneCheckpointRecord]

/-- `assertExpectedVersion` -/
def matchesExpectedVersion (current : Option CheckpointSlot) : Option PositiveSafeInteger → Bool
  | none => current.all fun slot => slot.checkpoint.isNone
  | some expected => current.any fun slot => slot.version == expected.value

/-- `InMemoryProviderContextCheckpointStore` -/
structure CheckpointStore where
  limits : CheckpointStoreLimits
  slots : OrderedMap JsString CheckpointSlot
  idempotency : OrderedMap IdempotencyKey IdempotencyRecord

namespace CheckpointStore

def new (limits : CheckpointStoreLimits) : CheckpointStore := ⟨limits, .empty, .empty⟩

def touchSlot (s : CheckpointStore) (key : JsString) (slot : CheckpointSlot) : CheckpointStore :=
  { s with slots := (s.slots.delete key).set key slot }

def evictOldestSlot (s : CheckpointStore) : CheckpointStore :=
  match s.slots.oldest with
  | some oldest => { s with slots := s.slots.delete oldest }
  | none => s

def rememberIdempotency (s : CheckpointStore) (key : IdempotencyKey) (record : IdempotencyRecord) : CheckpointStore :=
  let kept :=
    match s.idempotency.oldest with
    | some oldest => if s.limits.maxIdempotencyRecords ≤ s.idempotency.size then s.idempotency.delete oldest else s.idempotency
    | none => s.idempotency
  { s with idempotency := kept.set key record }

/-- `#save` -/
def saveSnapshot (s : CheckpointStore) (snapshot : SaveSnapshot) : CheckpointStore × CheckpointResult CheckpointRecord :=
  match s.idempotency.get snapshot.idempotencyKey with
  | some (.save signature result) =>
    if signature = snapshot.signature then (s, .ok (cloneCheckpointRecord result))
    else (s, .error ⟨.idempotencyConflict, .save⟩)
  | some (.invalidate _ _) => (s, .error ⟨.idempotencyConflict, .save⟩)
  | none =>
    let key := scopeKey snapshot.scope
    let current := s.slots.get key
    if matchesExpectedVersion current snapshot.expectedVersion then
      let nextVersion := current.elim 0 CheckpointSlot.version + 1
      let retained := cloneCheckpoint snapshot.checkpoint
      let result : CheckpointRecord := ⟨snapshot.scope, retained, nextVersion⟩
      let evicted := if current.isNone ∧ s.limits.maxCheckpoints ≤ s.slots.size then s.evictOldestSlot else s
      ((evicted.touchSlot key ⟨nextVersion, some retained⟩).rememberIdempotency snapshot.idempotencyKey
        (.save snapshot.signature result), .ok (cloneCheckpointRecord result))
    else (s, .error ⟨.versionConflict, .save⟩)

/-- `#invalidate` -/
def invalidateSnapshot (s : CheckpointStore) (snapshot : InvalidateSnapshot) :
    CheckpointStore × CheckpointResult InvalidationResult :=
  match s.idempotency.get snapshot.idempotencyKey with
  | some (.invalidate signature result) =>
    if signature = snapshot.signature then (s, .ok result)
    else (s, .error ⟨.idempotencyConflict, .invalidate⟩)
  | some (.save _ _) => (s, .error ⟨.idempotencyConflict, .invalidate⟩)
  | none =>
    let key := scopeKey snapshot.scope
    let current := s.slots.get key
    if matchesExpectedVersion current snapshot.expectedVersion then
      match current with
      | some ⟨version, some _⟩ =>
        let result : InvalidationResult := ⟨snapshot.scope, true, some (version + 1)⟩
        ((s.touchSlot key ⟨version + 1, none⟩).rememberIdempotency snapshot.idempotencyKey
          (.invalidate snapshot.signature result), .ok result)
      | _ =>
        let result : InvalidationResult := ⟨snapshot.scope, false, current.map CheckpointSlot.version⟩
        (s.rememberIdempotency snapshot.idempotencyKey (.invalidate snapshot.signature result), .ok result)
    else (s, .error ⟨.versionConflict, .invalidate⟩)

end CheckpointStore

/-! ### Calls -/

inductive CheckpointCall where
  | load (input : StoreInput)
  | save (input : StoreInput)
  | invalidate (input : StoreInput)

inductive CheckpointOutcome where
  | loaded (record : Option CheckpointRecord)
  | saved (record : CheckpointRecord)
  | invalidated (result : InvalidationResult)
  | failed (error : CheckpointStoreError)
deriving DecidableEq

namespace CheckpointStore

def load (s : CheckpointStore) (input : StoreInput) : CheckpointOutcome :=
  match snapshotLoad input with
  | .error e => .failed e
  | .ok snapshot =>
    if snapshot.aborted then .failed ⟨.cancelled, .load⟩
    else
      .loaded <| (s.slots.get (scopeKey snapshot.scope)).bind fun slot =>
        slot.checkpoint.map fun checkpoint => cloneCheckpointRecord ⟨snapshot.scope, checkpoint, slot.version⟩

def save (s : CheckpointStore) (input : StoreInput) : CheckpointStore × CheckpointOutcome :=
  match snapshotSave input with
  | .error e => (s, .failed e)
  | .ok snapshot =>
    if s.limits.maxCheckpointSerializedBytes < snapshot.checkpointBytes then (s, .failed ⟨.checkpointTooLarge, .save⟩)
    else if snapshot.aborted then (s, .failed ⟨.cancelled, .save⟩)
    else
      match s.saveSnapshot snapshot with
      | (s, .ok record) => (s, .saved record)
      | (s, .error e) => (s, .failed e)

def invalidate (s : CheckpointStore) (input : StoreInput) : CheckpointStore × CheckpointOutcome :=
  match snapshotInvalidate input with
  | .error e => (s, .failed e)
  | .ok snapshot =>
    if snapshot.aborted then (s, .failed ⟨.cancelled, .invalidate⟩)
    else
      match s.invalidateSnapshot snapshot with
      | (s, .ok result) => (s, .invalidated result)
      | (s, .error e) => (s, .failed e)

def step (s : CheckpointStore) : CheckpointCall → CheckpointStore × CheckpointOutcome
  | .load input => (s, s.load input)
  | .save input => s.save input
  | .invalidate input => s.invalidate input

def run (s : CheckpointStore) : List CheckpointCall → CheckpointStore
  | [] => s
  | call :: rest => run (s.step call).1 rest

def outcomes (s : CheckpointStore) : List CheckpointCall → List CheckpointOutcome
  | [] => []
  | call :: rest => (s.step call).2 :: outcomes (s.step call).1 rest

end CheckpointStore

end Handrail.ProviderContext

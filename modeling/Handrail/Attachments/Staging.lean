import Handrail.Validation

/-!
# Attachment staging

`createAttachmentStagingService`: `stage`, `resolve`, `consume` and `cleanupExpired` over a store of blobs and a store of
metadata. A call awaits one operation of a store at a time. The store carries it out at some moment, and the call goes on
at a later one; in between, any other call may move. Times are milliseconds, and a timestamp is the time that it denotes.
-/

namespace Handrail.Attachments
open Js

abbrev Bytes := List UInt8

structure StagedAttachmentRecord where
  attachmentId : JsString
  contentRef : JsString
  blobKey : JsString
  ownerScopeId : JsString
  conversationId : JsString
  idempotencyKey : JsString
  fingerprint : JsString
  mediaType : JsString
  byteSize : Nat
  filename : Option JsString
  createdAt : Int
  expiresAt : Int
  consumedAt : Option Int
deriving DecidableEq

structure AttachmentReference where
  attachmentId : JsString
  contentRef : JsString
  mediaType : JsString
  byteSize : Nat
  filename : Option JsString
deriving DecidableEq

/-- The codes of `AttachmentStagingError`. -/
inductive StagingCode where
  | invalidInput
  | forbidden
  | conflict
  | notFound
  | expired
  | unavailable
deriving DecidableEq

/-- What a call throws: an `AttachmentStagingError`, the error of a store, or the `RangeError` of a date. -/
inductive StagingThrown where
  | error (code : StagingCode)
  | store
  | range
deriving DecidableEq

/-- The limits that `createAttachmentStagingService` lets through. -/
structure StagingLimits where
  maximumBytes : Nat
  acceptedMediaTypes : List JsString
  ttlMilliseconds : Nat
  cleanupBatchSize : Option Nat
  bytesInRange : 1 ≤ maximumBytes ∧ maximumBytes ≤ JsNumber.maxSafeInteger
  ttlInRange : 1000 ≤ ttlMilliseconds ∧ ttlMilliseconds ≤ JsNumber.maxSafeInteger

def acceptable (mediaType : JsString) (accepted : List JsString) : Bool :=
  accepted.any fun value =>
    if (js "/*").units.isSuffixOf value.units then value.units.dropLast.isPrefixOf mediaType.units
    else value == mediaType

/-- The pattern of `safeId`. -/
def safeIdPattern : Pattern :=
  .all [.start, .unit Pattern.isAlphanumeric, .repeats (alphanumericOr "._:@/-") 0 (some 255), .finish]

def safeId (value : JsString) : Bool := safeIdPattern.test value

def reference (record : StagedAttachmentRecord) : AttachmentReference where
  attachmentId := record.attachmentId
  contentRef := record.contentRef
  mediaType := record.mediaType
  byteSize := record.byteSize
  filename := record.filename.filter (·.length ≠ 0)

/-- `new Date(time).toISOString()`, which throws outside the range of dates. -/
def toISOString (time : Int) : Option Int :=
  if time.natAbs ≤ 8640000000000000 then some time else none

/-! ### The stores -/

structure Stores where
  records : List StagedAttachmentRecord
  blobs : JsString → Option Bytes

namespace Stores

def getByIdempotency (s : Stores) (ownerScopeId conversationId idempotencyKey : JsString) : Option StagedAttachmentRecord :=
  s.records.find? fun record => record.ownerScopeId == ownerScopeId && record.conversationId == conversationId &&
    record.idempotencyKey == idempotencyKey

def getByContentRef (s : Stores) (contentRef : JsString) : Option StagedAttachmentRecord :=
  s.records.find? fun record => record.contentRef == contentRef

inductive Effect where
  | none
  | put (key : JsString) (bytes : Bytes)
  | deleteBlob (key : JsString)
  | create (record : StagedAttachmentRecord)
  | markConsumed (contentRef : JsString) (consumedAt : Int)
  | delete (contentRef : JsString)

def hasIdentity (s : Stores) (record : StagedAttachmentRecord) : Bool :=
  (s.getByIdempotency record.ownerScopeId record.conversationId record.idempotencyKey).isSome

def apply (s : Stores) : Effect → Stores
  | .none => s
  | .put key bytes => { s with blobs := fun other => if other = key then some bytes else s.blobs other }
  | .deleteBlob key => { s with blobs := fun other => if other = key then none else s.blobs other }
  -- The store refuses a second record atomically.
  | .create record => if s.hasIdentity record then s else { s with records := s.records ++ [record] }
  | .markConsumed contentRef consumedAt =>
    { s with records := s.records.map fun record =>
        if record.contentRef = contentRef then { record with consumedAt := some consumedAt } else record }
  | .delete contentRef => { s with records := s.records.filter (·.contentRef ≠ contentRef) }

end Stores

inductive Fault where
  | refused
  | lost
deriving DecidableEq

abbrev Reply (α : Type) := Option (Except Unit α)

def reply {α : Type} (fault : Option Fault) (answer : α) : Reply α :=
  some (if fault.isSome then .error () else .ok answer)

inductive CreateResult where
  | created
  | conflict
deriving DecidableEq

/-! ### `stage` -/

structure StageInput where
  ownerScopeId : JsString
  conversationId : JsString
  idempotencyKey : JsString
  fingerprint : JsString
  mediaType : JsString
  filename : Option JsString
  bytes : Bytes

/-- Where a call of `stage` is, with the record that it has made up. -/
inductive StagePhase where
  | looking (reply : Reply (Option StagedAttachmentRecord))
  | putting (record : StagedAttachmentRecord) (reply : Reply Unit)
  | creating (record : StagedAttachmentRecord) (reply : Reply CreateResult)
  | discarding (record : StagedAttachmentRecord) (reply : Reply Unit)
  | lookingAgain (record : StagedAttachmentRecord) (reply : Reply (Option StagedAttachmentRecord))
  | settled (record : Option StagedAttachmentRecord) (result : Except StagingThrown AttachmentReference)

section
variable (limits : StagingLimits)

/-- `stage` up to its first `await`. -/
def stage (input : StageInput) : StagePhase :=
  if safeId input.ownerScopeId && safeId input.conversationId && safeId input.idempotencyKey && safeId input.fingerprint &&
      1 ≤ input.bytes.length && input.bytes.length ≤ limits.maximumBytes &&
      acceptable input.mediaType limits.acceptedMediaTypes then
    .looking none
  else .settled none (.error (.error .invalidInput))

/-- `stage` from the reply of an operation to the next `await`, with what `createId` and `now` return. -/
def StagePhase.resume (now : Int) (ids : JsString × JsString) (input : StageInput) : StagePhase → StagePhase
  | .looking (some (.ok (some existing))) =>
    if existing.fingerprint ≠ input.fingerprint then .settled none (.error (.error .conflict))
    else if existing.expiresAt ≤ now then .settled none (.error (.error .expired))
    else .settled none (.ok (reference existing))
  | .looking (some (.ok none)) =>
    let attachmentId := js "att_" ++ ids.1
    let contentRef := js "blob_" ++ ids.2
    let blobKey := js "attachments/" ++ contentRef
    if safeId attachmentId && safeId contentRef && safeId blobKey then
      match toISOString now, toISOString (now + limits.ttlMilliseconds) with
      | some createdAt, some expiresAt =>
        .putting
          { attachmentId, contentRef, blobKey
            ownerScopeId := input.ownerScopeId
            conversationId := input.conversationId
            idempotencyKey := input.idempotencyKey
            fingerprint := input.fingerprint
            mediaType := input.mediaType
            byteSize := input.bytes.length
            filename := input.filename.filter (·.length ≠ 0)
            createdAt, expiresAt
            consumedAt := none } none
      | _, _ => .settled none (.error .range)
    else .settled none (.error (.error .invalidInput))
  | .looking (some (.error _)) => .settled none (.error .store)
  | .putting record (some (.ok _)) => .creating record none
  | .creating record (some (.ok .created)) => .settled (some record) (.ok (reference record))
  | .creating record (some (.ok .conflict)) => .discarding record none
  | .discarding record (some (.ok _)) => .lookingAgain record none
  | .lookingAgain record (some (.ok winner)) =>
    match winner.filter fun winner => winner.fingerprint = input.fingerprint ∧ now < winner.expiresAt with
    | some winner => .settled (some record) (.ok (reference winner))
    | none => .settled (some record) (.error (.error .conflict))
  -- The `catch` of the call.
  | .putting record (some (.error _)) | .creating record (some (.error _)) | .discarding record (some (.error _))
  | .lookingAgain record (some (.error _)) => .settled (some record) (.error (.error .unavailable))
  | phase => phase

end

namespace StagePhase

def effect (input : StageInput) : StagePhase → Stores.Effect
  | .putting record none => .put record.blobKey input.bytes
  | .creating record none => .create record
  | .discarding record none => .deleteBlob record.blobKey
  | _ => .none

def answer (s : Stores) (fault : Option Fault) (input : StageInput) : StagePhase → StagePhase
  | .looking none =>
    .looking (reply fault (s.getByIdempotency input.ownerScopeId input.conversationId input.idempotencyKey))
  | .putting record none => .putting record (reply fault ())
  | .creating record none => .creating record (reply fault (if s.hasIdentity record then .conflict else .created))
  | .discarding record none => .discarding record (reply fault ())
  | .lookingAgain record none =>
    .lookingAgain record (reply fault (s.getByIdempotency input.ownerScopeId input.conversationId input.idempotencyKey))
  | phase => phase

end StagePhase

/-! ### `resolve` and `consume` -/

structure ReferenceInput where
  ownerScopeId : JsString
  conversationId : JsString
  contentRef : JsString

def owns (record : StagedAttachmentRecord) (input : ReferenceInput) : Bool :=
  record.ownerScopeId == input.ownerScopeId && record.conversationId == input.conversationId

inductive ResolvePhase where
  | looking (reply : Reply (Option StagedAttachmentRecord))
  | getting (record : StagedAttachmentRecord) (reply : Reply (Option Bytes))
  | settled (result : Except StagingThrown (StagedAttachmentRecord × Bytes))

/-- `resolve` up to its first `await`. -/
def resolve (input : ReferenceInput) : ResolvePhase :=
  if safeId input.contentRef then .looking none else .settled (.error (.error .invalidInput))

namespace ResolvePhase

def resume (now : Int) (input : ReferenceInput) : ResolvePhase → ResolvePhase
  | .looking (some (.ok none)) => .settled (.error (.error .notFound))
  | .looking (some (.ok (some record))) =>
    if !(safeId input.ownerScopeId && safeId input.conversationId) then .settled (.error (.error .invalidInput))
    else if !owns record input then .settled (.error (.error .forbidden))
    else if record.expiresAt ≤ now then .settled (.error (.error .expired))
    else .getting record none
  | .getting _ (some (.ok none)) => .settled (.error (.error .notFound))
  | .getting record (some (.ok (some bytes))) => .settled (.ok (record, bytes))
  | .looking (some (.error _)) | .getting _ (some (.error _)) => .settled (.error .store)
  | phase => phase

def answer (s : Stores) (fault : Option Fault) (input : ReferenceInput) : ResolvePhase → ResolvePhase
  | .looking none => .looking (reply fault (s.getByContentRef input.contentRef))
  | .getting record none => .getting record (reply fault (s.blobs record.blobKey))
  | phase => phase

end ResolvePhase

inductive ConsumePhase where
  | resolving (phase : ResolvePhase)
  | marking (record : StagedAttachmentRecord) (consumedAt : Int) (reply : Reply Unit)
  | deleting (record : StagedAttachmentRecord) (reply : Reply Unit)
  | settled (result : Except StagingThrown StagedAttachmentRecord)

/-- `consume` up to its first `await`. -/
def consume (input : ReferenceInput) : ConsumePhase := .resolving (resolve input)

namespace ConsumePhase

def resume (now : Int) (input : ReferenceInput) : ConsumePhase → ConsumePhase
  | .resolving (.settled (.ok (record, _))) =>
    match toISOString now with
    | some consumedAt => .marking record consumedAt none
    | none => .settled (.error .range)
  | .resolving (.settled (.error thrown)) => .settled (.error thrown)
  | .resolving phase => .resolving (phase.resume now input)
  | .marking record _ (some (.ok _)) => .deleting record none
  | .deleting record (some (.ok _)) => .settled (.ok record)
  | .marking _ _ (some (.error _)) | .deleting _ (some (.error _)) => .settled (.error .store)
  | phase => phase

def effect (input : ReferenceInput) : ConsumePhase → Stores.Effect
  | .marking _ consumedAt none => .markConsumed input.contentRef consumedAt
  | .deleting record none => .deleteBlob record.blobKey
  | _ => .none

def answer (s : Stores) (fault : Option Fault) (input : ReferenceInput) : ConsumePhase → ConsumePhase
  | .resolving phase => .resolving (phase.answer s fault input)
  | .marking record consumedAt none => .marking record consumedAt (reply fault ())
  | .deleting record none => .deleting record (reply fault ())
  | phase => phase

end ConsumePhase

/-! ### `cleanupExpired` -/

/-- `count` is `records.length`, and `rest` the records that the loop has not come to. -/
inductive CleanupPhase where
  | listing (before : Int) (limit : Nat) (reply : Reply (List StagedAttachmentRecord))
  | deletingBlob (count : Nat) (record : StagedAttachmentRecord) (rest : List StagedAttachmentRecord) (reply : Reply Unit)
  | deleting (count : Nat) (record : StagedAttachmentRecord) (rest : List StagedAttachmentRecord) (reply : Reply Unit)
  | settled (result : Except StagingThrown Nat)

/-- `cleanupExpired` up to its first `await`. -/
def cleanupExpired (limits : StagingLimits) (now : Int) : CleanupPhase :=
  match toISOString now with
  | some before => .listing before (limits.cleanupBatchSize.getD 100) none
  | none => .settled (.error .range)

namespace CleanupPhase

def next (count : Nat) : List StagedAttachmentRecord → CleanupPhase
  | [] => .settled (.ok count)
  | record :: rest => .deletingBlob count record rest none

def resume : CleanupPhase → CleanupPhase
  | .listing _ _ (some (.ok records)) => next records.length records
  | .deletingBlob count record rest (some (.ok _)) => .deleting count record rest none
  | .deleting count _ rest (some (.ok _)) => next count rest
  | .listing _ _ (some (.error _)) | .deletingBlob _ _ _ (some (.error _)) | .deleting _ _ _ (some (.error _)) =>
    .settled (.error .store)
  | phase => phase

def effect : CleanupPhase → Stores.Effect
  | .deletingBlob _ record _ none => .deleteBlob record.blobKey
  | .deleting _ record _ none => .delete record.contentRef
  | _ => .none

/-- `listExpired` lists records of the store's choice that have expired. -/
def answer (s : Stores) (fault : Option Fault) (listed : List StagedAttachmentRecord) : CleanupPhase → CleanupPhase
  | .listing before limit none =>
    .listing before limit
      (reply fault ((listed.filter fun record => record ∈ s.records ∧ record.expiresAt ≤ before).take limit))
  | .deletingBlob count record rest none => .deletingBlob count record rest (reply fault ())
  | .deleting count record rest none => .deleting count record rest (reply fault ())
  | phase => phase

end CleanupPhase

/-! ### Calls of one service -/

inductive Call where
  | stage (input : StageInput) (phase : StagePhase)
  | resolve (input : ReferenceInput) (phase : ResolvePhase)
  | consume (input : ReferenceInput) (phase : ConsumePhase)
  | cleanupExpired (phase : CleanupPhase)

namespace Call

def resume (limits : StagingLimits) (now : Int) (ids : JsString × JsString) : Call → Call
  | .stage input phase => .stage input (phase.resume limits now ids input)
  | .resolve input phase => .resolve input (phase.resume now input)
  | .consume input phase => .consume input (phase.resume now input)
  | .cleanupExpired phase => .cleanupExpired phase.resume

def effect : Call → Stores.Effect
  | .stage input phase => phase.effect input
  | .resolve _ _ => .none
  | .consume input phase => phase.effect input
  | .cleanupExpired phase => phase.effect

def answer (s : Stores) (fault : Option Fault) (listed : List StagedAttachmentRecord) : Call → Call
  | .stage input phase => .stage input (phase.answer s fault input)
  | .resolve input phase => .resolve input (phase.answer s fault input)
  | .consume input phase => .consume input (phase.answer s fault input)
  | .cleanupExpired phase => .cleanupExpired (phase.answer s fault listed)

end Call

/-- The stores, the clock, the calls in the order in which they were made, and what `createId` has returned. -/
structure Staging where
  now : Int
  stores : Stores
  issued : List JsString
  calls : List Call

inductive StagingAction where
  | advance (milliseconds : Nat)
  | stage (input : StageInput)
  | resolve (input : ReferenceInput)
  | consume (input : ReferenceInput)
  | cleanupExpired
  /-- A store carries out what the call awaits. -/
  | perform (call : Nat) (fault : Option Fault) (listed : List StagedAttachmentRecord)
  /-- The call goes on, and `createId` would return `ids`. -/
  | resume (call : Nat) (ids : JsString × JsString)

namespace Staging

def create (now : Int) : Staging := ⟨now, ⟨[], fun _ => none⟩, [], []⟩

variable (limits : StagingLimits)

def step (w : Staging) : StagingAction → Staging
  | .advance milliseconds => { w with now := w.now + milliseconds }
  | .stage input => { w with calls := w.calls ++ [.stage input (Attachments.stage limits input)] }
  | .resolve input => { w with calls := w.calls ++ [.resolve input (Attachments.resolve input)] }
  | .consume input => { w with calls := w.calls ++ [.consume input (Attachments.consume input)] }
  | .cleanupExpired => { w with calls := w.calls ++ [.cleanupExpired (Attachments.cleanupExpired limits w.now)] }
  | .perform i fault listed =>
    match w.calls[i]? with
    | none => w
    | some call =>
      { w with
        stores := if fault = some .refused then w.stores else w.stores.apply call.effect
        calls := w.calls.set i (call.answer w.stores fault listed) }
  | .resume i ids =>
    match w.calls[i]? with
    | none => w
    | some call =>
      -- Ids are fresh.
      if ids.1 ∈ w.issued ∨ ids.2 ∈ w.issued ∨ ids.1 = ids.2 then w
      else
        { w with
          issued := ids.1 :: ids.2 :: w.issued
          calls := w.calls.set i (call.resume limits w.now ids) }

def run (w : Staging) (actions : List StagingAction) : Staging := actions.foldl (step limits) w

theorem run_append (w : Staging) (first later : List StagingAction) :
    w.run limits (first ++ later) = (w.run limits first).run limits later := List.foldl_append ..

end Staging

end Handrail.Attachments

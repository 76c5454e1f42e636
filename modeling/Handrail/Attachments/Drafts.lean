import Handrail.Attachments.Staging
import Handrail.Concurrent.Named
import Handrail.Js.Arrays

/-!
# What the calls know of the stores

Each call of `stage` makes up a record of its own. Until the record is created nobody else touches its content reference
and its blob, and afterwards the record keeps its blob until it is consumed or expires. What the other calls hold are
records that were created.
-/

namespace Handrail.Attachments
open Js

/-! ### Records of the calls -/

def StagedAttachmentRecord.core (record : StagedAttachmentRecord) : StagedAttachmentRecord := { record with consumedAt := none }

/-- Where the record that a call of `stage` has made up stands. -/
inductive Standing where
  /-- It was not created, and its blob is this. -/
  | unplaced (blob : Option Bytes)
  | placed
  /-- Its creation has failed. -/
  | unknown

def StagePhase.standing (input : StageInput) : StagePhase → Option (StagedAttachmentRecord × Standing)
  | .looking _ | .settled none _ => none
  | .putting record (some (.ok _)) => some (record, .unplaced (some input.bytes))
  | .putting record _ => some (record, .unplaced none)
  | .creating record (some (.ok .created)) => some (record, .placed)
  | .creating record (some (.error _)) => some (record, .unknown)
  | .creating record _ => some (record, .unplaced (some input.bytes))
  | .discarding record none => some (record, .unplaced (some input.bytes))
  | .discarding record _ | .lookingAgain record _ | .settled (some record) (.error _) => some (record, .unplaced none)
  | .settled (some record) (.ok found) =>
    some (record, if found = reference record then .placed else .unplaced none)

def Held (now : Int) (s : Stores) (record : StagedAttachmentRecord) (bytes : Bytes) : Prop :=
  record.expiresAt ≤ now ∨
    ∃ stored ∈ s.records, stored.core = record ∧ (stored.consumedAt = none → s.blobs record.blobKey = some bytes)

def StandsAt (now : Int) (s : Stores) (record : StagedAttachmentRecord) (bytes : Bytes) : Standing → Prop
  | .unplaced blob => (∀ stored ∈ s.records, stored.contentRef ≠ record.contentRef) ∧ s.blobs record.blobKey = blob
  | .placed => Held now s record bytes
  | .unknown => False

def contentRefOf (id : JsString) : JsString := js "blob_" ++ id

def blobKeyOf (contentRef : JsString) : JsString := js "attachments/" ++ contentRef

theorem append_injective (start : JsString) {s t : JsString} (same : start ++ s = start ++ t) : s = t :=
  JsString.ext (List.append_cancel_left (congrArg JsString.units same))

abbrev Identity := JsString × JsString × JsString

def StagedAttachmentRecord.identity (record : StagedAttachmentRecord) : Identity :=
  (record.ownerScopeId, record.conversationId, record.idempotencyKey)

def StageInput.identity (input : StageInput) : Identity :=
  (input.ownerScopeId, input.conversationId, input.idempotencyKey)

structure Drafted (issued : List JsString) (input : StageInput) (record : StagedAttachmentRecord) : Prop where
  identity : record.identity = input.identity
  fingerprint : record.fingerprint = input.fingerprint
  fresh : record.consumedAt = none
  contentRef : ∃ id ∈ issued, record.contentRef = contentRefOf id
  blobKey : record.blobKey = blobKeyOf record.contentRef
  safe : safeId record.ownerScopeId = true ∧ safeId record.conversationId = true ∧ safeId record.contentRef = true

def Call.draft : Call → Option (StageInput × StagedAttachmentRecord × Standing)
  | .stage input phase => (phase.standing input).map (input, ·)
  | _ => none

theorem Call.draft_stage (input : StageInput) (phase : StagePhase) :
    (Call.stage input phase).draft = (phase.standing input).map (input, ·) := rfl

namespace Staging

def Draft (w : Staging) (i : Nat) (input : StageInput) (record : StagedAttachmentRecord) (standing : Standing) : Prop :=
  ∃ call, w.calls[i]? = some call ∧ call.draft = some (input, record, standing)

def Known (w : Staging) (record : StagedAttachmentRecord) (bytes : Bytes) : Prop :=
  ∃ i input, w.Draft i input record.core .placed ∧ bytes = input.bytes

def Marked (w : Staging) (record : StagedAttachmentRecord) : Prop :=
  (∃ bytes, w.Known record bytes) ∧
    ∀ stored ∈ w.stores.records, stored.contentRef = record.contentRef → stored.consumedAt ≠ none

def Spent (w : Staging) (record : StagedAttachmentRecord) : Prop :=
  (∃ bytes, w.Known record bytes) ∧ record.expiresAt ≤ w.now

/-! ### What each call holds -/

/-- The record that `stage` has found for its identity. -/
def Found (w : Staging) (input : StageInput) (record : StagedAttachmentRecord) : Prop :=
  (∃ bytes, w.Known record bytes) ∧ record.identity = input.identity

def HoldsStage (w : Staging) (input : StageInput) : StagePhase → Prop
  | .looking reply =>
    (safeId input.ownerScopeId = true ∧ safeId input.conversationId = true) ∧
      ∀ record, reply = some (.ok (some record)) → w.Found input record
  | .lookingAgain _ reply => ∀ record, reply = some (.ok (some record)) → w.Found input record
  | .settled _ (.ok found) =>
    ∃ record, reference record = found ∧ w.Found input record ∧ record.fingerprint = input.fingerprint
  | _ => True

def HoldsResolve (w : Staging) (input : ReferenceInput) : ResolvePhase → Prop
  | .looking reply => ∀ record, reply = some (.ok (some record)) →
    (∃ bytes, w.Known record bytes) ∧ record.contentRef = input.contentRef
  | .getting record reply => owns record input = true ∧ record.contentRef = input.contentRef ∧
    ∃ bytes, w.Known record bytes ∧ ∀ got, reply = some (.ok (some got)) → got = bytes
  | .settled (.ok (record, bytes)) => owns record input = true ∧ record.contentRef = input.contentRef ∧ w.Known record bytes
  | .settled (.error _) => True

def HoldsConsume (w : Staging) (input : ReferenceInput) : ConsumePhase → Prop
  | .resolving phase => w.HoldsResolve input phase
  | .marking record _ reply => (∃ bytes, w.Known record bytes) ∧ record.contentRef = input.contentRef ∧
    (reply = some (.ok ()) → w.Marked record)
  | .deleting record _ => record.contentRef = input.contentRef ∧ w.Marked record
  | .settled (.ok record) => record.contentRef = input.contentRef ∧ w.Marked record
  | .settled (.error _) => True

def HoldsCleanup (w : Staging) : CleanupPhase → Prop
  | .listing before _ reply => before ≤ w.now ∧ ∀ records, reply = some (.ok records) → ∀ record ∈ records, w.Spent record
  | .deletingBlob _ record rest _ | .deleting _ record rest _ => w.Spent record ∧ ∀ other ∈ rest, w.Spent other
  | .settled _ => True

def Holds (w : Staging) : Call → Prop
  | .stage input phase => w.HoldsStage input phase
  | .resolve input phase => w.HoldsResolve input phase
  | .consume input phase => w.HoldsConsume input phase
  | .cleanupExpired phase => w.HoldsCleanup phase

structure Sound (w : Staging) : Prop where
  drafts : ∀ i input record standing, w.Draft i input record standing →
    Drafted w.issued input record ∧ StandsAt w.now w.stores record input.bytes standing
  distinct : ∀ i j first second record other standing status, w.Draft i first record standing →
    w.Draft j second other status → record.contentRef = other.contentRef → i = j
  records : ∀ record ∈ w.stores.records, ∃ bytes, w.Known record bytes
  identities : ∀ record ∈ w.stores.records, ∀ other ∈ w.stores.records, record.identity = other.identity → record = other
  blobs : ∀ key bytes, w.stores.blobs key = some bytes →
    ∃ i input record standing, w.Draft i input record standing ∧ key = record.blobKey ∧ bytes = input.bytes
  holds : ∀ (i : Nat) (call : Call), w.calls[i]? = some call → w.Holds call

/-! ### Drafts are told apart by their references -/

variable {w v : Staging} {i j : Nat} {input other : StageInput} {record stored : StagedAttachmentRecord} {standing status : Standing}

theorem Draft.functional (first : w.Draft i input record standing) (second : w.Draft i other stored status) :
    input = other ∧ record = stored ∧ standing = status := by
  obtain ⟨call, found, stands⟩ := first
  obtain ⟨again, same, also⟩ := second
  cases found.symm.trans same
  cases stands.symm.trans also
  exact ⟨rfl, rfl, rfl⟩

theorem Sound.draft_eq (sound : w.Sound) (first : w.Draft i input record standing) (second : w.Draft j other stored status)
    (same : record.contentRef = stored.contentRef) : input = other ∧ record = stored ∧ standing = status := by
  cases sound.distinct i j _ _ _ _ _ _ first second same
  exact first.functional second

theorem Sound.blobKey_ne (sound : w.Sound) (first : w.Draft i input record standing) (second : w.Draft j other stored status)
    (apart : record.contentRef ≠ stored.contentRef) : record.blobKey ≠ stored.blobKey := by
  rw [(sound.drafts _ _ _ _ first).1.blobKey, (sound.drafts _ _ _ _ second).1.blobKey]
  exact fun same => apart (append_injective _ same)

theorem contentRef_of_core (same : record.core = stored.core) : record.contentRef = stored.contentRef := by
  have whole : record.core.contentRef = stored.core.contentRef := congrArg StagedAttachmentRecord.contentRef same
  exact whole

theorem Sound.known_eq (sound : w.Sound) {bytes got : Bytes} (first : w.Known record bytes) (second : w.Known stored got)
    (same : record.contentRef = stored.contentRef) : record.core = stored.core ∧ bytes = got := by
  obtain ⟨i, input, draft, rfl⟩ := first
  obtain ⟨j, other, again, rfl⟩ := second
  obtain ⟨inputs, cores, -⟩ := sound.draft_eq draft again same
  exact ⟨cores, congrArg _ inputs⟩

theorem identity_of_core (same : record.core = stored.core) : record.identity = stored.identity := by
  have whole : record.core.identity = stored.core.identity := congrArg StagedAttachmentRecord.identity same
  exact whole

theorem Sound.stored_eq (sound : w.Sound) (member : record ∈ w.stores.records) (also : stored ∈ w.stores.records)
    (same : record.contentRef = stored.contentRef) : record = stored := by
  obtain ⟨bytes, known⟩ := sound.records record member
  obtain ⟨got, other⟩ := sound.records stored also
  exact sound.identities record member stored also (identity_of_core (sound.known_eq known other same).1)

theorem Sound.held (sound : w.Sound) {bytes : Bytes} (known : w.Known record bytes) :
    Held w.now w.stores record.core bytes := by
  obtain ⟨i, input, draft, rfl⟩ := known
  exact (sound.drafts _ _ _ _ draft).2

end Staging

end Handrail.Attachments

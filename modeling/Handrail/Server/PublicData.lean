import Handrail.Js.JsonText
import Handrail.Js.Value
import Handrail.Validation

/-!
# The public data of a trusted server

The checks of a protected request and of the public result of an operation. A result is cloned when the operation
returns it and again when the host replays it.
-/

namespace Handrail.Server
open Js

/-- `TRUSTED_SERVER_V1_LIMITS` -/
structure TrustedServerLimits where
  identifierLength : Nat := 128
  labelLength : Nat := 160
  locatorLength : Nat := 512
  originLength : Nat := 512
  metadataEntries : Nat := 16
  metadataKeyLength : Nat := 64
  metadataValueLength : Nat := 256
  maximumBodyBytes : Nat := 16 * 1024 * 1024
  maximumDeadlineMs : Nat := 120000
  maximumRetryAfterMs : Nat := 60000
  publicValueBytes : Nat := 64 * 1024
  publicValueDepth : Nat := 6
  publicValueNodes : Nat := 256
  publicCollectionEntries : Nat := 32
  publicStringLength : Nat := 2048

def limits : TrustedServerLimits := {}

/-- `TRUSTED_SERVER_REQUEST_PROTECTION_VERSION` -/
def requestProtectionVersion : JsString := js "trusted-server.request-protection.v1"

/-- `TrustedServerPublicErrorCodeV1` -/
inductive PublicErrorCode where
  | invalidRequest
  | invalidOrigin
  | invalidBody
  | unauthenticated
  | forbidden
  | rateLimited
  | idempotencyConflict
  | idempotencyInFlight
  | concurrencyExhausted
  | cancelled
  | deadlineExceeded
  | unavailable
  | internalFailure
deriving DecidableEq, Repr

/-- `isBoundedInteger` -/
def boundedInteger (minimum maximum : Nat) : JsValue → Option Nat
  | .num n => n.toNat?.filter fun value => minimum ≤ value && value ≤ maximum
  | _ => none

theorem boundedInteger_range {minimum maximum n : Nat} {value : JsValue}
    (read : boundedInteger minimum maximum value = some n) : minimum ≤ n ∧ n ≤ maximum := by
  cases value with
  | num x =>
    have bounds := (Option.filter_eq_some_iff.mp read).2
    simpa using bounds
  | _ => cases read

def hasControlCharacter (value : JsString) : Bool := value.units.any fun code => code ≤ 0x1f || code == 0x7f

/-- `UNSAFE_OBJECT_KEYS` -/
def unsafeObjectKeys : List JsString := [js "__proto__", js "constructor", js "prototype"]

/-! ### Requests -/

/-- `IDENTIFIER` -/
def identifierPattern : Pattern :=
  .all [.start, .unit Pattern.isAlphanumeric, .repeats (alphanumericOr "._:/-") 0 none, .finish]

/-- `METADATA_KEY` -/
def metadataKeyPattern : Pattern :=
  .all [.start, .unit Pattern.isAlphanumeric, .repeats (alphanumericOr "._-") 0 none, .finish]

/-- The pattern of `validLocator`. -/
def locatorPattern : Pattern :=
  .all [.start, .unit Pattern.isAlphanumeric, .repeats (alphanumericOr "._~:/?#[]@!$&'()*+,;=%-") 0 none, .finish]

def validIdentifier : JsValue → Option JsString
  | .str value => if value.length ≤ limits.identifierLength && identifierPattern.test value then some value else none
  | _ => none

def validLabel : JsValue → Option JsString
  | .str value =>
    if 0 < value.length && value.length ≤ limits.labelLength && !hasControlCharacter value then some value else none
  | _ => none

def validLocator : JsValue → Option JsString
  | .str value =>
    if 0 < value.length && value.length ≤ limits.locatorLength && locatorPattern.test value then some value else none
  | _ => none

/-- A field that may be `undefined`. -/
def optionally {α : Type} (check : JsValue → Option α) : JsValue → Option (Option α)
  | .undefined => some none
  | value => (check value).map some

def validMetadataEntry (entry : JsString × JsValue) : Option (JsString × JsString) :=
  match entry.2 with
  | .str item =>
    if entry.1.length ≤ limits.metadataKeyLength && metadataKeyPattern.test entry.1 && !unsafeObjectKeys.contains entry.1 &&
        item.length ≤ limits.metadataValueLength && !hasControlCharacter item then some (entry.1, item)
    else none
  | _ => none

/-- `validMetadata`, and what `cloneMetadata` makes of the value. -/
def validMetadata : JsValue → Option (Option (List (JsString × JsString))) :=
  optionally fun value =>
    match value with
    | .obj fields => if fields.length ≤ limits.metadataEntries then fields.mapM validMetadataEntry else none
    | _ => none

/-- `TrustedServerPublicDescriptorV1` -/
structure PublicDescriptor where
  id : JsString
  label : Option JsString
  metadata : Option (List (JsString × JsString))

/-- `validDescriptor`, and what `cloneDescriptor` makes of the value. -/
def validDescriptor : JsValue → Option PublicDescriptor
  | .obj fields => do
    let id ← validIdentifier (JsValue.get fields "id")
    let label ← optionally validLabel (JsValue.get fields "label")
    let metadata ← validMetadata (JsValue.get fields "metadata")
    some ⟨id, label, metadata⟩
  | _ => none

/-- `TrustedServerPublicResourceV1` -/
structure PublicResource extends PublicDescriptor where
  kind : JsString
  locator : Option JsString

/-- `validResource`, and what `cloneResource` makes of the value. -/
def validResource : JsValue → Option PublicResource
  | .obj fields => do
    let descriptor ← validDescriptor (.obj fields)
    let kind ← validIdentifier (JsValue.get fields "kind")
    let locator ← optionally validLocator (JsValue.get fields "locator")
    some ⟨descriptor, kind, locator⟩
  | _ => none

/-- `TrustedServerIdempotencyV1` -/
structure Idempotency where
  key : JsString
  fingerprint : JsString
deriving DecidableEq

def validIdempotency : JsValue → Option Idempotency
  | .obj fields => do
    let key ← validIdentifier (JsValue.get fields "key")
    let fingerprint ← validIdentifier (JsValue.get fields "fingerprint")
    some ⟨key, fingerprint⟩
  | _ => none

/-- What `validOrigin` reads of a `URL`. -/
structure Url where
  protocol : JsString
  username : JsString
  password : JsString
  pathname : JsString
  search : JsString
  hash : JsString
  origin : JsString

/-- `new URL(value)`, with `none` where it throws. -/
class UrlPlatform where
  url : JsString → Option Url

def validOrigin [UrlPlatform] : JsValue → Option JsString
  | .str value =>
    if limits.originLength < value.length then none
    else do
      let url ← UrlPlatform.url value
      if (url.protocol == js "https:" || url.protocol == js "http:") && url.username == js "" && url.password == js "" &&
          url.pathname == js "/" && url.search == js "" && url.hash == js "" && url.origin == value then some value
      else none
  | _ => none

/-- `TrustedServerProtectedRequestV1` -/
structure ProtectedRequest where
  requestId : JsString
  action : PublicDescriptor
  resource : PublicResource
  origin : JsString
  byteLength : Nat
  idempotency : Idempotency
  metadata : Option (List (JsString × JsString))

def validBody (maximumBodyBytes : Nat) : JsValue → Option Nat
  | .obj fields => boundedInteger 0 maximumBodyBytes (JsValue.get fields "byteLength")
  | _ => none

def isVersion : JsValue → Bool
  | .str value => value == requestProtectionVersion
  | _ => false

def validateRequest [UrlPlatform] (maximumBodyBytes : Nat) : JsValue → Except PublicErrorCode ProtectedRequest
  | .obj fields =>
    let fieldsValid := do
      if isVersion (JsValue.get fields "version") then some () else none
      let requestId ← validIdentifier (JsValue.get fields "requestId")
      let action ← validDescriptor (JsValue.get fields "action")
      let resource ← validResource (JsValue.get fields "resource")
      let idempotency ← validIdempotency (JsValue.get fields "idempotency")
      let metadata ← validMetadata (JsValue.get fields "metadata")
      some (requestId, action, resource, idempotency, metadata)
    match fieldsValid with
    | none => .error .invalidRequest
    | some (requestId, action, resource, idempotency, metadata) =>
      match validOrigin (JsValue.get fields "origin") with
      | none => .error .invalidOrigin
      | some origin =>
        match validBody maximumBodyBytes (JsValue.get fields "body") with
        | none => .error .invalidBody
        | some byteLength => .ok ⟨requestId, action, resource, origin, byteLength, idempotency, metadata⟩
  | _ => .error .invalidRequest

/-! ### Public values -/

def countNode (depth nodes : Nat) : Option Nat :=
  if limits.publicValueNodes < nodes + 1 ∨ limits.publicValueDepth < depth then none else some (nodes + 1)

def isPublicKey (key : JsString) : Bool :=
  0 < key.length && key.length ≤ limits.metadataKeyLength && !unsafeObjectKeys.contains key && !hasControlCharacter key

mutual
def clonePublicValue (depth nodes : Nat) : JsValue → Option (Json × Nat)
  | .null => (countNode depth nodes).map (.null, ·)
  | .bool b => (countNode depth nodes).map (.bool b, ·)
  | .num n => (countNode depth nodes).map (.num n, ·)
  | .str s => do
    let counted ← countNode depth nodes
    if limits.publicStringLength < s.length then none else some (.str s, counted)
  | .arr items => do
    let counted ← countNode depth nodes
    if limits.publicCollectionEntries < items.length then none
    else (clonePublicItems (depth + 1) counted items).map fun clone => (.arr clone.1, clone.2)
  | .obj fields => do
    let counted ← countNode depth nodes
    if limits.publicCollectionEntries < fields.length then none
    else (clonePublicFields (depth + 1) counted fields).map fun clone => (.obj clone.1, clone.2)
  | _ => none
termination_by structural value => value
def clonePublicItems (depth nodes : Nat) : List JsValue → Option (List Json × Nat)
  | [] => some ([], nodes)
  | item :: rest => do
    let (clone, counted) ← clonePublicValue depth nodes item
    let (clones, total) ← clonePublicItems depth counted rest
    some (clone :: clones, total)
termination_by structural items => items
def clonePublicFields (depth nodes : Nat) : List (JsString × JsValue) → Option (Fields × Nat)
  | [] => some ([], nodes)
  | (key, value) :: rest =>
    if isPublicKey key then do
      let (clone, counted) ← clonePublicValue depth nodes value
      let (clones, total) ← clonePublicFields depth counted rest
      some ((key, clone) :: clones, total)
    else none
termination_by structural fields => fields
end

def ClonesAgain (value : JsValue) : Prop := ∀ (depth nodes total : Nat) (clone : Json),
  clonePublicValue depth nodes value = some (clone, total) →
    clonePublicValue depth nodes (JsValue.ofJson clone) = some (clone, total)

theorem clonePublicItems_again {items : List JsValue} (each : ∀ item ∈ items, ClonesAgain item) {depth nodes total : Nat}
    {clones : List Json} (cloned : clonePublicItems depth nodes items = some (clones, total)) :
    clonePublicItems depth nodes (JsValue.ofItems clones) = some (clones, total) ∧ clones.length = items.length := by
  induction items generalizing nodes clones with
  | nil =>
    cases cloned
    exact ⟨rfl, rfl⟩
  | cons item rest ih =>
    obtain ⟨⟨first, counted⟩, head, cloned⟩ := Option.bind_eq_some_iff.mp cloned
    obtain ⟨⟨later, whole⟩, tail, cloned⟩ := Option.bind_eq_some_iff.mp cloned
    cases cloned
    have again := each item (List.mem_cons_self ..) _ _ _ _ head
    obtain ⟨restAgain, length⟩ := ih (fun next member => each next (List.mem_cons_of_mem _ member)) tail
    refine ⟨?_, congrArg (· + 1) length⟩
    rw [JsValue.ofItems, clonePublicItems, again]
    exact Option.bind_eq_some_iff.mpr ⟨_, rfl, Option.bind_eq_some_iff.mpr ⟨_, restAgain, rfl⟩⟩

theorem clonePublicFields_again {fields : List (JsString × JsValue)} (each : ∀ field ∈ fields, ClonesAgain field.2)
    {depth nodes total : Nat} {clones : Fields} (cloned : clonePublicFields depth nodes fields = some (clones, total)) :
    clonePublicFields depth nodes (JsValue.ofFields clones) = some (clones, total) ∧ clones.length = fields.length := by
  induction fields generalizing nodes clones with
  | nil =>
    cases cloned
    exact ⟨rfl, rfl⟩
  | cons field rest ih =>
    obtain ⟨key, value⟩ := field
    rw [clonePublicFields] at cloned
    split at cloned
    · rename_i publicKey
      obtain ⟨⟨first, counted⟩, head, cloned⟩ := Option.bind_eq_some_iff.mp cloned
      obtain ⟨⟨later, whole⟩, tail, cloned⟩ := Option.bind_eq_some_iff.mp cloned
      cases cloned
      have again := each (key, value) (List.mem_cons_self ..) _ _ _ _ head
      obtain ⟨restAgain, length⟩ := ih (fun next member => each next (List.mem_cons_of_mem _ member)) tail
      refine ⟨?_, congrArg (· + 1) length⟩
      rw [JsValue.ofFields, clonePublicFields, if_pos publicKey, again]
      exact Option.bind_eq_some_iff.mpr ⟨_, rfl, Option.bind_eq_some_iff.mpr ⟨_, restAgain, rfl⟩⟩
    · cases cloned

theorem clonesAgain (value : JsValue) : ClonesAgain value := by
  induction value using JsValue.induction with
  | undefined | nonFinite | other =>
    intro depth nodes total clone cloned
    cases cloned
  | null | bool | num =>
    intro depth nodes total clone cloned
    obtain ⟨counted, step, same⟩ := Option.map_eq_some_iff.mp cloned
    cases same
    exact cloned
  | str s =>
    intro depth nodes total clone cloned
    obtain ⟨counted, step, short⟩ := Option.bind_eq_some_iff.mp cloned
    split at short
    · cases short
    · cases short
      exact cloned
  | arr items ih =>
    intro depth nodes total clone cloned
    obtain ⟨counted, step, within⟩ := Option.bind_eq_some_iff.mp cloned
    split at within
    · cases within
    rename_i short
    obtain ⟨⟨clones, sum⟩, inside, same⟩ := Option.map_eq_some_iff.mp within
    cases same
    obtain ⟨again, length⟩ := clonePublicItems_again ih inside
    rw [JsValue.ofJson, clonePublicValue, step]
    refine (if_neg ?_).trans (by rw [again]; rfl)
    rw [JsValue.length_ofItems, length]
    exact short
  | obj fields ih =>
    intro depth nodes total clone cloned
    obtain ⟨counted, step, within⟩ := Option.bind_eq_some_iff.mp cloned
    split at within
    · cases within
    rename_i short
    obtain ⟨⟨clones, sum⟩, inside, same⟩ := Option.map_eq_some_iff.mp within
    cases same
    obtain ⟨again, length⟩ := clonePublicFields_again ih inside
    rw [JsValue.ofJson, clonePublicValue, step]
    refine (if_neg ?_).trans (by rw [again]; rfl)
    rw [JsValue.length_ofFields, length]
    exact short

/-- `TrustedServerStoredResultV1`, as `cloneStoredResult` leaves it. -/
structure StoredResult where
  status : Nat
  value : Json
  successful : 200 ≤ status ∧ status ≤ 299
  cloned : ∃ nodes, clonePublicValue 0 0 (JsValue.ofJson value) = some (value, nodes)
  bounded : utf8ByteLength (stringify value) ≤ limits.publicValueBytes

def cloneStoredResult : JsValue → Option StoredResult
  | .obj fields =>
    match code : boundedInteger 200 299 (JsValue.get fields "status") with
    | none => none
    | some status =>
      match clone : clonePublicValue 0 0 (JsValue.get fields "value") with
      | none => none
      | some (value, nodes) =>
        if bounded : utf8ByteLength (stringify value) ≤ limits.publicValueBytes then
          some {
            status
            value
            successful := boundedInteger_range code
            cloned := ⟨nodes, clonesAgain _ 0 0 nodes value clone⟩
            bounded }
        else none
  | _ => none

/-- `{ status, value }` -/
def StoredResult.toValue (stored : StoredResult) : JsValue :=
  .obj [(js "status", .num (JsNumber.ofNat stored.status)), (js "value", JsValue.ofJson stored.value)]

theorem cloneStoredResult_toValue (stored : StoredResult) : cloneStoredResult stored.toValue = some stored := by
  obtain ⟨status, value, successful, ⟨nodes, cloned⟩, bounded⟩ := stored
  have statusOf : JsValue.get [(js "status", .num (JsNumber.ofNat status)), (js "value", JsValue.ofJson value)] "status" =
      .num (JsNumber.ofNat status) := rfl
  have valueOf : JsValue.get [(js "status", .num (JsNumber.ofNat status)), (js "value", JsValue.ofJson value)] "value" =
      JsValue.ofJson value := rfl
  have code : boundedInteger 200 299 (.num (JsNumber.ofNat status)) = some status := by
    simp [boundedInteger, successful]
  unfold cloneStoredResult StoredResult.toValue
  dsimp only
  split
  · rename_i read
    rw [statusOf, code] at read
    cases read
  · rename_i other read
    rw [statusOf, code] at read
    cases read
    split
    · rename_i again
      rw [valueOf, cloned] at again
      cases again
    · rename_i json count again
      rw [valueOf, cloned] at again
      cases again
      exact dif_pos bounded

end Handrail.Server

import Handrail.Catalog.Descriptor
import Handrail.Js.OrderedMap

/-!
# The catalog in memory

`InMemoryConversationCatalog`. Once its input was read and allowed, a mutation runs alone. A mutation that
throws keeps what it has written.
-/

namespace Handrail.Catalog
open Js Conversation

/-- Limits that `resolveLimits` lets through. -/
structure InMemoryCatalogLimits where
  maxRecords : Nat
  maxTombstones : Nat
  maxIdempotencyEntries : Nat
  records : 1 ≤ maxRecords ∧ maxRecords ≤ 1000000
  tombstones : 1 ≤ maxTombstones ∧ maxTombstones ≤ 1000000
  idempotencyEntries : 1 ≤ maxIdempotencyEntries ∧ maxIdempotencyEntries ≤ 1000000

inductive CatalogStatus where
  | created
  | found
  | updated
  | cleared
  | archived
  | restored
  | deleted
  | idempotent
deriving DecidableEq, Repr

inductive CatalogSubject where
  | descriptor (descriptor : CatalogDescriptor)
  | deletion (conversationId : ConversationId) (deletedVersion : CatalogVersion)

structure CatalogResult where
  operation : CatalogAction
  status : CatalogStatus
  subject : CatalogSubject

def CatalogResult.conversationId (result : CatalogResult) : ConversationId :=
  match result.subject with
  | .descriptor d => d.conversationId
  | .deletion id _ => id

structure CatalogIdempotencyRecord where
  operation : CatalogAction
  signature : JsString
  result : CatalogResult

structure InMemoryConversationCatalog where
  limits : InMemoryCatalogLimits
  records : OrderedMap ConversationId CatalogDescriptor
  tombstones : OrderedMap ConversationId CatalogResult
  idempotency : OrderedMap CatalogKey CatalogIdempotencyRecord

def InMemoryConversationCatalog.new (limits : InMemoryCatalogLimits) : InMemoryConversationCatalog :=
  ⟨limits, .empty, .empty, .empty⟩

/-- What the host answers to a call: the decision of its authorizer, its clock, `none` when it throws or returns no
string, and its id factory, `none` when it throws. -/
structure CatalogReading where
  allowed : Bool
  clock : Option JsString
  generated : Option Json

/-! ### Inputs -/

structure CatalogInput (Ctx : Type) where
  source : Json
  authorizationContext : Option Ctx

structure MutationSnapshot (Ctx : Type) where
  authorizationContext : Ctx
  conversationId : ConversationId
  expectedVersion : CatalogVersion
  idempotencyKey : CatalogKey
  signature : JsString

structure RenameSnapshot (Ctx : Type) extends MutationSnapshot Ctx where
  title : CatalogTitle

structure CreateSnapshot (Ctx : Type) where
  authorizationContext : Ctx
  conversationId : Option ConversationId
  title : Option CatalogTitle
  metadata : CatalogMetadata
  idempotencyKey : CatalogKey
  signature : JsString

structure GetSnapshot (Ctx : Type) where
  authorizationContext : Ctx
  conversationId : ConversationId

def canonicalStringify (value : Json) : JsString := stringify value.canonical

def CatalogAction.text : CatalogAction → String
  | .list => "list"
  | .create => "create"
  | .get => "get"
  | .rename => "rename"
  | .clear => "clear"
  | .archive => "archive"
  | .restore => "restore"
  | .permanentDelete => "permanent_delete"

variable {Ctx : Type}

def requiredContext (operation : CatalogAction) (input : CatalogInput Ctx) : CatalogChecked Ctx :=
  match input.authorizationContext with
  | some context => .ok context
  | none => invalid operation

/-- `parse(source[key])`, when the key is there. -/
def whenGiven {α : Type} (parse : Option Json → CatalogChecked α) : Option Json → CatalogChecked (Option α)
  | none => .ok none
  | some value => (parse (some value)).map some

def createRequest (conversationId : Option ConversationId) (title : Option CatalogTitle) (metadata : CatalogMetadata) : Json :=
  Json.object [
    ("conversationId", conversationId.elim .null fun id => .str id.text),
    ("title", title.elim .null fun title => .str title.text),
    ("metadata", .obj metadata.fields)]

/-- `snapshotCreate`, with `parseCreateConversationInput` -/
def snapshotCreate (input : CatalogInput Ctx) : CatalogChecked (CreateSnapshot Ctx) := do
  let source ← exactKeys .create input.source ["conversationId", "title", "metadata", "idempotencyKey"] ["idempotencyKey"]
  let authorizationContext ← requiredContext .create input
  let conversationId ← whenGiven (parseIdentifier .create) (Json.get source "conversationId")
  let title ← whenGiven (parseTitle .create) (Json.get source "title")
  let metadata ← whenGiven (parseMetadata .create) (Json.get source "metadata")
  let metadata := metadata.getD .empty
  let idempotencyKey ← parseCatalogKey .create (Json.get source "idempotencyKey")
  return {
    authorizationContext, conversationId, title, metadata, idempotencyKey
    signature := canonicalStringify (createRequest conversationId title metadata) }

/-- `parseGetConversationInput` -/
def snapshotGet (input : CatalogInput Ctx) : CatalogChecked (GetSnapshot Ctx) := do
  let source ← exactKeys .get input.source ["conversationId"] ["conversationId"]
  let authorizationContext ← requiredContext .get input
  let conversationId ← parseIdentifier .get (Json.get source "conversationId")
  return { authorizationContext, conversationId }

def mutationRequest (operation : CatalogAction) (conversationId : ConversationId) (expectedVersion : CatalogVersion) : Json :=
  Json.object [
    ("operation", .str (js operation.text)),
    ("conversationId", .str conversationId.text),
    ("expectedVersion", .num (.ofNat expectedVersion.value))]

def renameRequest (conversationId : ConversationId) (expectedVersion : CatalogVersion) (title : CatalogTitle) : Json :=
  Json.object [
    ("conversationId", .str conversationId.text),
    ("expectedVersion", .num (.ofNat expectedVersion.value)),
    ("title", .str title.text)]

/-- `parseMutationInput` with the fields of its caller, and `snapshotMutation`. -/
def snapshotMutationFields (operation : CatalogAction) (input : CatalogInput Ctx) (extraKeys : List String) :
    CatalogChecked (Fields × MutationSnapshot Ctx) := do
  let keys := ["conversationId", "expectedVersion", "idempotencyKey"] ++ extraKeys
  let source ← exactKeys operation input.source keys keys
  let authorizationContext ← requiredContext operation input
  let conversationId ← parseIdentifier operation (Json.get source "conversationId")
  let expectedVersion ← parseVersion operation (Json.get source "expectedVersion")
  let idempotencyKey ← parseCatalogKey operation (Json.get source "idempotencyKey")
  return (source, {
    authorizationContext, conversationId, expectedVersion, idempotencyKey
    signature := canonicalStringify (mutationRequest operation conversationId expectedVersion) })

/-- `snapshotMutation`, with `parsePlainMutationInput` -/
def snapshotMutation (operation : CatalogAction) (input : CatalogInput Ctx) : CatalogChecked (MutationSnapshot Ctx) :=
  (snapshotMutationFields operation input []).map Prod.snd

/-- `snapshotRename`, with `parseRenameConversationInput` -/
def snapshotRename (input : CatalogInput Ctx) : CatalogChecked (RenameSnapshot Ctx) := do
  let (source, snapshot) ← snapshotMutationFields .rename input ["title"]
  let title ← parseTitle .rename (Json.get source "title")
  return { snapshot with
    title
    signature := canonicalStringify (renameRequest snapshot.conversationId snapshot.expectedVersion title) }

/-! ### Mutations -/

def CatalogM (α : Type) : Type := InMemoryConversationCatalog → CatalogChecked α × InMemoryConversationCatalog

namespace CatalogM
variable {α β : Type}

def andThen (step : CatalogM α) (next : α → CatalogM β) : CatalogM β := fun s =>
  match step s with
  | (.ok a, t) => next a t
  | (.error e, t) => (.error e, t)

instance : Monad CatalogM where
  pure a := fun s => (.ok a, s)
  bind := andThen

def get : CatalogM InMemoryConversationCatalog := fun s => (.ok s, s)

def modify (change : InMemoryConversationCatalog → InMemoryConversationCatalog) : CatalogM Unit := fun s => (.ok (), change s)

def throw (code : CatalogErrorCode) (operation : CatalogAction) : CatalogM α := fun s => (.error ⟨code, operation⟩, s)

def lift (check : CatalogChecked α) : CatalogM α := fun s => (check, s)

end CatalogM

open CatalogM

theorem one_le_maxSafeInteger : 1 ≤ JsNumber.maxSafeInteger := by decide

def firstVersion : CatalogVersion := ⟨1, Nat.one_pos, one_le_maxSafeInteger⟩

section
variable [DatePlatform]

def cloneDescriptor (d : CatalogDescriptor) : CatalogChecked CatalogDescriptor := parseConversationCatalogDescriptor d.toJson

def cloneResult (result : CatalogResult) : CatalogChecked CatalogResult :=
  match result.subject with
  | .descriptor d => (cloneDescriptor d).map fun d => { result with subject := .descriptor d }
  | .deletion _ _ => .ok result

def cloneIdempotentResult (result : CatalogResult) : CatalogChecked CatalogResult :=
  cloneResult { result with status := .idempotent }

def replay (operation : CatalogAction) (key : CatalogKey) (signature : JsString) : CatalogM (Option CatalogResult) := do
  let s ← get
  match s.idempotency.get key with
  | none => return none
  | some retained =>
    if retained.operation ≠ operation ∨ retained.signature ≠ signature then throw .idempotencyConflict operation
    else return some (← lift (cloneIdempotentResult retained.result))

def current (snapshot : MutationSnapshot Ctx) (operation : CatalogAction) : CatalogM CatalogDescriptor := do
  let s ← get
  match s.records.get snapshot.conversationId with
  | none => throw .notFound operation
  | some current => if current.version ≠ snapshot.expectedVersion then throw .versionConflict operation else return current

def now (operation : CatalogAction) (clock : Option JsString) (minimum : Option JsString) : CatalogM JsString :=
  match clock with
  | none => throw .unavailable operation
  | some value =>
    if isCanonicalTimestamp value ∧ ∀ m ∈ minimum, m ≤ value then return value else throw .unavailable operation

def nextVersion (current : CatalogVersion) (operation : CatalogAction) : CatalogM CatalogVersion :=
  if below : current.value < JsNumber.maxSafeInteger then return ⟨current.value + 1, by omega, below⟩
  else throw .unavailable operation

def commit (key : CatalogKey) (operation : CatalogAction) (signature : JsString) (result : CatalogResult) : CatalogM Unit := do
  modify fun s => { s with idempotency := s.idempotency.keepNewest (s.limits.maxIdempotencyEntries - 1) }
  let result ← lift (cloneResult result)
  modify fun s => { s with idempotency := s.idempotency.set key ⟨operation, signature, result⟩ }

def setRecord (d : CatalogDescriptor) : CatalogM Unit :=
  modify fun s => { s with records := s.records.set d.conversationId d }

def nextDescriptor (current : CatalogDescriptor) (operation : CatalogAction) (changed : CatalogDescriptor)
    (clock : Option JsString) : CatalogM CatalogDescriptor := do
  let updatedAt ← now operation clock (some current.updatedAt)
  let version ← nextVersion current.version operation
  let next ← lift (cloneDescriptor { changed with updatedAt, version })
  setRecord next
  return next

def freezeResult (operation : CatalogAction) (status : CatalogStatus) (subject : CatalogSubject) : CatalogM CatalogResult :=
  lift (cloneResult ⟨operation, status, subject⟩)

def rename (snapshot : RenameSnapshot Ctx) (clock : Option JsString) : CatalogM CatalogResult := do
  match ← replay .rename snapshot.idempotencyKey snapshot.signature with
  | some result => return result
  | none =>
    let current ← current snapshot.toMutationSnapshot .rename
    let next ← nextDescriptor current .rename { current with title := some snapshot.title } clock
    let result ← freezeResult .rename .updated (.descriptor next)
    commit snapshot.idempotencyKey .rename snapshot.signature result
    lift (cloneResult result)

def clear (snapshot : MutationSnapshot Ctx) (clock : Option JsString) : CatalogM CatalogResult := do
  match ← replay .clear snapshot.idempotencyKey snapshot.signature with
  | some result => return result
  | none =>
    let current ← current snapshot .clear
    if !current.isActive then throw .notFound .clear
    else
      let next ← nextDescriptor current .clear current clock
      if !next.isActive then throw .unavailable .clear
      else
        let result ← freezeResult .clear .cleared (.descriptor next)
        commit snapshot.idempotencyKey .clear snapshot.signature result
        lift (cloneResult result)

def archive (snapshot : MutationSnapshot Ctx) (clock : Option JsString) : CatalogM CatalogResult := do
  match ← replay .archive snapshot.idempotencyKey snapshot.signature with
  | some result => return result
  | none =>
    let current ← current snapshot .archive
    if !current.isActive then throw .notFound .archive
    else
      let now ← now .archive clock (some current.updatedAt)
      let version ← nextVersion current.version .archive
      let next ← lift (cloneDescriptor { current with lifecycle := .archived now, updatedAt := now, version })
      if next.isActive then throw .unavailable .archive
      else
        setRecord next
        let result ← freezeResult .archive .archived (.descriptor next)
        commit snapshot.idempotencyKey .archive snapshot.signature result
        lift (cloneResult result)

def restore (snapshot : MutationSnapshot Ctx) (clock : Option JsString) : CatalogM CatalogResult := do
  match ← replay .restore snapshot.idempotencyKey snapshot.signature with
  | some result => return result
  | none =>
    let current ← current snapshot .restore
    if current.isActive then throw .notFound .restore
    else
      let now ← now .restore clock (some current.updatedAt)
      let version ← nextVersion current.version .restore
      let next ← lift (cloneDescriptor { current with lifecycle := .active, updatedAt := now, version })
      if !next.isActive then throw .unavailable .restore
      else
        setRecord next
        let result ← freezeResult .restore .restored (.descriptor next)
        commit snapshot.idempotencyKey .restore snapshot.signature result
        lift (cloneResult result)

def permanentlyDelete (snapshot : MutationSnapshot Ctx) : CatalogM CatalogResult := do
  match ← replay .permanentDelete snapshot.idempotencyKey snapshot.signature with
  | some result => return result
  | none =>
    let current ← current snapshot .permanentDelete
    let s ← get
    if s.limits.maxTombstones ≤ s.tombstones.size then throw .unavailable .permanentDelete
    else
      let deletedVersion ← nextVersion current.version .permanentDelete
      let result ← freezeResult .permanentDelete .deleted (.deletion current.conversationId deletedVersion)
      modify fun s => { s with
        records := s.records.delete current.conversationId
        tombstones := s.tombstones.set current.conversationId result }
      commit snapshot.idempotencyKey .permanentDelete snapshot.signature result
      lift (cloneResult result)

def generatedId (generated : Option Json) : CatalogM ConversationId :=
  match parseIdentifier .create generated with
  | .ok id => return id
  | .error _ => throw .unavailable .create

def create (snapshot : CreateSnapshot Ctx) (reading : CatalogReading) : CatalogM CatalogResult := do
  match ← replay .create snapshot.idempotencyKey snapshot.signature with
  | some result => return result
  | none =>
    let s ← get
    if s.limits.maxRecords ≤ s.records.size then throw .unavailable .create
    else
      let conversationId ← snapshot.conversationId.elim (generatedId reading.generated) pure
      if s.records.has conversationId || s.tombstones.has conversationId then throw .idempotencyConflict .create
      else
        let now ← now .create reading.clock none
        let descriptor ← lift (cloneDescriptor {
          conversationId
          title := snapshot.title
          createdAt := now
          updatedAt := now
          version := firstVersion
          lifecycle := .active
          metadata := snapshot.metadata })
        if !descriptor.isActive then throw .unavailable .create
        else
          let result ← freezeResult .create .created (.descriptor descriptor)
          setRecord descriptor
          commit snapshot.idempotencyKey .create snapshot.signature result
          lift (cloneResult result)

def getConversation (snapshot : GetSnapshot Ctx) : CatalogM CatalogResult := do
  let s ← get
  match s.records.get snapshot.conversationId with
  | none => throw .notFound .get
  | some d => return ⟨.get, .found, .descriptor (← lift (cloneDescriptor d))⟩

end

/-! ### Calls -/

inductive CatalogCall (Ctx : Type) where
  | create (input : CatalogInput Ctx)
  | get (input : CatalogInput Ctx)
  | rename (input : CatalogInput Ctx)
  | clear (input : CatalogInput Ctx)
  | archive (input : CatalogInput Ctx)
  | restore (input : CatalogInput Ctx)
  | permanentlyDelete (input : CatalogInput Ctx)

/-- `authorizeConversationCatalogRequest`; a host that throws has not allowed the request. -/
def authorize (operation : CatalogAction) (reading : CatalogReading) : CatalogM Unit :=
  if reading.allowed then return () else throw .forbidden operation

def perform [DatePlatform] (reading : CatalogReading) : CatalogCall Ctx → CatalogM CatalogResult
  | .create input => do
    let snapshot ← lift (snapshotCreate input)
    authorize .create reading
    create snapshot reading
  | .get input => do
    let snapshot ← lift (snapshotGet input)
    authorize .get reading
    getConversation snapshot
  | .rename input => do
    let snapshot ← lift (snapshotRename input)
    authorize .rename reading
    rename snapshot reading.clock
  | .clear input => do
    let snapshot ← lift (snapshotMutation .clear input)
    authorize .clear reading
    clear snapshot reading.clock
  | .archive input => do
    let snapshot ← lift (snapshotMutation .archive input)
    authorize .archive reading
    archive snapshot reading.clock
  | .restore input => do
    let snapshot ← lift (snapshotMutation .restore input)
    authorize .restore reading
    restore snapshot reading.clock
  | .permanentlyDelete input => do
    let snapshot ← lift (snapshotMutation .permanentDelete input)
    authorize .permanentDelete reading
    permanentlyDelete snapshot

end Handrail.Catalog

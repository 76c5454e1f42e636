import Handrail.Catalog.InMemory

/-!
# What one call of the catalog does

A mutation either throws and changes nothing, or answers a retained result and changes nothing, or makes its one
change and retains its result.
-/

namespace Handrail.Catalog
open Js Conversation

variable {Ctx : Type}

structure CatalogRequest (Ctx : Type) where
  operation : CatalogAction
  authorizationContext : Ctx
  conversationId : Option ConversationId
  expectedVersion : Option CatalogVersion
  idempotencyKey : CatalogKey
  signature : JsString

def MutationSnapshot.request (operation : CatalogAction) (snapshot : MutationSnapshot Ctx) : CatalogRequest Ctx :=
  ⟨operation, snapshot.authorizationContext, some snapshot.conversationId, some snapshot.expectedVersion,
    snapshot.idempotencyKey, snapshot.signature⟩

def CreateSnapshot.request (snapshot : CreateSnapshot Ctx) : CatalogRequest Ctx :=
  ⟨.create, snapshot.authorizationContext, snapshot.conversationId, none, snapshot.idempotencyKey, snapshot.signature⟩

def CatalogCall.request : CatalogCall Ctx → Option (CatalogRequest Ctx)
  | .create input => (snapshotCreate input).toOption.map CreateSnapshot.request
  | .get _ => none
  | .rename input => (snapshotRename input).toOption.map fun snapshot => snapshot.toMutationSnapshot.request .rename
  | .clear input => (snapshotMutation .clear input).toOption.map (MutationSnapshot.request .clear)
  | .archive input => (snapshotMutation .archive input).toOption.map (MutationSnapshot.request .archive)
  | .restore input => (snapshotMutation .restore input).toOption.map (MutationSnapshot.request .restore)
  | .permanentlyDelete input =>
    (snapshotMutation .permanentDelete input).toOption.map (MutationSnapshot.request .permanentDelete)

def CatalogResult.again (result : CatalogResult) : CatalogResult := { result with status := .idempotent }

namespace InMemoryConversationCatalog

def retain (s : InMemoryConversationCatalog) (request : CatalogRequest Ctx) (result : CatalogResult) :
    InMemoryConversationCatalog :=
  { s with
    idempotency := (s.idempotency.keepNewest (s.limits.maxIdempotencyEntries - 1)).set request.idempotencyKey
      ⟨request.operation, request.signature, result⟩ }

def put (s : InMemoryConversationCatalog) (d : CatalogDescriptor) : InMemoryConversationCatalog :=
  { s with records := s.records.set d.conversationId d }

def bury (s : InMemoryConversationCatalog) (id : ConversationId) (result : CatalogResult) : InMemoryConversationCatalog :=
  { s with
    records := s.records.delete id
    tombstones := s.tombstones.set id result }

end InMemoryConversationCatalog

def CatalogStatus.isUpdate : CatalogStatus → Bool
  | .updated | .cleared | .archived | .restored => true
  | _ => false

section
variable [DatePlatform]

inductive Effect (s : InMemoryConversationCatalog) (request : CatalogRequest Ctx) :
    CatalogChecked CatalogResult → InMemoryConversationCatalog → Prop
  | failed (e : CatalogError) : Effect s request (.error e) s
  | replayed (retained : CatalogIdempotencyRecord) (found : s.idempotency.get request.idempotencyKey = some retained)
      (operation : retained.operation = request.operation) (signature : retained.signature = request.signature) :
      Effect s request (.ok retained.result.again) s
  | created (d : CatalogDescriptor) (fresh : s.idempotency.get request.idempotencyKey = none)
      (operation : request.operation = .create) (unversioned : request.expectedVersion = none)
      (named : ∀ id ∈ request.conversationId, d.conversationId = id)
        (missing : s.records.get d.conversationId = none) (undeleted : s.tombstones.get d.conversationId = none)
      (version : d.version.value = 1) (timely : d.timely = true) :
      Effect s request (.ok ⟨.create, .created, .descriptor d⟩) ((s.put d).retain request ⟨.create, .created, .descriptor d⟩)
  | updated (d next : CatalogDescriptor) (status : CatalogStatus) (isUpdate : status.isUpdate = true)
      (fresh : s.idempotency.get request.idempotencyKey = none) (found : s.records.get d.conversationId = some d)
      (named : request.conversationId = some d.conversationId) (expected : request.expectedVersion = some d.version)
      (same : next.conversationId = d.conversationId) (version : next.version.value = d.version.value + 1)
      (timely : next.timely = true) :
      Effect s request (.ok ⟨request.operation, status, .descriptor next⟩)
        ((s.put next).retain request ⟨request.operation, status, .descriptor next⟩)
  | deleted (d : CatalogDescriptor) (last : CatalogVersion) (fresh : s.idempotency.get request.idempotencyKey = none)
      (found : s.records.get d.conversationId = some d) (operation : request.operation = .permanentDelete)
      (named : request.conversationId = some d.conversationId) (expected : request.expectedVersion = some d.version)
      (version : last.value = d.version.value + 1) :
      Effect s request (.ok ⟨.permanentDelete, .deleted, .deletion d.conversationId last⟩)
        ((s.bury d.conversationId ⟨.permanentDelete, .deleted, .deletion d.conversationId last⟩).retain request
          ⟨.permanentDelete, .deleted, .deletion d.conversationId last⟩)

/-- Descriptors are in order under their own ids, deleted ids are not live, and retained descriptors are in order. -/
structure InMemoryConversationCatalog.Sound (s : InMemoryConversationCatalog) : Prop where
  timely : ∀ id d, s.records.get id = some d → d.timely = true
  keyed : ∀ id d, s.records.get id = some d → d.conversationId = id
  buried : ∀ id tombstone, s.tombstones.get id = some tombstone → s.records.get id = none
  retained : ∀ key record d, s.idempotency.get key = some record → record.result.subject = .descriptor d → d.timely = true

end

/-! ### Steps that may throw -/

section
variable {α β : Type} {s t : InMemoryConversationCatalog} {step : CatalogM α}

theorem bind_ok {next : α → CatalogM β} {a : α} (goes : step s = (.ok a, t)) : (step >>= next) s = next a t := by
  show step.andThen next s = next a t
  unfold CatalogM.andThen
  rw [goes]

theorem bind_error {next : α → CatalogM β} {e : CatalogError} (throws : step s = (.error e, t)) :
    (step >>= next) s = (.error e, t) := by
  show step.andThen next s = (.error e, t)
  unfold CatalogM.andThen
  rw [throws]

theorem pure_then (a : α) (next : α → CatalogM β) : (pure a >>= next : CatalogM β) = next a := rfl

theorem bind_bind {γ : Type} (step : CatalogM α) (next : α → CatalogM β) (last : β → CatalogM γ) :
    step >>= next >>= last = step >>= fun a => next a >>= last := by
  funext s
  cases outcome : step s with
  | mk result t =>
    cases result with
    | error e => rw [bind_error outcome, bind_error (bind_error outcome)]
    | ok a =>
      rw [bind_ok outcome]
      show (step >>= next).andThen last s = _
      unfold CatalogM.andThen
      rw [bind_ok outcome]
      rfl

end

section
variable [DatePlatform] {s : InMemoryConversationCatalog}

variable {d : CatalogDescriptor}

theorem cloneDescriptor_timely (timely : d.timely = true) : cloneDescriptor d = .ok d := by
  unfold cloneDescriptor
  rw [parse_toJson, if_pos timely]

def CatalogResult.Timely (result : CatalogResult) : Prop := ∀ d, result.subject = .descriptor d → d.timely = true

theorem cloneResult_timely {result : CatalogResult} (timely : result.Timely) : cloneResult result = .ok result := by
  obtain ⟨operation, status, subject⟩ := result
  cases subject with
  | descriptor d =>
    simp only [cloneResult, cloneDescriptor_timely (timely d rfl)]
    rfl
  | deletion id version => rfl

theorem replay_new {key : CatalogKey} (operation : CatalogAction) (signature : JsString)
    (fresh : s.idempotency.get key = none) : replay operation key signature s = (.ok none, s) := by
  have start : (CatalogM.get : CatalogM InMemoryConversationCatalog) s = (.ok s, s) := rfl
  unfold replay
  rw [bind_ok start, fresh]
  rfl

variable {operation : CatalogAction}

theorem replay_found (sound : s.Sound) {key : CatalogKey} {signature : JsString}
    {retained : CatalogIdempotencyRecord} (found : s.idempotency.get key = some retained)
    (sameOperation : retained.operation = operation) (sameSignature : retained.signature = signature) :
    replay operation key signature s = (.ok (some retained.result.again), s) := by
  have start : (CatalogM.get : CatalogM InMemoryConversationCatalog) s = (.ok s, s) := rfl
  have cloned : cloneIdempotentResult retained.result = .ok retained.result.again :=
    cloneResult_timely fun d subject => sound.retained key retained d found subject
  have answered : CatalogM.lift (cloneIdempotentResult retained.result) s = (.ok retained.result.again, s) := by
    unfold CatalogM.lift
    rw [cloned]
  unfold replay
  rw [bind_ok start, found]
  dsimp only
  rw [if_neg (by simp [sameOperation, sameSignature]), bind_ok answered]
  rfl

theorem replay_conflict {key : CatalogKey} {signature : JsString}
    {retained : CatalogIdempotencyRecord} (found : s.idempotency.get key = some retained)
    (other : retained.operation ≠ operation ∨ retained.signature ≠ signature) :
    replay operation key signature s = (.error ⟨.idempotencyConflict, operation⟩, s) := by
  have start : (CatalogM.get : CatalogM InMemoryConversationCatalog) s = (.ok s, s) := rfl
  unfold replay
  rw [bind_ok start, found]
  dsimp only
  rw [if_pos other]
  rfl

omit [DatePlatform] in
theorem current_cases (s : InMemoryConversationCatalog) (snapshot : MutationSnapshot Ctx) (operation : CatalogAction) :
    (∃ e, current snapshot operation s = (.error e, s)) ∨
    (∃ d, (s.records.get snapshot.conversationId = some d ∧ d.version = snapshot.expectedVersion) ∧
      current snapshot operation s = (.ok d, s)) := by
  have start : (CatalogM.get : CatalogM InMemoryConversationCatalog) s = (.ok s, s) := rfl
  unfold current
  rw [bind_ok start]
  cases found : s.records.get snapshot.conversationId with
  | none => exact .inl ⟨_, rfl⟩
  | some d =>
    dsimp only
    by_cases other : d.version ≠ snapshot.expectedVersion
    · rw [if_pos other]
      exact .inl ⟨_, rfl⟩
    · rw [if_neg other]
      exact .inr ⟨d, ⟨rfl, not_not.mp other⟩, rfl⟩

theorem now_cases (s : InMemoryConversationCatalog) (operation : CatalogAction) (clock minimum : Option JsString) :
    (∃ e, now operation clock minimum s = (.error e, s)) ∨
    (∃ value, (isCanonicalTimestamp value = true ∧ ∀ m ∈ minimum, m ≤ value) ∧
      now operation clock minimum s = (.ok value, s)) := by
  unfold now
  cases clock with
  | none => exact .inl ⟨_, rfl⟩
  | some value =>
    dsimp only
    by_cases fits : isCanonicalTimestamp value = true ∧ ∀ m ∈ minimum, m ≤ value
    · rw [if_pos fits]
      exact .inr ⟨value, fits, rfl⟩
    · rw [if_neg fits]
      exact .inl ⟨_, rfl⟩

omit [DatePlatform] in
theorem nextVersion_cases (s : InMemoryConversationCatalog) (version : CatalogVersion) (operation : CatalogAction) :
    (∃ e, nextVersion version operation s = (.error e, s)) ∨
    (∃ next : CatalogVersion, next.value = version.value + 1 ∧ nextVersion version operation s = (.ok next, s)) := by
  unfold nextVersion
  split
  · exact .inr ⟨_, rfl, rfl⟩
  · exact .inl ⟨_, rfl⟩

theorem freezeResult_timely (s : InMemoryConversationCatalog) {result : CatalogResult} (timely : result.Timely) :
    freezeResult result.operation result.status result.subject s = (.ok result, s) := by
  unfold freezeResult CatalogM.lift
  rw [cloneResult_timely timely]

theorem commit_run (s : InMemoryConversationCatalog) (request : CatalogRequest Ctx) {result : CatalogResult}
    (timely : result.Timely) :
    (commit request.idempotencyKey request.operation request.signature result >>= fun _ =>
      CatalogM.lift (cloneResult result)) s = (.ok result, s.retain request result) := by
  have cloned := cloneResult_timely timely
  have committed : commit request.idempotencyKey request.operation request.signature result s =
      (.ok (), s.retain request result) := by
    unfold commit
    rw [cloned]
    rfl
  rw [bind_ok committed]
  unfold CatalogM.lift
  rw [cloned]

/-! ### Operations -/

def Does (s : InMemoryConversationCatalog) (request : CatalogRequest Ctx) (step : CatalogM CatalogResult) : Prop :=
  Effect s request (step s).1 (step s).2

variable {request : CatalogRequest Ctx}

theorem does_throws {step : CatalogM CatalogResult} {e : CatalogError}
    (throws : step s = (.error e, s)) : Does s request step := by
  unfold Does
  rw [throws]
  exact .failed e

theorem does_bind {α : Type} {step : CatalogM α} {next : α → CatalogM CatalogResult} {a : α}
    (goes : step s = (.ok a, s)) (rest : Does s request (next a)) : Does s request (step >>= next) := by
  unfold Does
  rw [bind_ok goes]
  exact rest

theorem does_cases {α : Type} {P : α → Prop} {step : CatalogM α}
    {next : α → CatalogM CatalogResult}
    (answers : (∃ e, step s = (.error e, s)) ∨ ∃ a, P a ∧ step s = (.ok a, s))
    (rest : ∀ a, P a → Does s request (next a)) : Does s request (step >>= next) := by
  rcases answers with ⟨e, throws⟩ | ⟨a, fits, goes⟩
  · exact does_throws (bind_error throws)
  · exact does_bind goes (rest a fits)

theorem timely_moved {value : JsString} (title : Option CatalogTitle) (version : CatalogVersion)
    (timely : d.timely = true) (canonical : isCanonicalTimestamp value = true) (later : d.updatedAt ≤ value) :
    ({ d with title, updatedAt := value, version } : CatalogDescriptor).timely = true := by
  obtain ⟨id, title, createdAt, updatedAt, version, lifecycle, metadata⟩ := d
  simp only [CatalogDescriptor.timely, Bool.and_eq_true, decide_eq_true_eq] at timely ⊢
  obtain ⟨⟨⟨created, _⟩, order⟩, archived⟩ := timely
  refine ⟨⟨⟨created, canonical⟩, JsString.le_trans order later⟩, ?_⟩
  cases lifecycle with
  | active => rfl
  | archived at_ =>
    simp only [Bool.and_eq_true, decide_eq_true_eq] at archived ⊢
    exact ⟨archived.1, JsString.le_trans archived.2 later⟩

theorem timely_created (timely : d.timely = true) :
    isCanonicalTimestamp d.createdAt = true ∧ d.createdAt ≤ d.updatedAt := by
  simp only [CatalogDescriptor.timely, Bool.and_eq_true, decide_eq_true_eq] at timely
  exact ⟨timely.1.1.1, timely.1.2⟩

theorem timely_turned {value : JsString} {lifecycle : CatalogLifecycle} (version : CatalogVersion)
    (timely : d.timely = true) (canonical : isCanonicalTimestamp value = true) (later : d.updatedAt ≤ value)
    (turned : lifecycle = .active ∨ lifecycle = .archived value) :
    ({ d with lifecycle, updatedAt := value, version } : CatalogDescriptor).timely = true := by
  obtain ⟨created, order⟩ := timely_created timely
  have upward := JsString.le_trans order later
  rcases turned with rfl | rfl
  · simp [CatalogDescriptor.timely, created, canonical, upward]
  · simp [CatalogDescriptor.timely, created, canonical, upward]

theorem update_does {d next : CatalogDescriptor} {status : CatalogStatus}
    (isUpdate : status.isUpdate = true) (fresh : s.idempotency.get request.idempotencyKey = none)
    (found : s.records.get d.conversationId = some d) (named : request.conversationId = some d.conversationId)
    (expected : request.expectedVersion = some d.version) (same : next.conversationId = d.conversationId)
    (version : next.version.value = d.version.value + 1) (timely : next.timely = true) :
    Does s request (setRecord next >>= fun _ =>
      freezeResult request.operation status (.descriptor next) >>= fun result =>
        commit request.idempotencyKey request.operation request.signature result >>= fun _ =>
          CatalogM.lift (cloneResult result)) := by
  have ordered : (⟨request.operation, status, .descriptor next⟩ : CatalogResult).Timely := fun d subject => by
    cases subject
    exact timely
  have wrote : setRecord next s = (.ok (), s.put next) := rfl
  unfold Does
  rw [bind_ok wrote, bind_ok (freezeResult_timely (s.put next) ordered), commit_run (s.put next) request ordered]
  exact .updated d next status isUpdate fresh found named expected same version timely

theorem creation_does (operation : request.operation = .create)
    (unversioned : request.expectedVersion = none) (fresh : s.idempotency.get request.idempotencyKey = none)
    (named : ∀ id ∈ request.conversationId, d.conversationId = id) (missing : s.records.get d.conversationId = none)
    (undeleted : s.tombstones.get d.conversationId = none) (version : d.version.value = 1) (timely : d.timely = true) :
    Does s request (freezeResult .create .created (.descriptor d) >>= fun result =>
      setRecord d >>= fun _ =>
        commit request.idempotencyKey request.operation request.signature result >>= fun _ =>
          CatalogM.lift (cloneResult result)) := by
  have ordered : (⟨.create, .created, .descriptor d⟩ : CatalogResult).Timely := fun other subject => by
    cases subject
    exact timely
  have wrote : setRecord d s = (.ok (), s.put d) := rfl
  refine does_bind (freezeResult_timely s ordered) ?_
  unfold Does
  rw [bind_ok wrote, commit_run (s.put d) request ordered]
  exact .created d fresh operation unversioned named missing undeleted version timely

theorem replay_does {next : Option CatalogResult → CatalogM CatalogResult} (sound : s.Sound)
    (again : ∀ result, next (some result) s = (.ok result, s))
    (rest : s.idempotency.get request.idempotencyKey = none → Does s request (next none)) :
    Does s request (replay request.operation request.idempotencyKey request.signature >>= next) := by
  cases found : s.idempotency.get request.idempotencyKey with
  | none => exact does_bind (replay_new request.operation request.signature found) (rest found)
  | some retained =>
    by_cases other : retained.operation ≠ request.operation ∨ retained.signature ≠ request.signature
    · exact does_throws (bind_error (replay_conflict found other))
    · rw [not_or, not_not, not_not] at other
      refine does_bind (replay_found sound found other.1 other.2) ?_
      unfold Does
      rw [again]
      exact .replayed retained found other.1 other.2

theorem current_does {snapshot : MutationSnapshot Ctx}
    {next : CatalogDescriptor → CatalogM CatalogResult} (sound : s.Sound)
    (rest : ∀ d, s.records.get d.conversationId = some d → snapshot.conversationId = d.conversationId →
      snapshot.expectedVersion = d.version → d.timely = true → Does s request (next d)) :
    Does s request (current snapshot operation >>= next) := by
  refine does_cases (current_cases s snapshot operation) fun d fits => ?_
  have keyed := sound.keyed _ _ fits.1
  exact rest d (keyed ▸ fits.1) keyed.symm fits.2.symm (sound.timely _ _ fits.1)

theorem now_does {clock minimum : Option JsString}
    {next : JsString → CatalogM CatalogResult}
    (rest : ∀ value, isCanonicalTimestamp value = true → (∀ m ∈ minimum, m ≤ value) → Does s request (next value)) :
    Does s request (now operation clock minimum >>= next) := by
  exact does_cases (now_cases s operation clock minimum) fun value fits => rest value fits.1 fits.2

theorem nextVersion_does {version : CatalogVersion}
    {next : CatalogVersion → CatalogM CatalogResult}
    (rest : ∀ following : CatalogVersion, following.value = version.value + 1 → Does s request (next following)) :
    Does s request (nextVersion version operation >>= next) := by
  exact does_cases (nextVersion_cases s version operation) rest

theorem clone_does {next : CatalogDescriptor → CatalogM CatalogResult}
    (timely : d.timely = true) (rest : Does s request (next d)) :
    Does s request (CatalogM.lift (cloneDescriptor d) >>= next) := by
  refine does_bind ?_ rest
  unfold CatalogM.lift
  rw [cloneDescriptor_timely timely]

theorem rename_does (sound : s.Sound) (snapshot : RenameSnapshot Ctx) (clock : Option JsString) :
    Does s (snapshot.toMutationSnapshot.request .rename) (rename snapshot clock) := by
  refine replay_does sound (fun result => rfl) fun fresh => ?_
  refine current_does sound fun d found named expected timely => ?_
  unfold nextDescriptor
  simp only [bind_bind]
  refine now_does fun value canonical later => nextVersion_does fun version following => ?_
  have moved := timely_moved (some snapshot.title) version timely canonical (later _ rfl)
  refine clone_does moved ?_
  exact update_does rfl fresh found (congrArg some named) (congrArg some expected) rfl following moved

theorem clear_does (sound : s.Sound) (snapshot : MutationSnapshot Ctx) (clock : Option JsString) :
    Does s (snapshot.request .clear) (clear snapshot clock) := by
  refine replay_does sound (fun result => rfl) fun fresh => ?_
  refine current_does sound fun d found named expected timely => ?_
  cases active : d.isActive with
  | false => exact does_throws rfl
  | true =>
    simp only [Bool.not_true, Bool.false_eq_true, ↓reduceIte]
    unfold nextDescriptor
    simp only [bind_bind, pure_then]
    refine now_does fun value canonical later => nextVersion_does fun version following => ?_
    have moved := timely_moved d.title version timely canonical (later _ rfl)
    refine clone_does moved ?_
    have still : ({ d with updatedAt := value, version } : CatalogDescriptor).isActive = true := active
    simp only [still, Bool.not_true, Bool.false_eq_true, ↓reduceIte]
    exact update_does rfl fresh found (congrArg some named) (congrArg some expected) rfl following moved

theorem archive_does (sound : s.Sound) (snapshot : MutationSnapshot Ctx) (clock : Option JsString) :
    Does s (snapshot.request .archive) (archive snapshot clock) := by
  refine replay_does sound (fun result => rfl) fun fresh => ?_
  refine current_does sound fun d found named expected timely => ?_
  cases active : d.isActive with
  | false => exact does_throws rfl
  | true =>
    refine now_does fun value canonical later => nextVersion_does fun version following => ?_
    have turned := timely_turned version timely canonical (later _ rfl) (.inr rfl)
    refine clone_does turned ?_
    exact update_does rfl fresh found (congrArg some named) (congrArg some expected) rfl following turned

theorem restore_does (sound : s.Sound) (snapshot : MutationSnapshot Ctx) (clock : Option JsString) :
    Does s (snapshot.request .restore) (restore snapshot clock) := by
  refine replay_does sound (fun result => rfl) fun fresh => ?_
  refine current_does sound fun d found named expected timely => ?_
  cases active : d.isActive with
  | true => exact does_throws rfl
  | false =>
    refine now_does fun value canonical later => nextVersion_does fun version following => ?_
    have turned := timely_turned version timely canonical (later _ rfl) (.inl rfl)
    refine clone_does turned ?_
    exact update_does rfl fresh found (congrArg some named) (congrArg some expected) rfl following turned

theorem permanentlyDelete_does (sound : s.Sound) (snapshot : MutationSnapshot Ctx) :
    Does s (snapshot.request .permanentDelete) (permanentlyDelete snapshot) := by
  refine replay_does sound (fun result => rfl) fun fresh => ?_
  refine current_does sound fun d found named expected timely => ?_
  have start : (CatalogM.get : CatalogM InMemoryConversationCatalog) s = (.ok s, s) := rfl
  refine does_bind start ?_
  by_cases full : s.limits.maxTombstones ≤ s.tombstones.size
  · rw [if_pos full]
    exact does_throws rfl
  · rw [if_neg full]
    refine nextVersion_does fun last following => ?_
    have frozen : freezeResult .permanentDelete .deleted (.deletion d.conversationId last) s =
        (.ok ⟨.permanentDelete, .deleted, .deletion d.conversationId last⟩, s) := rfl
    refine does_bind frozen ?_
    exact .deleted d last fresh found rfl (congrArg some named) (congrArg some expected) following

omit [DatePlatform] in
theorem generatedId_cases (s : InMemoryConversationCatalog) (generated : Option Json) :
    (∃ e, generatedId generated s = (.error e, s)) ∨ ∃ id, generatedId generated s = (.ok id, s) := by
  unfold generatedId
  cases parseIdentifier .create generated with
  | ok id => exact .inr ⟨id, rfl⟩
  | error e => exact .inl ⟨_, rfl⟩

theorem create_does (sound : s.Sound) (snapshot : CreateSnapshot Ctx) (reading : CatalogReading) :
    Does s snapshot.request (create snapshot reading) := by
  refine replay_does sound (fun result => rfl) fun fresh => ?_
  have start : (CatalogM.get : CatalogM InMemoryConversationCatalog) s = (.ok s, s) := rfl
  refine does_bind start ?_
  by_cases full : s.limits.maxRecords ≤ s.records.size
  · rw [if_pos full]
    exact does_throws rfl
  · rw [if_neg full]
    refine does_cases (P := fun id => ∀ given ∈ snapshot.conversationId, id = given) ?_ fun id named => ?_
    · cases snapshot.conversationId with
      | some id => exact .inr ⟨id, fun given same => Option.some.inj same, rfl⟩
      | none =>
        rcases generatedId_cases s reading.generated with throws | ⟨id, goes⟩
        · exact .inl throws
        · exact .inr ⟨id, fun given absent => (Option.some_ne_none given absent.symm).elim, goes⟩
    · by_cases known : (s.records.has id || s.tombstones.has id) = true
      · rw [if_pos known]
        exact does_throws rfl
      · rw [if_neg known]
        refine now_does fun value canonical later => ?_
        have timely : (⟨id, snapshot.title, value, value, firstVersion, .active, snapshot.metadata⟩ :
            CatalogDescriptor).timely = true := by simp [CatalogDescriptor.timely, canonical]
        refine clone_does timely ?_
        rw [Bool.not_eq_true, Bool.or_eq_false_iff] at known
        exact creation_does rfl rfl fresh named (Option.isSome_eq_false_iff.mp known.1 |> Option.isNone_iff_eq_none.mp)
          (Option.isSome_eq_false_iff.mp known.2 |> Option.isNone_iff_eq_none.mp) rfl timely

end

/-! ### Calls -/

section
variable [DatePlatform] {s : InMemoryConversationCatalog} {call : CatalogCall Ctx} {request : CatalogRequest Ctx}

omit [DatePlatform] in
theorem toOption_map_eq_some {α β : Type} {check : CatalogChecked α} {f : α → β} {b : β}
    (asked : check.toOption.map f = some b) : ∃ a, check = .ok a ∧ f a = b := by
  cases check with
  | error e => cases asked
  | ok a => exact ⟨a, rfl, Option.some.inj asked⟩

theorem perform_asked (asked : call.request = some request) (reading : CatalogReading) :
    ∃ next : Option CatalogResult → CatalogM CatalogResult,
      perform reading call = (authorize request.operation reading >>= fun _ =>
        replay request.operation request.idempotencyKey request.signature >>= next) ∧
      (∀ result s, next (some result) s = (.ok result, s)) ∧
      ∀ s : InMemoryConversationCatalog, s.Sound →
        Does s request (replay request.operation request.idempotencyKey request.signature >>= next) := by
  cases call with
  | create input =>
    obtain ⟨snapshot, read, rfl⟩ := toOption_map_eq_some asked
    refine ⟨_, ?_, ?_, fun s sound => create_does sound snapshot reading⟩
    · simp only [perform, read]
      rfl
    · exact fun result s => rfl
  | get input => cases asked
  | rename input =>
    obtain ⟨snapshot, read, rfl⟩ := toOption_map_eq_some asked
    refine ⟨_, ?_, ?_, fun s sound => rename_does sound snapshot reading.clock⟩
    · simp only [perform, read]
      rfl
    · exact fun result s => rfl
  | clear input =>
    obtain ⟨snapshot, read, rfl⟩ := toOption_map_eq_some asked
    refine ⟨_, ?_, ?_, fun s sound => clear_does sound snapshot reading.clock⟩
    · simp only [perform, read]
      rfl
    · exact fun result s => rfl
  | archive input =>
    obtain ⟨snapshot, read, rfl⟩ := toOption_map_eq_some asked
    refine ⟨_, ?_, ?_, fun s sound => archive_does sound snapshot reading.clock⟩
    · simp only [perform, read]
      rfl
    · exact fun result s => rfl
  | restore input =>
    obtain ⟨snapshot, read, rfl⟩ := toOption_map_eq_some asked
    refine ⟨_, ?_, ?_, fun s sound => restore_does sound snapshot reading.clock⟩
    · simp only [perform, read]
      rfl
    · exact fun result s => rfl
  | permanentlyDelete input =>
    obtain ⟨snapshot, read, rfl⟩ := toOption_map_eq_some asked
    refine ⟨_, ?_, ?_, fun s sound => permanentlyDelete_does sound snapshot⟩
    · simp only [perform, read]
      rfl
    · exact fun result s => rfl

variable {reading : CatalogReading}

omit [DatePlatform] in
theorem authorize_allowed (operation : CatalogAction) (allowed : reading.allowed = true) :
    authorize operation reading s = (.ok (), s) := by
  unfold authorize
  rw [allowed]
  rfl

omit [DatePlatform] in
theorem authorize_refused (operation : CatalogAction) (refused : reading.allowed = false) :
    authorize operation reading s = (.error ⟨.forbidden, operation⟩, s) := by
  unfold authorize
  rw [refused]
  rfl

theorem perform_refused (asked : call.request = some request) (refused : reading.allowed = false) :
    perform reading call s = (.error ⟨.forbidden, request.operation⟩, s) := by
  obtain ⟨next, shape, -⟩ := perform_asked asked reading
  rw [shape]
  exact bind_error (authorize_refused request.operation refused)

theorem perform_effect (sound : s.Sound) (asked : call.request = some request) (reading : CatalogReading) :
    Effect s request (perform reading call s).1 (perform reading call s).2 := by
  cases allowed : reading.allowed with
  | false =>
    rw [perform_refused asked allowed]
    exact .failed _
  | true =>
    obtain ⟨next, shape, -, does⟩ := perform_asked asked reading
    rw [shape, bind_ok (authorize_allowed request.operation allowed)]
    exact does s sound

theorem perform_replayed (sound : s.Sound) (asked : call.request = some request)
    (allowed : reading.allowed = true) {retained : CatalogIdempotencyRecord}
    (found : s.idempotency.get request.idempotencyKey = some retained) (operation : retained.operation = request.operation)
    (signature : retained.signature = request.signature) :
    perform reading call s = (.ok retained.result.again, s) := by
  obtain ⟨next, shape, again, -⟩ := perform_asked asked reading
  rw [shape, bind_ok (authorize_allowed request.operation allowed), bind_ok (replay_found sound found operation signature)]
  exact again retained.result.again s

omit [DatePlatform] in
theorem toOption_map_eq_none {α β : Type} {check : CatalogChecked α} {f : α → β} (unasked : check.toOption.map f = none) :
    ∃ e, check = .error e := by
  cases check with
  | error e => exact ⟨e, rfl⟩
  | ok a => cases unasked

omit [DatePlatform] in
theorem lift_error {α : Type} {check : CatalogChecked α} {e : CatalogError} (next : α → CatalogM CatalogResult)
    (unread : check = .error e) : (CatalogM.lift check >>= next) s = (.error e, s) := by
  rw [unread]
  rfl

theorem perform_get (sound : s.Sound) (reading : CatalogReading) (input : CatalogInput Ctx) :
    (∃ e, perform reading (.get input) s = (.error e, s)) ∨
    (∃ snapshot d, snapshotGet input = .ok snapshot ∧ reading.allowed = true ∧ d.conversationId = snapshot.conversationId ∧
      perform reading (.get input) s = (.ok ⟨.get, .found, .descriptor d⟩, s)) := by
  simp only [perform]
  cases read : snapshotGet input with
  | error e => exact .inl ⟨e, rfl⟩
  | ok snapshot =>
    have start : CatalogM.lift (.ok snapshot : CatalogChecked (GetSnapshot Ctx)) s = (.ok snapshot, s) := rfl
    rw [bind_ok start]
    cases allowed : reading.allowed with
    | false =>
      rw [bind_error (authorize_refused .get allowed)]
      exact .inl ⟨_, rfl⟩
    | true =>
      have looked : (CatalogM.get : CatalogM InMemoryConversationCatalog) s = (.ok s, s) := rfl
      rw [bind_ok (authorize_allowed .get allowed)]
      unfold getConversation
      rw [bind_ok looked]
      cases found : s.records.get snapshot.conversationId with
      | none => exact .inl ⟨_, rfl⟩
      | some d =>
        have cloned : CatalogM.lift (cloneDescriptor d) s = (.ok d, s) := by
          unfold CatalogM.lift
          rw [cloneDescriptor_timely (sound.timely _ _ found)]
        refine .inr ⟨snapshot, d, rfl, rfl, sound.keyed _ _ found, ?_⟩
        dsimp only
        rw [bind_ok cloned]
        rfl

theorem perform_unasked (sound : s.Sound) (unasked : call.request = none) (reading : CatalogReading) :
    (∃ e, perform reading call s = (.error e, s)) ∨
    (∃ input snapshot d, call = .get input ∧ snapshotGet input = .ok snapshot ∧ reading.allowed = true ∧
      d.conversationId = snapshot.conversationId ∧ perform reading call s = (.ok ⟨.get, .found, .descriptor d⟩, s)) := by
  cases call with
  | get input =>
    rcases perform_get sound reading input with failed | ⟨snapshot, d, found⟩
    · exact .inl failed
    · exact .inr ⟨input, snapshot, d, rfl, found⟩
  | create input =>
    obtain ⟨e, unread⟩ := toOption_map_eq_none unasked
    exact .inl ⟨e, lift_error _ unread⟩
  | rename input =>
    obtain ⟨e, unread⟩ := toOption_map_eq_none unasked
    exact .inl ⟨e, lift_error _ unread⟩
  | clear input =>
    obtain ⟨e, unread⟩ := toOption_map_eq_none unasked
    exact .inl ⟨e, lift_error _ unread⟩
  | archive input =>
    obtain ⟨e, unread⟩ := toOption_map_eq_none unasked
    exact .inl ⟨e, lift_error _ unread⟩
  | restore input =>
    obtain ⟨e, unread⟩ := toOption_map_eq_none unasked
    exact .inl ⟨e, lift_error _ unread⟩
  | permanentlyDelete input =>
    obtain ⟨e, unread⟩ := toOption_map_eq_none unasked
    exact .inl ⟨e, lift_error _ unread⟩

end

end Handrail.Catalog

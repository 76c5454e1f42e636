import Handrail.Catalog.Runs
import Handrail.Js.JsonReading

/-!
# To whom the catalog answers

A result is answered again to whoever sends its idempotency key with the same request. A request that names a
conversation was allowed for it. A create that leaves its id to the catalog was allowed for no conversation.
-/

namespace Handrail.Catalog
open Js Conversation

variable {Ctx : Type}

def CatalogCall.named : CatalogCall Ctx → Option (Ctx × ConversationId)
  | .get input => (snapshotGet input).toOption.map fun snapshot => (snapshot.authorizationContext, snapshot.conversationId)
  | call => call.request.bind fun request => request.conversationId.map fun id => (request.authorizationContext, id)

def CatalogCall.context : CatalogCall Ctx → Option Ctx
  | .get input => (snapshotGet input).toOption.map fun snapshot => snapshot.authorizationContext
  | call => call.request.map fun request => request.authorizationContext

def CatalogEvent.granted (event : CatalogEvent Ctx) : Option (Ctx × ConversationId) :=
  if event.reading.allowed then event.call.named else none

def CatalogEvent.creation (event : CatalogEvent Ctx) : Option (Ctx × ConversationId) := do
  let result ← event.result.toOption
  let context ← event.call.context
  if result.status = .created then some (context, result.conversationId) else none

def Entitled (events : List (CatalogEvent Ctx)) (context : Ctx) (id : ConversationId) : Prop :=
  ∃ event ∈ events, event.creation = some (context, id) ∨ event.granted = some (context, id)

def Creator (events : List (CatalogEvent Ctx)) (context : Ctx) (id : ConversationId) : Prop :=
  (∃ event ∈ events, event.creation = some (context, id)) ∧
    ∀ event ∈ events, ∀ other, event.creation = some (other, id) → other = context

/-- The result of every call is about a conversation that its context is entitled to, and the result of a request that names
no conversation is about one that its context created. -/
def Disclosures : List (CatalogEvent Ctx) → Prop
  | [] => True
  | event :: earlier =>
    (∀ result, event.result = .ok result →
      (∃ context, event.call.context = some context ∧ Entitled (event :: earlier) context result.conversationId) ∧
      ∀ request, event.call.request = some request → request.conversationId = none →
        Creator (event :: earlier) request.authorizationContext result.conversationId) ∧ Disclosures earlier

def CatalogCall.OwnKey (call : CatalogCall Ctx) (events : List (CatalogEvent Ctx)) (s : InMemoryConversationCatalog) : Prop :=
  ∀ request kept, call.request = some request → request.conversationId = none →
    s.idempotency.get request.idempotencyKey = some kept → kept.operation = request.operation →
    kept.signature = request.signature →
    ∃ event ∈ events, event.creation = some (request.authorizationContext, kept.result.conversationId)

inductive OwnCalls [DatePlatform] (s : InMemoryConversationCatalog) :
    List (CatalogEvent Ctx) → InMemoryConversationCatalog → Prop
  | start : OwnCalls s [] s
  | call {events : List (CatalogEvent Ctx)} {t : InMemoryConversationCatalog} (before : OwnCalls s events t)
      (reading : CatalogReading) (call : CatalogCall Ctx) (own : call.OwnKey events t) :
      OwnCalls s (⟨call, reading, (perform reading call t).1⟩ :: events) (perform reading call t).2

/-! ### Signatures -/

variable {input : CatalogInput Ctx}

theorem snapshotMutationFields_signature {operation : CatalogAction} {extraKeys : List String}
    {source : Fields} {snapshot : MutationSnapshot Ctx}
    (read : snapshotMutationFields operation input extraKeys = .ok (source, snapshot)) :
    snapshot.signature = canonicalStringify (mutationRequest operation snapshot.conversationId snapshot.expectedVersion) := by
  unfold snapshotMutationFields at read
  simp only [bind, Except.bind, pure, Except.pure] at read
  repeat' split at read
  all_goals cases read
  rfl

theorem snapshotMutation_signature {operation : CatalogAction} {snapshot : MutationSnapshot Ctx}
    (read : snapshotMutation operation input = .ok snapshot) :
    snapshot.signature = canonicalStringify (mutationRequest operation snapshot.conversationId snapshot.expectedVersion) := by
  unfold snapshotMutation at read
  cases fields : snapshotMutationFields operation input [] with
  | error e =>
    rw [fields] at read
    cases read
  | ok parsed =>
    rw [fields] at read
    cases read
    exact snapshotMutationFields_signature fields

theorem snapshotRename_signature {snapshot : RenameSnapshot Ctx}
    (read : snapshotRename input = .ok snapshot) :
    snapshot.signature = canonicalStringify (renameRequest snapshot.conversationId snapshot.expectedVersion snapshot.title) := by
  unfold snapshotRename at read
  simp only [bind, Except.bind, pure, Except.pure] at read
  repeat' split at read
  all_goals cases read
  rfl

theorem snapshotCreate_signature {snapshot : CreateSnapshot Ctx}
    (read : snapshotCreate input = .ok snapshot) :
    snapshot.signature = canonicalStringify (createRequest snapshot.conversationId snapshot.title snapshot.metadata) := by
  unfold snapshotCreate at read
  simp only [bind, Except.bind, pure, Except.pure] at read
  repeat' split at read
  all_goals cases read
  rfl

/-- A signature has the id that was asked for, or `null`. -/
def Signs (signature : JsString) (conversationId : Option ConversationId) : Prop :=
  ∃ fields : List (String × Json), signature = canonicalStringify (Json.object fields) ∧ (fields.map Prod.fst).Nodup ∧
    fields.lookup "conversationId" = some (conversationId.elim .null fun id => .str id.text)

theorem mutation_signs {operation : CatalogAction} {snapshot : MutationSnapshot Ctx}
    (read : snapshotMutation operation input = .ok snapshot) : Signs snapshot.signature (some snapshot.conversationId) :=
  ⟨_, snapshotMutation_signature read, by simp, rfl⟩

theorem asked_signs {call : CatalogCall Ctx} {request : CatalogRequest Ctx} (asked : call.request = some request) :
    Signs request.signature request.conversationId := by
  cases call with
  | create input =>
    obtain ⟨snapshot, read, rfl⟩ := toOption_map_eq_some asked
    exact ⟨_, snapshotCreate_signature read, by simp, rfl⟩
  | get input => cases asked
  | rename input =>
    obtain ⟨snapshot, read, rfl⟩ := toOption_map_eq_some asked
    exact ⟨_, snapshotRename_signature read, by simp, rfl⟩
  | clear input =>
    obtain ⟨snapshot, read, rfl⟩ := toOption_map_eq_some asked
    exact mutation_signs read
  | archive input =>
    obtain ⟨snapshot, read, rfl⟩ := toOption_map_eq_some asked
    exact mutation_signs read
  | restore input =>
    obtain ⟨snapshot, read, rfl⟩ := toOption_map_eq_some asked
    exact mutation_signs read
  | permanentlyDelete input =>
    obtain ⟨snapshot, read, rfl⟩ := toOption_map_eq_some asked
    exact mutation_signs read

theorem keys_roundTrip_nodup {fields : List (String × Json)} (distinct : (fields.map Prod.fst).Nodup) :
    (Json.keys ((Json.fieldsOf fields).map fun field => (field.1, field.2.roundTrip))).Nodup := by
  have names : Json.keys ((Json.fieldsOf fields).map fun field => (field.1, field.2.roundTrip)) =
      (fields.map Prod.fst).map js := by simp [Json.keys, Json.fieldsOf, Function.comp_def]
  rw [names]
  exact distinct.map fun s t same => js_inj.mp same

theorem Signs.unique {signature : JsString} {left right : Option ConversationId} (signs : Signs signature left)
    (signs' : Signs signature right) : left = right := by
  obtain ⟨fields, rfl, distinct, named⟩ := signs
  obtain ⟨fields', same, distinct', named'⟩ := signs'
  have texts := stringify_canonical_inj.mp same
  rw [Json.object, Json.object, Json.roundTrip_obj, Json.roundTrip_obj] at texts
  have got := Json.canonical_get (keys_roundTrip_nodup distinct) texts (keys_roundTrip_nodup distinct') (js "conversationId")
  rw [Json.lookup_map_snd, Json.lookup_map_snd] at got
  have value {fields : List (String × Json)} {j : Json} (found : fields.lookup "conversationId" = some j) :
      (Json.fieldsOf fields).lookup (js "conversationId") = some j := (Json.get_fieldsOf fields _).trans found
  rw [value named, value named'] at got
  cases left with
  | none =>
    cases right with
    | none => rfl
    | some id' => simp [Json.canonical] at got
  | some id =>
    cases right with
    | none => simp [Json.canonical] at got
    | some id' =>
      obtain ⟨text, valid⟩ := id
      obtain ⟨text', valid'⟩ := id'
      obtain rfl : text = text' := by simpa [Json.canonical] using got
      rfl

/-! ### What is retained -/

def Answering (s : InMemoryConversationCatalog) : Prop :=
  ∀ key kept, s.idempotency.get key = some kept →
    ∃ named, Signs kept.signature named ∧ ∀ id ∈ named, kept.result.conversationId = id

section
variable [DatePlatform] {s t : InMemoryConversationCatalog} {events : List (CatalogEvent Ctx)} {request : CatalogRequest Ctx}

omit [DatePlatform] in
theorem Answering.retain (answering : Answering s) (signs : Signs request.signature request.conversationId)
    {result : CatalogResult} (about : ∀ id ∈ request.conversationId, result.conversationId = id)
    {u : InMemoryConversationCatalog} (kept : u.idempotency = s.idempotency) : Answering (u.retain request result) := by
  intro key record found
  by_cases same : key = request.idempotencyKey
  · simp only [InMemoryConversationCatalog.retain, same, OrderedMap.get_set_self, Option.some.injEq] at found
    rw [← found]
    exact ⟨request.conversationId, signs, about⟩
  · simp only [InMemoryConversationCatalog.retain, OrderedMap.get_set_other _ _ same, kept] at found
    exact answering key record (OrderedMap.get_of_keepNewest found)

theorem Effect.answering {result : CatalogChecked CatalogResult} (effect : Effect s request result t)
    (signs : Signs request.signature request.conversationId) (answering : Answering s) : Answering t := by
  cases effect with
  | failed e => exact answering
  | replayed retained found operation signature => exact answering
  | created d fresh operation unversioned named missing undeleted version timely =>
    refine answering.retain signs ?_ rfl
    exact named
  | updated d next status isUpdate fresh found named expected same version timely =>
    refine answering.retain signs (fun id asked => ?_) rfl
    rw [named] at asked
    exact same.trans (Option.some.inj asked)
  | deleted d last fresh found operation named expected version =>
    refine answering.retain signs (fun id asked => ?_) rfl
    rw [named] at asked
    exact Option.some.inj asked

variable {event : CatalogEvent Ctx}

omit [DatePlatform] in
theorem CatalogEvent.granted_named {id : ConversationId} (asked : event.call.request = some request)
    (allowed : event.reading.allowed = true) (named : request.conversationId = some id) :
    event.granted = some (request.authorizationContext, id) := by
  obtain ⟨call, reading, result⟩ := event
  have mutates : CatalogCall.named call = call.request.bind fun request => request.conversationId.map fun id =>
      (request.authorizationContext, id) := by
    cases call with
    | get input => cases asked
    | create | rename | clear | archive | restore | permanentlyDelete => rfl
  unfold CatalogEvent.granted
  rw [if_pos allowed, mutates, asked]
  simp [named]

omit [DatePlatform] in
theorem asked_context {call : CatalogCall Ctx} (asked : call.request = some request) :
    call.context = some request.authorizationContext := by
  have mutates : call.context = call.request.map fun request => request.authorizationContext := by
    cases call with
    | get input => cases asked
    | create | rename | clear | archive | restore | permanentlyDelete => rfl
  rw [mutates, asked]
  rfl

variable {outcome : CatalogChecked CatalogResult}

theorem Effect.entitled {result : CatalogResult}
    (effect : Effect s request outcome t) (outcomes : event.result = outcome) (answered : outcome = .ok result)
    (asked : event.call.request = some request) (allowed : event.reading.allowed = true) (answering : Answering s)
    (own : event.call.OwnKey events s) :
    Entitled (event :: events) request.authorizationContext result.conversationId := by
  cases effect with
  | failed e => cases answered
  | replayed retained found operation signature =>
    cases answered
    cases named : request.conversationId with
    | none =>
      obtain ⟨earlier, member, created⟩ := own request retained asked named found operation signature
      exact ⟨earlier, List.mem_cons_of_mem _ member, .inl created⟩
    | some id =>
      obtain ⟨about, signs, same⟩ := answering request.idempotencyKey retained found
      obtain rfl : about = some id := (signature ▸ signs).unique (named ▸ asked_signs asked)
      have told : retained.result.again.conversationId = id := same id rfl
      rw [told]
      exact ⟨event, List.mem_cons_self, .inr (event.granted_named asked allowed named)⟩
  | created d fresh operation unversioned named missing undeleted version timely =>
    cases answered
    refine ⟨event, List.mem_cons_self, .inl ?_⟩
    unfold CatalogEvent.creation
    rw [outcomes, asked_context asked]
    rfl
  | updated d next status isUpdate fresh found named expected same version timely =>
    cases answered
    have told : CatalogResult.conversationId ⟨request.operation, status, .descriptor next⟩ = d.conversationId := same
    rw [told]
    exact ⟨event, List.mem_cons_self, .inr (event.granted_named asked allowed named)⟩
  | deleted d last fresh found operation named expected version =>
    cases answered
    exact ⟨event, List.mem_cons_self, .inr (event.granted_named asked allowed named)⟩

/-! ### Who created a conversation -/

def InMemoryConversationCatalog.knows (s : InMemoryConversationCatalog) (id : ConversationId) : Prop :=
  (s.records.get id).isSome ∨ (s.tombstones.get id).isSome

omit [DatePlatform] in
theorem InMemoryConversationCatalog.knows_put {d : CatalogDescriptor} {id : ConversationId} (known : s.knows id) :
    (s.put d).knows id := by
  by_cases same : id = d.conversationId
  · exact .inl (by rw [InMemoryConversationCatalog.put, same, OrderedMap.get_set_self]; rfl)
  · refine known.imp_left fun live => ?_
    rwa [InMemoryConversationCatalog.put, OrderedMap.get_set_other _ _ same]

theorem Effect.knows {id : ConversationId} (effect : Effect s request outcome t)
    (known : s.knows id) : t.knows id := by
  cases effect with
  | failed e => exact known
  | replayed retained found operation signature => exact known
  | created d fresh operation unversioned named missing undeleted version timely => exact s.knows_put known
  | updated d next status isUpdate fresh found named expected same version timely => exact s.knows_put known
  | deleted d last fresh found operation named expected version =>
    by_cases same : id = d.conversationId
    · refine .inr ?_
      rw [same]
      exact congrArg Option.isSome (OrderedMap.get_set_self s.tombstones d.conversationId _)
    · refine known.imp (fun live => ?_) fun buried => ?_
      · exact (congrArg Option.isSome (OrderedMap.get_delete_other s.records same)).trans live
      · exact (congrArg Option.isSome (OrderedMap.get_set_other s.tombstones _ same)).trans buried

/-- An id is made where the catalog has not known it, and is known from then on. -/
theorem Effect.creation {context : Ctx}
    {id : ConversationId} (effect : Effect s request outcome t) (outcomes : event.result = outcome)
    (asked : event.call.request = some request) (creates : event.creation = some (context, id)) :
    context = request.authorizationContext ∧ ¬s.knows id ∧ t.knows id := by
  have told : ∃ result, outcome = .ok result ∧ result.status = .created ∧ request.authorizationContext = context ∧
      result.conversationId = id := by
    unfold CatalogEvent.creation at creates
    rw [outcomes, asked_context asked] at creates
    cases outcome with
    | error e => cases creates
    | ok result =>
      by_cases made : result.status = .created
      · simp only [Except.toOption, Option.bind_eq_bind, Option.bind_some, if_pos made, Option.some.injEq,
          Prod.mk.injEq] at creates
        exact ⟨result, rfl, made, creates.1, creates.2⟩
      · simp [Except.toOption, made] at creates
  obtain ⟨result, answered, made, rfl, rfl⟩ := told
  cases effect with
  | failed e => cases answered
  | replayed retained found operation signature =>
    cases answered
    cases made
  | created d fresh operation unversioned named missing undeleted version timely =>
    cases answered
    refine ⟨rfl, fun known => ?_, .inl ?_⟩
    · rcases known with live | buried
      · exact Option.not_isSome_iff_eq_none.mpr missing live
      · exact Option.not_isSome_iff_eq_none.mpr undeleted buried
    · exact congrArg Option.isSome (OrderedMap.get_set_self s.records d.conversationId d)
  | updated d next status isUpdate fresh found named expected same version timely =>
    cases answered
    cases made
    cases isUpdate
  | deleted d last fresh found operation named expected version =>
    cases answered
    cases made

structure Creations (events : List (CatalogEvent Ctx)) (s : InMemoryConversationCatalog) : Prop where
  known : ∀ event ∈ events, ∀ context id, event.creation = some (context, id) → s.knows id
  single : ∀ event ∈ events, ∀ earlier ∈ events, ∀ context other id, event.creation = some (context, id) →
    earlier.creation = some (other, id) → context = other

theorem Creations.effect
    (creations : Creations events s) (effect : Effect s request outcome t) (outcomes : event.result = outcome)
    (asked : event.call.request = some request) : Creations (event :: events) t where
  known := fun made member context id creates => by
    rcases List.mem_cons.mp member with rfl | member
    · exact (effect.creation outcomes asked creates).2.2
    · exact effect.knows (creations.known made member context id creates)
  single := fun made member earlier member' context other id creates creates' => by
    rcases List.mem_cons.mp member with rfl | before
    · rcases List.mem_cons.mp member' with rfl | before'
      · exact (Prod.mk.inj (Option.some.inj (creates.symm.trans creates'))).1
      · exact ((effect.creation outcomes asked creates).2.1 (creations.known earlier before' _ _ creates')).elim
    · rcases List.mem_cons.mp member' with rfl | before'
      · exact ((effect.creation outcomes asked creates').2.1 (creations.known made before _ _ creates)).elim
      · exact creations.single made before earlier before' context other id creates creates'

omit [DatePlatform] in
theorem Creations.quiet (creations : Creations events s) (quiet : event.creation = none) :
    Creations (event :: events) s where
  known := fun made member context id creates => by
    rcases List.mem_cons.mp member with rfl | member
    · exact (Option.some_ne_none _ (creates.symm.trans quiet)).elim
    · exact creations.known made member context id creates
  single := fun made member earlier member' context other id creates creates' => by
    rcases List.mem_cons.mp member with rfl | member
    · exact (Option.some_ne_none _ (creates.symm.trans quiet)).elim
    · rcases List.mem_cons.mp member' with rfl | member'
      · exact (Option.some_ne_none _ (creates'.symm.trans quiet)).elim
      · exact creations.single made member earlier member' context other id creates creates'

theorem Calls.creations {limits : InMemoryCatalogLimits} (calls : Calls (.new limits) events s) : Creations events s := by
  induction calls with
  | start => exact ⟨fun event member => (List.not_mem_nil member).elim, fun event member => (List.not_mem_nil member).elim⟩
  | call before reading call ih =>
    cases asked : call.request with
    | some request => exact ih.effect (perform_effect before.ledger.sound asked reading) rfl asked
    | none =>
      rcases perform_unasked before.ledger.sound asked reading with ⟨e, failed⟩ | ⟨input, snapshot, d, rfl, -, -, -, found⟩
      · rw [failed]
        exact ih.quiet rfl
      · rw [found]
        exact ih.quiet (by simp [CatalogEvent.creation, Except.toOption])

/-- A request that names no conversation is answered with what its context created, when its key is its own. -/
theorem Effect.own (event : CatalogEvent Ctx) {result : CatalogResult}
    (effect : Effect s request outcome t) (outcomes : event.result = outcome) (answered : outcome = .ok result)
    (asked : event.call.request = some request) (unnamed : request.conversationId = none)
    (own : event.call.OwnKey events s) :
    ∃ made ∈ event :: events, made.creation = some (request.authorizationContext, result.conversationId) := by
  cases effect with
  | failed e => cases answered
  | replayed retained found operation signature =>
    cases answered
    obtain ⟨earlier, member, created⟩ := own request retained asked unnamed found operation signature
    exact ⟨earlier, List.mem_cons_of_mem _ member, created⟩
  | created d fresh operation unversioned named missing undeleted version timely =>
    cases answered
    refine ⟨event, List.mem_cons_self, ?_⟩
    unfold CatalogEvent.creation
    rw [outcomes, asked_context asked]
    rfl
  | updated d next status isUpdate fresh found named expected same version timely =>
    rw [named] at unnamed
    cases unnamed
  | deleted d last fresh found operation named expected version =>
    rw [named] at unnamed
    cases unnamed

theorem OwnCalls.calls {s t : InMemoryConversationCatalog} (own : OwnCalls s events t) : Calls s events t := by
  induction own with
  | start => exact .start
  | call before reading call own ih => exact .call ih reading call

theorem Calls.answering {limits : InMemoryCatalogLimits} (calls : Calls (.new limits) events s) : Answering s := by
  induction calls with
  | start => exact fun key kept found => (Option.some_ne_none kept found.symm).elim
  | call before reading call ih =>
    cases asked : call.request with
    | some request => exact (perform_effect before.ledger.sound asked reading).answering (asked_signs asked) ih
    | none =>
      rcases perform_unasked before.ledger.sound asked reading with ⟨e, failed⟩ | ⟨input, snapshot, d, -, -, -, -, found⟩
      · rw [failed]
        exact ih
      · rw [found]
        exact ih

/-- Whatever the authorizer allows, every result is about a conversation that its context created or was allowed for by name,
in a run where no request without an id finds the create of another context under its key. -/
theorem disclosures {limits : InMemoryCatalogLimits} (own : OwnCalls (.new limits) events s) : Disclosures events := by
  induction own with
  | start => trivial
  | @call events t before reading call own ih =>
    refine ⟨fun result answered => ?_, ih⟩
    have sound := before.calls.ledger.sound
    have reached := Calls.call before.calls reading call
    cases asked : call.request with
    | some request =>
      have effect := perform_effect sound asked reading
      refine ⟨⟨request.authorizationContext, asked_context asked, ?_⟩, fun same again unnamed => ?_⟩
      · cases allowed : reading.allowed with
        | false =>
          rw [perform_refused asked allowed] at answered
          cases answered
        | true => exact effect.entitled rfl answered asked allowed before.calls.answering own
      · obtain rfl : request = same := Option.some.inj again
        obtain ⟨made, member, created⟩ := effect.own ⟨call, reading, _⟩ rfl answered asked unnamed own
        exact ⟨⟨made, member, created⟩, fun event there other creates =>
          reached.creations.single event there made member other _ _ creates created⟩
    | none =>
      refine ⟨?_, fun request again => by cases again⟩
      rcases perform_unasked sound asked reading with ⟨e, failed⟩ | ⟨input, snapshot, d, rfl, read, allowed, named, found⟩
      · rw [failed] at answered
        cases answered
      · rw [found] at answered
        cases answered
        refine ⟨snapshot.authorizationContext, ?_, ⟨_, List.mem_cons_self, .inr ?_⟩⟩
        · simp only [CatalogCall.context, read, Except.toOption, Option.map_some]
        · simp only [CatalogEvent.granted, allowed, CatalogCall.named, read, Except.toOption, Option.map_some]
          rw [if_pos trivial, ← named]
          rfl

end

/-- A context makes a conversation, asks for it again under the same key, and archives it by name. -/
theorem disclosures_archived : ∃ (_ : DatePlatform) (events : List (CatalogEvent Bool)) (s : _),
    OwnCalls (.new sampleLimits) events s ∧
    events.map (fun event => event.result.toOption.map CatalogResult.status) =
      [some .archived, some .idempotent, some .created] ∧
    Disclosures events := by
  let _ := isoDates
  have first : (sampleCreate true).OwnKey [] (.new sampleLimits) := fun request kept asked named found =>
    (Option.some_ne_none kept found.symm).elim
  have creates : CatalogEvent.creation ⟨sampleCreate true, sampleReading, (perform sampleReading (sampleCreate true)
      (.new sampleLimits)).1⟩ = some (true, sampleId) := by decide +kernel
  have retains : (sampleCreate true).request.map (fun request => (request.authorizationContext,
      ((perform sampleReading (sampleCreate true) (.new sampleLimits)).2.idempotency.get request.idempotencyKey).map
        fun kept => kept.result.conversationId)) = some (true, some sampleId) := by decide +kernel
  have again : (sampleCreate true).OwnKey [⟨sampleCreate true, sampleReading, (perform sampleReading (sampleCreate true)
      (.new sampleLimits)).1⟩] (perform sampleReading (sampleCreate true) (.new sampleLimits)).2 := by
    intro request kept asked unnamed found operation signature
    rw [asked, Option.map_some, found, Option.map_some] at retains
    obtain ⟨context, id⟩ := Prod.mk.inj (Option.some.inj retains)
    exact ⟨_, List.mem_cons_self, by rw [creates, context, Option.some.inj id]⟩
  have names : (sampleArchive true).request.map (fun request => request.conversationId.isSome) = some true := by
    decide +kernel
  have archived (events : List (CatalogEvent Bool)) (s : InMemoryConversationCatalog) : (sampleArchive true).OwnKey events s := by
    intro request kept asked unnamed
    rw [asked, Option.map_some, unnamed] at names
    cases names
  have own : OwnCalls (.new sampleLimits) _ _ :=
    .call (.call (.call .start sampleReading (sampleCreate true) first) sampleReading (sampleCreate true) again)
      sampleReading (sampleArchive true) (archived _ _)
  exact ⟨_, _, _, own, by decide +kernel, disclosures own⟩

/-- Another context that sends the same create gets the conversation of the first. -/
theorem foreign_conversation_answered : ∃ (_ : DatePlatform) (events : List (CatalogEvent Bool)) (s : _),
    Calls (.new sampleLimits) events s ∧ events.map CatalogEvent.call = [sampleCreate false, sampleCreate true] ∧
    ¬Disclosures events := by
  let _ := isoDates
  have calls : Calls (.new sampleLimits) _ _ :=
    .call (.call .start sampleReading (sampleCreate true)) sampleReading (sampleCreate false)
  refine ⟨_, _, _, calls, rfl, fun disclosed => ?_⟩
  generalize first : perform sampleReading (sampleCreate true) (.new sampleLimits) = before at disclosed
  generalize second : perform sampleReading (sampleCreate false) before.2 = after at disclosed
  have answers : before.1.toOption.map CatalogResult.status = some .created ∧
      after.1.toOption.map CatalogResult.status = some .idempotent := by
    rw [← second, ← first]
    decide +kernel
  have unnamed : (sampleCreate false).named = none ∧ (sampleCreate true).named = none ∧
      (sampleCreate false).context = some false ∧ (sampleCreate true).context = some true := by decide +kernel
  obtain ⟨result, answered⟩ : ∃ result, after.1 = .ok result := by
    cases outcome : after.1 with
    | error e =>
      rw [outcome] at answers
      cases answers.2
    | ok result => exact ⟨result, rfl⟩
  obtain ⟨context, asks, event, member, creates | grants⟩ := (disclosed.1 result answered).1
  · obtain rfl : context = false := Option.some.inj (asks.symm.trans unnamed.2.2.1)
    rcases List.mem_cons.mp member with rfl | member
    · rw [answered] at answers
      have again : result.status = .idempotent := Option.some.inj answers.2
      simp [CatalogEvent.creation, answered, unnamed.2.2.1, again, Except.toOption] at creates
    · obtain rfl := List.mem_singleton.mp member
      cases made : before.1 <;> simp [CatalogEvent.creation, made, unnamed.2.2.2, Except.toOption] at creates
  · rcases List.mem_cons.mp member with rfl | member
    · simp [CatalogEvent.granted, unnamed.1] at grants
    · obtain rfl := List.mem_singleton.mp member
      simp [CatalogEvent.granted, unnamed.2.1] at grants

end Handrail.Catalog

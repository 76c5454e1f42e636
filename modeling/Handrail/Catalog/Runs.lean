import Handrail.Catalog.Steps

/-!
# Runs of the catalog

What holds of a catalog after any calls, with the calls that were made of it.
-/

namespace Handrail.Catalog
open Js Conversation

variable {Ctx : Type}

/-! ### What every step keeps -/

section
variable [DatePlatform] {s t : InMemoryConversationCatalog} {request : CatalogRequest Ctx}

theorem sound_new (limits : InMemoryCatalogLimits) : (InMemoryConversationCatalog.new limits).Sound where
  timely := fun id d found => by cases found
  keyed := fun id d found => by cases found
  buried := fun id tombstone found => by cases found
  retained := fun key record d found => by cases found

theorem InMemoryConversationCatalog.Sound.undeleted (sound : s.Sound) {id : ConversationId} {d : CatalogDescriptor}
    (live : s.records.get id = some d) : s.tombstones.get id = none := by
  cases deleted : s.tombstones.get id with
  | none => rfl
  | some tombstone =>
    rw [sound.buried id tombstone deleted] at live
    cases live

theorem InMemoryConversationCatalog.Sound.put (sound : s.Sound) {d : CatalogDescriptor} (timely : d.timely = true)
    (undeleted : s.tombstones.get d.conversationId = none) : (s.put d).Sound where
  timely := fun id other found => by
    by_cases same : id = d.conversationId
    · simp only [InMemoryConversationCatalog.put, same, OrderedMap.get_set_self, Option.some.injEq] at found
      exact found ▸ timely
    · simp only [InMemoryConversationCatalog.put, OrderedMap.get_set_other _ _ same] at found
      exact sound.timely id other found
  keyed := fun id other found => by
    by_cases same : id = d.conversationId
    · simp only [InMemoryConversationCatalog.put, same, OrderedMap.get_set_self, Option.some.injEq] at found
      rw [← found, same]
    · simp only [InMemoryConversationCatalog.put, OrderedMap.get_set_other _ _ same] at found
      exact sound.keyed id other found
  buried := fun id tombstone found => by
    have different : id ≠ d.conversationId := fun same => by
      rw [same] at found
      exact Option.some_ne_none tombstone (found.symm.trans undeleted)
    simp only [InMemoryConversationCatalog.put, OrderedMap.get_set_other _ _ different]
    exact sound.buried id tombstone found
  retained := sound.retained

theorem InMemoryConversationCatalog.Sound.bury (sound : s.Sound) (id : ConversationId) (result : CatalogResult) :
    (s.bury id result).Sound where
  timely := fun other d found => sound.timely other d (OrderedMap.get_of_delete found)
  keyed := fun other d found => sound.keyed other d (OrderedMap.get_of_delete found)
  buried := fun other tombstone found => by
    by_cases same : other = id
    · rw [same]
      exact OrderedMap.get_delete_self s.records id
    · simp only [InMemoryConversationCatalog.bury, OrderedMap.get_set_other _ _ same] at found
      exact (OrderedMap.get_delete_other s.records same).trans (sound.buried other tombstone found)
  retained := sound.retained

theorem InMemoryConversationCatalog.Sound.retain (sound : s.Sound) (request : CatalogRequest Ctx) {result : CatalogResult}
    (timely : result.Timely) : (s.retain request result).Sound where
  timely := sound.timely
  keyed := sound.keyed
  buried := sound.buried
  retained := fun key record d found subject => by
    by_cases same : key = request.idempotencyKey
    · simp only [InMemoryConversationCatalog.retain, same, OrderedMap.get_set_self, Option.some.injEq] at found
      rw [← found] at subject
      exact timely d subject
    · simp only [InMemoryConversationCatalog.retain, OrderedMap.get_set_other _ _ same] at found
      exact sound.retained key record d (OrderedMap.get_of_keepNewest found) subject

theorem timely_descriptor {operation : CatalogAction} {status : CatalogStatus} {d : CatalogDescriptor}
    (timely : d.timely = true) : (⟨operation, status, .descriptor d⟩ : CatalogResult).Timely := fun other subject => by
  cases subject
  exact timely

theorem Effect.sound {result : CatalogChecked CatalogResult} (effect : Effect s request result t) (sound : s.Sound) :
    t.Sound := by
  cases effect with
  | failed e => exact sound
  | replayed retained found operation signature => exact sound
  | created d fresh operation unversioned named missing undeleted version timely =>
    exact (sound.put timely undeleted).retain request (timely_descriptor timely)
  | updated d next status isUpdate fresh found named expected same version timely =>
    exact (sound.put timely (same ▸ sound.undeleted found)).retain request (timely_descriptor timely)
  | deleted d last fresh found operation named expected version =>
    exact (sound.bury d.conversationId _).retain request fun d subject => by cases subject

theorem Effect.retained_same {result : CatalogChecked CatalogResult} (effect : Effect s request result t) {key : CatalogKey}
    {before after : CatalogIdempotencyRecord} (old : s.idempotency.get key = some before)
    (new : t.idempotency.get key = some after) : after = before := by
  have unchanged {u : InMemoryConversationCatalog} {r : CatalogResult} (fresh : s.idempotency.get request.idempotencyKey = none)
      (kept : u.idempotency = s.idempotency) (found : (u.retain request r).idempotency.get key = some after) :
      after = before := by
    have different : key ≠ request.idempotencyKey := fun same => by
      rw [same] at old
      exact Option.some_ne_none before (old.symm.trans fresh)
    simp only [InMemoryConversationCatalog.retain, OrderedMap.get_set_other _ _ different, kept] at found
    exact Option.some.inj ((OrderedMap.get_of_keepNewest found).symm.trans old)
  cases effect with
  | failed e => exact Option.some.inj (new.symm.trans old)
  | replayed retained found operation signature => exact Option.some.inj (new.symm.trans old)
  | created d fresh operation unversioned named missing undeleted version timely => exact unchanged fresh rfl new
  | updated d next status isUpdate fresh found named expected same version timely => exact unchanged fresh rfl new
  | deleted d last fresh found operation named expected version => exact unchanged fresh rfl new

theorem Effect.success_retained {r : CatalogResult} (effect : Effect s request (.ok r) t) :
    ∃ kept, t.idempotency.get request.idempotencyKey = some ⟨request.operation, request.signature, kept⟩ ∧
      kept.again = r.again := by
  have self (u : InMemoryConversationCatalog) (result : CatalogResult) :
      (u.retain request result).idempotency.get request.idempotencyKey =
        some ⟨request.operation, request.signature, result⟩ := OrderedMap.get_set_self _ _ _
  cases effect with
  | replayed retained found operation signature =>
    refine ⟨retained.result, ?_, rfl⟩
    rw [found, ← operation, ← signature]
  | created d fresh operation unversioned named missing undeleted version timely => exact ⟨_, self _ _, rfl⟩
  | updated d next status isUpdate fresh found named expected same version timely => exact ⟨_, self _ _, rfl⟩
  | deleted d last fresh found operation named expected version => exact ⟨_, self _ _, rfl⟩

end

/-! ### Runs -/

structure CatalogEvent (Ctx : Type) where
  call : CatalogCall Ctx
  reading : CatalogReading
  result : CatalogChecked CatalogResult

inductive Calls [DatePlatform] (s : InMemoryConversationCatalog) : List (CatalogEvent Ctx) → InMemoryConversationCatalog → Prop
  | start : Calls s [] s
  | call {events : List (CatalogEvent Ctx)} {t : InMemoryConversationCatalog} (before : Calls s events t)
      (reading : CatalogReading) (call : CatalogCall Ctx) :
      Calls s (⟨call, reading, (perform reading call t).1⟩ :: events) (perform reading call t).2

def CatalogEvent.updated (event : CatalogEvent Ctx) : Option ConversationId :=
  (event.result.toOption.filter fun result => result.status.isUpdate).map CatalogResult.conversationId

def CatalogEvent.deleted (event : CatalogEvent Ctx) : Option ConversationId :=
  (event.result.toOption.filter fun result => result.status == .deleted).map CatalogResult.conversationId

def CatalogEvent.taken (event : CatalogEvent Ctx) : Option (ConversationId × CatalogVersion) := do
  let result ← event.result.toOption
  let request ← event.call.request
  let id ← request.conversationId
  let version ← request.expectedVersion
  if result.status = .idempotent then none else some (id, version)

section
variable {event : CatalogEvent Ctx}

theorem CatalogEvent.failed_quiet {e : CatalogError} (failed : event.result = .error e) :
    event.updated = none ∧ event.deleted = none ∧ event.taken = none := by
  simp only [CatalogEvent.updated, CatalogEvent.deleted, CatalogEvent.taken, failed, Except.toOption]
  exact ⟨rfl, rfl, rfl⟩

theorem CatalogEvent.again_quiet {result : CatalogResult} (answered : event.result = .ok result.again) :
    event.updated = none ∧ event.deleted = none ∧ event.taken = none := by
  refine ⟨?_, ?_, ?_⟩
  · simp only [CatalogEvent.updated, answered, Except.toOption]
    rfl
  · simp only [CatalogEvent.deleted, answered, Except.toOption]
    rfl
  · unfold CatalogEvent.taken
    rw [answered]
    simp [Except.toOption, CatalogResult.again]

theorem CatalogEvent.deleted_update {result : CatalogResult} (answered : event.result = .ok result)
    (isUpdate : result.status.isUpdate = true) : event.deleted = none := by
  have other : (result.status == .deleted) = false := by
    cases status : result.status <;> first | rfl | (rw [status] at isUpdate; cases isUpdate)
  simp [CatalogEvent.deleted, answered, Except.toOption, Option.filter, other]

theorem CatalogEvent.taken_named {request : CatalogRequest Ctx} {result : CatalogResult} {id : ConversationId}
    {version : CatalogVersion} (asked : event.call.request = some request) (answered : event.result = .ok result)
    (status : result.status ≠ .idempotent) (named : request.conversationId = some id)
    (expected : request.expectedVersion = some version) : event.taken = some (id, version) := by
  unfold CatalogEvent.taken
  rw [answered, asked]
  simp [Except.toOption, named, expected, status]

end

def updates (events : List (CatalogEvent Ctx)) (id : ConversationId) : Nat := (events.filterMap CatalogEvent.updated).count id

structure Ledger [DatePlatform] (events : List (CatalogEvent Ctx)) (s : InMemoryConversationCatalog) : Prop where
  sound : s.Sound
  counted : ∀ id d, s.records.get id = some d → d.version.value = 1 + updates events id
  known : ∀ id ∈ events.filterMap CatalogEvent.updated, (s.records.get id).isSome ∨ (s.tombstones.get id).isSome
  spent : ∀ id version, (id, version) ∈ events.filterMap CatalogEvent.taken →
    (∃ d, s.records.get id = some d ∧ version.value < d.version.value) ∨ (s.tombstones.get id).isSome
  once : (events.filterMap CatalogEvent.taken).Nodup
  gone : ∀ id ∈ events.filterMap CatalogEvent.deleted, (s.tombstones.get id).isSome

section
variable [DatePlatform] {s : InMemoryConversationCatalog} {events : List (CatalogEvent Ctx)} {event : CatalogEvent Ctx}

theorem Ledger.quiet (ledger : Ledger events s) (updated : event.updated = none) (deleted : event.deleted = none)
    (taken : event.taken = none) : Ledger (event :: events) s where
  sound := ledger.sound
  counted := fun id d live => by
    rw [ledger.counted id d live, updates, updates, List.filterMap_cons_none updated]
  known := by
    rw [List.filterMap_cons_none updated]
    exact ledger.known
  spent := by
    rw [List.filterMap_cons_none taken]
    exact ledger.spent
  once := by
    rw [List.filterMap_cons_none taken]
    exact ledger.once
  gone := by
    rw [List.filterMap_cons_none deleted]
    exact ledger.gone

theorem Ledger.made {t : InMemoryConversationCatalog} {d : CatalogDescriptor} (ledger : Ledger events s) (sound : t.Sound)
    (records : t.records = s.records.set d.conversationId d) (tombstones : t.tombstones = s.tombstones)
    (missing : s.records.get d.conversationId = none) (undeleted : s.tombstones.get d.conversationId = none)
    (version : d.version.value = 1) (updated : event.updated = none) (deleted : event.deleted = none)
    (taken : event.taken = none) : Ledger (event :: events) t where
  sound := sound
  counted := fun id other live => by
    rw [updates, List.filterMap_cons_none updated]
    rw [records] at live
    by_cases same : id = d.conversationId
    · rw [same, OrderedMap.get_set_self] at live
      have unknown : id ∉ events.filterMap CatalogEvent.updated := fun member => by
        have known := ledger.known id member
        rw [same, missing, undeleted] at known
        simp at known
      rw [← Option.some.inj live, version, List.count_eq_zero_of_not_mem unknown]
    · rw [OrderedMap.get_set_other _ _ same] at live
      exact ledger.counted id other live
  known := fun id member => by
    rw [List.filterMap_cons_none updated] at member
    rw [records, tombstones]
    by_cases same : id = d.conversationId
    · rw [same, OrderedMap.get_set_self]
      exact .inl rfl
    · rw [OrderedMap.get_set_other _ _ same]
      exact ledger.known id member
  spent := fun id expected member => by
    rw [List.filterMap_cons_none taken] at member
    rw [records, tombstones]
    rcases ledger.spent id expected member with ⟨other, live, below⟩ | buried
    · have different : id ≠ d.conversationId := fun same => by
        rw [same, missing] at live
        cases live
      exact .inl ⟨other, (OrderedMap.get_set_other _ _ different).trans live, below⟩
    · exact .inr buried
  once := by
    rw [List.filterMap_cons_none taken]
    exact ledger.once
  gone := by
    rw [List.filterMap_cons_none deleted, tombstones]
    exact ledger.gone

theorem Ledger.untaken {d : CatalogDescriptor} (ledger : Ledger events s)
    (found : s.records.get d.conversationId = some d) :
    (d.conversationId, d.version) ∉ events.filterMap CatalogEvent.taken := fun member => by
  rcases ledger.spent d.conversationId d.version member with ⟨other, live, below⟩ | buried
  · rw [found] at live
    rw [← Option.some.inj live] at below
    exact Nat.lt_irrefl _ below
  · rw [ledger.sound.undeleted found] at buried
    cases buried

theorem Ledger.changed {t : InMemoryConversationCatalog} {d next : CatalogDescriptor} (ledger : Ledger events s)
    (sound : t.Sound) (records : t.records = s.records.set next.conversationId next) (tombstones : t.tombstones = s.tombstones)
    (found : s.records.get d.conversationId = some d) (same : next.conversationId = d.conversationId)
    (version : next.version.value = d.version.value + 1) (updated : event.updated = some d.conversationId)
    (deleted : event.deleted = none) (taken : event.taken = some (d.conversationId, d.version)) :
    Ledger (event :: events) t where
  sound := sound
  counted := fun id other live => by
    rw [updates, List.filterMap_cons_some updated, List.count_cons]
    rw [records, same] at live
    by_cases here : id = d.conversationId
    · rw [here, OrderedMap.get_set_self] at live
      rw [← Option.some.inj live, version, ledger.counted _ d found, here, beq_self_eq_true, if_pos rfl, updates]
      omega
    · rw [OrderedMap.get_set_other _ _ here] at live
      rw [ledger.counted id other live, updates, if_neg (by simpa using Ne.symm here)]
      rfl
  known := fun id member => by
    rw [List.filterMap_cons_some updated] at member
    rw [records, tombstones, same]
    by_cases here : id = d.conversationId
    · rw [here, OrderedMap.get_set_self]
      exact .inl rfl
    · rw [OrderedMap.get_set_other _ _ here]
      exact ledger.known id ((List.mem_cons.mp member).resolve_left here)
  spent := fun id expected member => by
    rw [List.filterMap_cons_some taken] at member
    rw [records, tombstones, same]
    rcases List.mem_cons.mp member with first | earlier
    · obtain ⟨rfl, rfl⟩ := Prod.mk.inj first
      exact .inl ⟨next, OrderedMap.get_set_self _ _ _, by omega⟩
    · rcases ledger.spent id expected earlier with ⟨other, live, below⟩ | buried
      · by_cases here : id = d.conversationId
        · rw [here, found] at live
          obtain rfl := Option.some.inj live
          rw [here]
          exact .inl ⟨next, OrderedMap.get_set_self _ _ _, by omega⟩
        · exact .inl ⟨other, (OrderedMap.get_set_other _ _ here).trans live, below⟩
      · exact .inr buried
  once := by
    rw [List.filterMap_cons_some taken]
    exact List.nodup_cons.mpr ⟨ledger.untaken found, ledger.once⟩
  gone := by
    rw [List.filterMap_cons_none deleted, tombstones]
    exact ledger.gone

theorem Ledger.removed {t : InMemoryConversationCatalog} {d : CatalogDescriptor} {result : CatalogResult}
    (ledger : Ledger events s) (sound : t.Sound) (records : t.records = s.records.delete d.conversationId)
    (tombstones : t.tombstones = s.tombstones.set d.conversationId result)
    (found : s.records.get d.conversationId = some d) (updated : event.updated = none)
    (deleted : event.deleted = some d.conversationId) (taken : event.taken = some (d.conversationId, d.version)) :
    Ledger (event :: events) t := by
  have stays (id : ConversationId) (buried : (s.tombstones.get id).isSome) : (t.tombstones.get id).isSome := by
    rw [tombstones]
    by_cases here : id = d.conversationId
    · rw [here, OrderedMap.get_set_self]
      rfl
    · rwa [OrderedMap.get_set_other _ _ here]
  have here : (t.tombstones.get d.conversationId).isSome := by
    rw [tombstones, OrderedMap.get_set_self]
    rfl
  refine ⟨sound, fun id other live => ?_, fun id member => ?_, fun id expected member => ?_, ?_, fun id member => ?_⟩
  · rw [updates, List.filterMap_cons_none updated]
    rw [records] at live
    exact ledger.counted id other (OrderedMap.get_of_delete live)
  · rw [List.filterMap_cons_none updated] at member
    by_cases same : id = d.conversationId
    · exact .inr (same ▸ here)
    · rw [records, OrderedMap.get_delete_other _ same]
      exact (ledger.known id member).imp_right (stays id)
  · rw [List.filterMap_cons_some taken] at member
    by_cases same : id = d.conversationId
    · exact .inr (same ▸ here)
    · have earlier := (List.mem_cons.mp member).resolve_left fun first => same (Prod.mk.inj first).1
      rw [records, OrderedMap.get_delete_other _ same]
      exact (ledger.spent id expected earlier).imp_right (stays id)
  · rw [List.filterMap_cons_some taken]
    exact List.nodup_cons.mpr ⟨ledger.untaken found, ledger.once⟩
  · rw [List.filterMap_cons_some deleted] at member
    rcases List.mem_cons.mp member with rfl | earlier
    · exact here
    · exact stays id (ledger.gone id earlier)

theorem Ledger.effect {t : InMemoryConversationCatalog} {request : CatalogRequest Ctx} (ledger : Ledger events s)
    (asked : event.call.request = some request) (effect : Effect s request event.result t) : Ledger (event :: events) t := by
  have sound := effect.sound ledger.sound
  generalize outcome : event.result = result at effect
  cases effect with
  | failed e =>
    obtain ⟨updated, deleted, taken⟩ := CatalogEvent.failed_quiet outcome
    exact ledger.quiet updated deleted taken
  | replayed retained found operation signature =>
    obtain ⟨updated, deleted, taken⟩ := CatalogEvent.again_quiet outcome
    exact ledger.quiet updated deleted taken
  | created d fresh operation unversioned named missing undeleted version timely =>
    have updated : event.updated = none := by
      simp [CatalogEvent.updated, outcome, Except.toOption, Option.filter, CatalogStatus.isUpdate]
    have deleted : event.deleted = none := by simp [CatalogEvent.deleted, outcome, Except.toOption, Option.filter]
    have taken : event.taken = none := by
      unfold CatalogEvent.taken
      rw [outcome, asked]
      cases request.conversationId <;> simp [Except.toOption, unversioned]
    exact ledger.made sound rfl rfl missing undeleted version updated deleted taken
  | updated d next status isUpdate fresh found named expected same version timely =>
    have updated : event.updated = some d.conversationId := by
      simp [CatalogEvent.updated, outcome, Except.toOption, Option.filter, isUpdate, CatalogResult.conversationId, same]
    have deleted := CatalogEvent.deleted_update outcome isUpdate
    have taken := CatalogEvent.taken_named asked outcome (by rintro rfl; cases isUpdate) named expected
    exact ledger.changed sound rfl rfl found same version updated deleted taken
  | deleted d last fresh found operation named expected version =>
    have updated : event.updated = none := by
      simp [CatalogEvent.updated, outcome, Except.toOption, Option.filter, CatalogStatus.isUpdate]
    have deleted : event.deleted = some d.conversationId := by
      simp [CatalogEvent.deleted, outcome, Except.toOption, Option.filter, CatalogResult.conversationId]
    have taken := CatalogEvent.taken_named asked outcome (by simp) named expected
    exact ledger.removed sound rfl rfl found updated deleted taken

/-- A call adds its own effect to the ledger, and nothing else. -/
theorem Ledger.step (ledger : Ledger events s) (reading : CatalogReading) (call : CatalogCall Ctx) :
    Ledger (⟨call, reading, (perform reading call s).1⟩ :: events) (perform reading call s).2 := by
  cases asked : call.request with
  | some request => exact ledger.effect asked (perform_effect ledger.sound asked reading)
  | none =>
    rcases perform_unasked ledger.sound asked reading with ⟨e, failed⟩ | ⟨input, snapshot, d, -, -, -, -, found⟩
    · rw [failed]
      obtain ⟨updated, deleted, taken⟩ :=
        CatalogEvent.failed_quiet (rfl : (⟨call, reading, .error e⟩ : CatalogEvent Ctx).result = .error e)
      exact ledger.quiet updated deleted taken
    · rw [found]
      refine ledger.quiet rfl rfl ?_
      unfold CatalogEvent.taken
      rw [asked]
      rfl

theorem Calls.ledger {limits : InMemoryCatalogLimits} (calls : Calls (.new limits) events s) : Ledger events s := by
  induction calls with
  | start =>
    exact ⟨sound_new limits, fun id d live => (Option.some_ne_none d live.symm).elim,
      fun id member => (List.not_mem_nil member).elim, fun id version member => (List.not_mem_nil member).elim,
      List.nodup_nil, fun id member => (List.not_mem_nil member).elim⟩
  | call before reading call ih => exact ih.step reading call

theorem Calls.trans {t u : InMemoryConversationCatalog} {later : List (CatalogEvent Ctx)} (first : Calls s events t)
    (second : Calls t later u) : Calls s (later ++ events) u := by
  induction second with
  | start => exact first
  | call before reading call ih => exact .call ih reading call

theorem perform_cases (sound : s.Sound) (reading : CatalogReading) (call : CatalogCall Ctx) :
    (perform reading call s).2 = s ∨
    ∃ request, call.request = some request ∧ Effect s request (perform reading call s).1 (perform reading call s).2 := by
  cases asked : call.request with
  | some request => exact .inr ⟨request, rfl, perform_effect sound asked reading⟩
  | none =>
    rcases perform_unasked sound asked reading with ⟨e, failed⟩ | ⟨input, snapshot, d, -, -, -, -, found⟩
    · exact .inl (congrArg Prod.snd failed)
    · exact .inl (congrArg Prod.snd found)

theorem Effect.failed_same {t : InMemoryConversationCatalog} {request : CatalogRequest Ctx}
    {result : CatalogChecked CatalogResult} {e : CatalogError} (effect : Effect s request result t)
    (failed : result = .error e) : t = s := by
  cases effect with
  | failed e => rfl
  | replayed retained found operation signature => rfl
  | created d fresh operation unversioned named missing undeleted version timely => cases failed
  | updated d next status isUpdate fresh found named expected same version timely => cases failed
  | deleted d last fresh found operation named expected version => cases failed

/-- A catalog after any calls: its descriptors are valid and count their updates, no version is taken twice, what is deleted
stays deleted, a call that fails changes nothing, and a retained result is answered again. -/
theorem catalog_state_machine {limits : InMemoryCatalogLimits} (calls : Calls (.new limits) events s) :
    (∀ id d, s.records.get id = some d → d.conversationId = id ∧ parseConversationCatalogDescriptor d.toJson = .ok d ∧
      d.version.value = 1 + updates events id) ∧
    (events.filterMap CatalogEvent.taken).Nodup ∧
    (∀ id ∈ events.filterMap CatalogEvent.deleted, s.records.get id = none) ∧
    ∀ (reading : CatalogReading) (call : CatalogCall Ctx) (result : CatalogChecked CatalogResult)
      (t : InMemoryConversationCatalog), perform reading call s = (result, t) →
      (∀ e, result = .error e → t = s) ∧
      (∀ key before after, s.idempotency.get key = some before → t.idempotency.get key = some after → after = before) ∧
      ∀ answer request, result = .ok answer → call.request = some request →
        ∃ kept, t.idempotency.get request.idempotencyKey = some kept ∧
          ∀ (later : List (CatalogEvent Ctx)) (u : InMemoryConversationCatalog) (reading : CatalogReading), Calls t later u →
            u.idempotency.get request.idempotencyKey = some kept → reading.allowed = true →
            perform reading call u = (.ok answer.again, u) := by
  have ledger := calls.ledger
  have sound := ledger.sound
  refine ⟨fun id d live => ⟨sound.keyed id d live, ?_, ledger.counted id d live⟩, ledger.once, fun id member => ?_,
    fun reading call result t performed => ?_⟩
  · rw [parse_toJson, if_pos (sound.timely id d live)]
  · obtain ⟨tombstone, buried⟩ := Option.isSome_iff_exists.mp (ledger.gone id member)
    exact sound.buried id tombstone buried
  · have reached := Calls.call calls reading call
    have does := perform_cases sound reading call
    rw [performed] at reached does
    refine ⟨fun e failed => ?_, fun key before after old new => ?_, fun answer request answered asked => ?_⟩
    · rcases does with same | ⟨request, -, effect⟩
      · exact same
      · exact effect.failed_same failed
    · rcases does with same | ⟨request, -, effect⟩
      · obtain rfl : t = s := same
        exact Option.some.inj (new.symm.trans old)
      · exact effect.retained_same old new
    · have effect := perform_effect sound asked reading
      rw [performed, answered] at effect
      obtain ⟨kept, retained, same⟩ := effect.success_retained
      refine ⟨_, retained, fun later u reading later_calls found allowed => ?_⟩
      have repeated := perform_replayed (reached.trans later_calls).ledger.sound asked allowed found rfl rfl
      rwa [same] at repeated

end

def sampleLimits : InMemoryCatalogLimits := ⟨3, 2, 2, by decide, by decide, by decide⟩

def sampleReading : CatalogReading := ⟨true, some (js "2026-01-01T00:00:00.000Z"), some (.str (js "c"))⟩

def sampleCreate (context : Bool) : CatalogCall Bool := .create ⟨Json.object [("idempotencyKey", .str (js "k"))], some context⟩

def sampleArchive (context : Bool) : CatalogCall Bool := .archive ⟨Json.object [("conversationId", .str (js "c")),
  ("expectedVersion", .num (.ofNat 1)), ("idempotencyKey", .str (js "a"))], some context⟩

def sampleId : ConversationId := ⟨js "c", by decide +kernel⟩

/-- A conversation is created and archived. -/
theorem catalog_state_machine_archived : ∃ (_ : DatePlatform) (events : List (CatalogEvent Bool)) (s : _),
    Calls (.new sampleLimits) events s ∧ events.length = 2 ∧ ∃ id d, s.records.get id = some d ∧ d.isActive = false ∧
      parseConversationCatalogDescriptor d.toJson = .ok d ∧ d.version.value = 1 + updates events id := by
  let _ := isoDates
  have calls : Calls (.new sampleLimits) _ _ :=
    .call (.call .start sampleReading (sampleCreate true)) sampleReading (sampleArchive true)
  have live : ((perform sampleReading (sampleArchive true)
      (perform sampleReading (sampleCreate true) (.new sampleLimits)).2).2.records.get sampleId).map
        CatalogDescriptor.isActive = some false := by decide +kernel
  obtain ⟨d, found, archived⟩ := Option.map_eq_some_iff.mp live
  obtain ⟨-, parsed, version⟩ := (catalog_state_machine calls).1 sampleId d found
  exact ⟨_, _, _, calls, rfl, sampleId, d, found, archived, parsed, version⟩

end Handrail.Catalog

import Handrail.JsonEquality
import Handrail.Js.JsonText
import Handrail.Conversation.Log
import Mathlib.Data.List.Perm.Subperm

/-!
# `event-store.ts`: the in-memory store

A store keeps the events of every conversation in order, and finds a stored event by its identity or
by that of its client mutation. An append is atomic, and a complete retry answers what is stored.
-/

namespace Handrail.Conversation
open Js

/-! ### Equality -/

mutual
/-- `jsonEqual` of `event-store.ts` -/
def jsonEqual : Json → Json → Bool
  | .arr left, .arr right => left.length == right.length && itemsEqual left right
  | .obj left, .obj right => left.length == right.length && fieldsEqual left right
  | .null, .null => true
  | .bool left, .bool right => left == right
  | .num left, .num right => JsNumber.strictEqual left right
  | .str left, .str right => left == right
  | _, _ => false
termination_by structural left => left
/-- `left.every((value, index) => jsonEqual(value, right[index]))` -/
def itemsEqual : List Json → List Json → Bool
  | [], _ => true
  | value :: rest, right :: others => jsonEqual value right && itemsEqual rest others
  | _, _ => false
termination_by structural left => left
/-- `leftKeys.every((key) => Object.hasOwn(right, key) && jsonEqual(left[key], right[key]))` -/
def fieldsEqual : Fields → Fields → Bool
  | [], _ => true
  | (key, value) :: rest, right => (right.lookup key).any (jsonEqual value ·) && fieldsEqual rest right
termination_by structural left => left
end

/-- `jsonEqual` of two members, `undefined` included. -/
def membersEqual : Option Json → Option Json → Bool
  | none, none => true
  | some left, some right => jsonEqual left right
  | _, _ => false

theorem fieldsEqual_iff {left right : Fields} :
    fieldsEqual left right = true ↔
      ∀ field ∈ left, ∃ other, right.lookup field.1 = some other ∧ jsonEqual field.2 other = true := by
  induction left with
  | nil => simp [fieldsEqual]
  | cons field rest ih =>
    obtain ⟨key, value⟩ := field
    simp only [fieldsEqual, Bool.and_eq_true, ih, List.forall_mem_cons, Option.any_eq_true]

theorem everyItemEqual_roundTrip {left right : List Json} (ih : ∀ item ∈ left, ∀ other ∈ right,
      jsonEqual item other = true → jsonValuesEqual item.roundTrip other.roundTrip = true)
    (same : itemsEqual left right = true) :
    everyItemEqual (left.map Json.roundTrip) (right.map Json.roundTrip) = true := by
  induction left generalizing right with
  | nil => rfl
  | cons item rest tail =>
    cases right with
    | nil => simp [itemsEqual] at same
    | cons other others =>
      simp only [itemsEqual, Bool.and_eq_true] at same
      simp only [List.map_cons, everyItemEqual, Bool.and_eq_true]
      exact ⟨ih item List.mem_cons_self other List.mem_cons_self same.1, tail (fun a left b right =>
        ih a (List.mem_cons_of_mem _ left) b (List.mem_cons_of_mem _ right)) same.2⟩

theorem lookup_roundTrip (fields : Fields) (key : JsString) :
    (fields.map fun field => (field.1, field.2.roundTrip)).lookup key = (fields.lookup key).map Json.roundTrip := by
  induction fields with
  | nil => rfl
  | cons field rest ih =>
    obtain ⟨name, value⟩ := field
    simp only [List.map_cons, List.lookup_cons]
    split
    · rfl
    · exact ih

theorem jsonEqual_clone {left right : Json} (wellFormed : left.wellFormed = true) (wellFormed' : right.wellFormed = true)
    (same : jsonEqual left right = true) : jsonValuesEqual left.roundTrip right.roundTrip = true := by
  induction left using Json.induction generalizing right with
  | null => cases right <;> simp_all [jsonEqual, jsonValuesEqual]
  | bool b => cases right <;> simp_all [jsonEqual, jsonValuesEqual]
  | num n => cases right <;> simp_all [jsonEqual, jsonValuesEqual, JsNumber.strictEqual]
  | str s => cases right <;> simp_all [jsonEqual, jsonValuesEqual]
  | arr items ih =>
    cases right with
    | arr others =>
      rw [Json.wellFormed_arr] at wellFormed wellFormed'
      simp only [jsonEqual, Bool.and_eq_true, beq_iff_eq] at same
      simp only [Json.roundTrip_arr, jsonValuesEqual, List.length_map, same.1, beq_self_eq_true, Bool.true_and]
      exact everyItemEqual_roundTrip (fun item member other member' =>
        ih item member (wellFormed item member) (wellFormed' other member')) same.2
    | _ => simp [jsonEqual] at same
  | obj fields ih =>
    cases right with
    | obj others =>
      rw [Json.wellFormed_obj] at wellFormed wellFormed'
      simp only [jsonEqual, Bool.and_eq_true, beq_iff_eq, fieldsEqual_iff] at same
      obtain ⟨length, each⟩ := same
      have subset : Json.keys fields ⊆ Json.keys others := by
        intro key member
        obtain ⟨field, inside, rfl⟩ := List.mem_map.mp member
        obtain ⟨other, found, _⟩ := each field inside
        exact List.mem_map.mpr ⟨_, Json.mem_of_lookup found, rfl⟩
      have perm : (Json.keys fields).Perm (Json.keys others) :=
        (List.subperm_of_subset wellFormed.1 subset).perm_of_length_le (by simp [Json.keys, length])
      have keys (fields : Fields) : Json.keys (fields.map fun field => (field.1, field.2.roundTrip)) = Json.keys fields := by
        simp [Json.keys]
      simp only [Json.roundTrip_obj, jsonValuesEqual, keys, Bool.and_eq_true, beq_iff_eq, sortStrings_eq_iff,
        everyFieldEqual_iff, List.forall_mem_map, lookup_roundTrip]
      refine ⟨perm, fun field member => ?_⟩
      obtain ⟨other, found, equal⟩ := each field member
      exact ⟨other.roundTrip, by rw [found]; rfl, ih field member (wellFormed.2 field member)
        (wellFormed'.2 _ (Json.mem_of_lookup found)) equal⟩
    | _ => simp [jsonEqual] at same

/-! ### Entries -/

variable [WebPlatform]

structure EventInput where
  value : Json
  wellFormed : value.wellFormed = true

structure ParsedEvent extends EventInput where
  event : ConversationEvent
  parsed : parseConversationEvent value = .ok event

/-- `value[key]` -/
def member (value : Json) (key : String) : Option Json :=
  match value with
  | .obj fields => Json.get fields key
  | _ => none

structure StoredConversationEvent where
  cursor : JsString
  input : ParsedEvent

/-- `entry.event` -/
def StoredConversationEvent.value (entry : StoredConversationEvent) : Json := entry.input.value.roundTrip

def StoredConversationEvent.event (entry : StoredConversationEvent) : ConversationEvent := entry.input.event

structure IndexedEntry where
  conversationId : Identifier
  entry : StoredConversationEvent

def differentEntries : Option IndexedEntry → Option IndexedEntry → Bool
  | some left, some right =>
    left.conversationId != right.conversationId || left.entry.event.revision != right.entry.event.revision
  | _, _ => false

/-- `InMemoryConversationEventStore`, without its checkpoints -/
structure InMemoryStore where
  conversations : Identifier → List StoredConversationEvent
  eventIds : Identifier → Option IndexedEntry
  mutationIds : Identifier → Option IndexedEntry

def InMemoryStore.empty : InMemoryStore := ⟨fun _ => [], fun _ => none, fun _ => none⟩

def InMemoryStore.getLatestRevision (store : InMemoryStore) (conversationId : Identifier) : Option Nat :=
  (store.conversations conversationId).getLast?.map fun entry => entry.event.revision

/-! ### Errors -/

inductive ConflictCode where
  | revisionConflict
  | idempotencyConflict
  | invalidAppend
deriving DecidableEq

/-- `ConversationEventStoreConflictError` -/
structure StoreConflict where
  message : JsString
  code : ConflictCode
  conversationId : Identifier
  expectedRevision : Option Nat
  actualRevision : Option Nat
  identifier : Option JsString

inductive AppendError where
  | invalidEvent (error : ValidationError)
  | conflict (conflict : StoreConflict)
  /-- The `URIError` of `encodeURIComponent`. -/
  | malformedUri

structure AppendInput where
  conversationId : Identifier
  expectedRevision : Option Nat
  events : List EventInput

def conflict (code : ConflictCode) (input : AppendInput) (actualRevision : Option Nat) (message : JsString)
    (identifier : Option JsString) : AppendError :=
  .conflict ⟨message, code, input.conversationId, input.expectedRevision, actualRevision, identifier⟩

def idempotencyConflict (event : ConversationEvent) (identifier : Option JsString) : AppendError :=
  .conflict ⟨js "An idempotency identifier is already stored for a different fact or mutation.",
    .idempotencyConflict, event.conversationId, none, none, identifier⟩

/-! ### Append -/

/-- `memoryCursor`, `none` when it throws. -/
def memoryCursor (conversationId : Identifier) (revision : Nat) : Option JsString :=
  (encodeURIComponent conversationId.text).map fun encoded => js "memory:" ++ encoded ++ js ":" ++ decimal revision

/-- `parseConversationEvent(event)` -/
def EventInput.parse (input : EventInput) : Except AppendError ParsedEvent :=
  match parsed : parseConversationEvent input.value with
  | .ok event => .ok { input with
      event := event
      parsed := parsed }
  | .error error => .error (.invalidEvent error)

/-- The loop of `validateAppend`, with the identities of the events before. -/
def validateEvents (input : AppendInput) (currentRevision : Option Nat) :
    Nat → List Identifier → List Identifier → List EventInput → Except AppendError (List ParsedEvent)
  | _, _, _, [] => .ok []
  | requiredRevision, batchEventIds, batchMutationIds, value :: rest => do
    let parsed ← value.parse
    let event := parsed.event
    if event.conversationId ≠ input.conversationId then
      .error (conflict .invalidAppend input currentRevision
        (js "Every event in a batch must belong to the requested conversation.") (some event.conversationId.text))
    else if event.revision ≠ requiredRevision then
      .error (conflict .invalidAppend input currentRevision
        (js "Expected contiguous event revision " ++ decimal requiredRevision ++ js ".") (some event.eventId.text))
    else if event.eventId ∈ batchEventIds then
      .error (conflict .invalidAppend input currentRevision
        (js "An append batch cannot repeat an event ID.") (some event.eventId.text))
    else
      match event.mutationId.filter (· ∈ batchMutationIds) with
      | some mutationId =>
        .error (conflict .invalidAppend input currentRevision
          (js "An append batch cannot repeat a client mutation ID.") (some mutationId.text))
      | none => do
        let others ← validateEvents input currentRevision (requiredRevision + 1) (event.eventId :: batchEventIds)
          (event.mutationId.toList ++ batchMutationIds) rest
        .ok (parsed :: others)

def validateAppend (input : AppendInput) (currentRevision : Option Nat) : Except AppendError (List ParsedEvent) :=
  if input.events = [] then
    .error (conflict .invalidAppend input currentRevision
      (js "An append batch must contain at least one event.") none)
  else validateEvents input currentRevision (input.expectedRevision.getD 0 + 1) [] [] input.events

def sameClientMutation (stored requested : Json) : Bool :=
  (member stored "mutation_id").isSome && (member requested "mutation_id").isSome &&
    ["mutation_id", "version", "conversation_id", "actor", "source", "metadata", "payload"].all fun key =>
      membersEqual (member stored key) (member requested key)

namespace InMemoryStore

def findIdempotentMatch (store : InMemoryStore) (parsed : ParsedEvent) : Except AppendError (Option IndexedEntry) :=
  let event := parsed.event
  let eventMatch := store.eventIds event.eventId
  let mutationMatch := event.mutationId.bind store.mutationIds
  if differentEntries eventMatch mutationMatch then .error (idempotencyConflict event (some event.eventId.text))
  else if eventMatch.any fun found => !jsonEqual found.entry.value parsed.value then
    .error (idempotencyConflict event (some event.eventId.text))
  else if mutationMatch.any fun found => !sameClientMutation found.entry.value parsed.value then
    .error (idempotencyConflict event (event.mutationId.map BoundedText.text))
  else .ok (eventMatch.or mutationMatch)

end InMemoryStore

def validateCompleteRetry (input : AppendInput) (currentRevision : Option Nat) :
    Nat → List (ParsedEvent × IndexedEntry) → Except AppendError Unit
  | _, [] => .ok ()
  | requiredRevision, (parsed, found) :: rest =>
    if found.conversationId ≠ input.conversationId ∨ found.entry.event.revision ≠ requiredRevision then
      .error (conflict .idempotencyConflict input currentRevision
        (js "The identifiers do not describe one previously stored atomic batch.") (some parsed.event.eventId.text))
    else validateCompleteRetry input currentRevision (requiredRevision + 1) rest

inductive AppendStatus where
  | appended
  | idempotent
deriving DecidableEq

structure AppendResult where
  status : AppendStatus
  entries : List StoredConversationEvent
  latestRevision : Nat

def storedEntry (conversationId : Identifier) (parsed : ParsedEvent) : Except AppendError StoredConversationEvent :=
  match memoryCursor conversationId parsed.event.revision with
  | some cursor => .ok ⟨cursor, parsed⟩
  | none => .error .malformedUri

namespace InMemoryStore

def push (conversationId : Identifier) (store : InMemoryStore) (entry : StoredConversationEvent) : InMemoryStore where
  conversations := Function.update store.conversations conversationId (store.conversations conversationId ++ [entry])
  eventIds := Function.update store.eventIds entry.event.eventId (some ⟨conversationId, entry⟩)
  mutationIds := match entry.event.mutationId with
    | some mutationId => Function.update store.mutationIds mutationId (some ⟨conversationId, entry⟩)
    | none => store.mutationIds

def append (store : InMemoryStore) (input : AppendInput) : Except AppendError (InMemoryStore × AppendResult) := do
  let currentRevision := store.getLatestRevision input.conversationId
  let events ← validateAppend input currentRevision
  let found ← events.mapM store.findIdempotentMatch
  if 0 < (found.filter Option.isSome).length then
    if (found.filter Option.isSome).length ≠ input.events.length then
      .error (conflict .idempotencyConflict input currentRevision
        (js "Only part of the atomic batch is already stored.") none)
    else do
      let matchedEntries := found.filterMap id
      validateCompleteRetry input currentRevision (input.expectedRevision.getD 0 + 1) (events.zip matchedEntries)
      .ok (store, ⟨.idempotent, matchedEntries.map IndexedEntry.entry, currentRevision.getD 0⟩)
  else if input.expectedRevision ≠ currentRevision then
    .error (conflict .revisionConflict input currentRevision
      (js "The expected revision does not match the latest stored revision.") none)
  else do
    let entries ← events.mapM (storedEntry input.conversationId)
    .ok (entries.foldl (push input.conversationId) store,
      ⟨.appended, entries, (entries.getLast?.map fun entry => entry.event.revision).getD 0⟩)

/-! ### Read -/

structure ReadResult where
  entries : List StoredConversationEvent
  nextCursor : Option JsString
  latestRevision : Option Nat
  hasMore : Bool

/-- `read` after a revision, or from the first event. -/
def read (store : InMemoryStore) (conversationId : Identifier) (after : Option Nat) (limit : Nat) : ReadResult :=
  let allEntries := store.conversations conversationId
  let remaining := match after with
    | some revision => allEntries.dropWhile fun (entry : StoredConversationEvent) => decide (entry.event.revision ≤ revision)
    | none => allEntries
  let selected := remaining.take limit
  ⟨selected, selected.getLast?.map StoredConversationEvent.cursor, store.getLatestRevision conversationId,
    decide (selected.length < remaining.length)⟩

end InMemoryStore

/-! ### What an append validates -/

/-- Events of one conversation with the revisions from `n` on, and with identities of their own. -/
def ValidBatch (conversationId : Identifier) :
    Nat → List Identifier → List Identifier → List ParsedEvent → Prop
  | _, _, _, [] => True
  | n, eventIds, mutationIds, parsed :: rest =>
    parsed.event.conversationId = conversationId ∧ parsed.event.revision = n ∧ parsed.event.eventId ∉ eventIds ∧
      (∀ mutationId ∈ parsed.event.mutationId, mutationId ∉ mutationIds) ∧
      ValidBatch conversationId (n + 1) (parsed.event.eventId :: eventIds)
        (parsed.event.mutationId.toList ++ mutationIds) rest

variable {parsed : ParsedEvent}

theorem parse_eq_ok {input : EventInput} : input.parse = .ok parsed ↔ parsed.toEventInput = input := by
  unfold EventInput.parse
  constructor
  · split
    · rintro ⟨⟩
      rfl
    · nofun
  · rintro rfl
    split
    · rename_i event accepted
      obtain rfl := Except.ok.inj (accepted.symm.trans parsed.parsed)
      rfl
    · rename_i error refused
      exact absurd (refused.symm.trans parsed.parsed) nofun

theorem ParsedEvent.ext {first second : ParsedEvent} (same : first.toEventInput = second.toEventInput) : first = second := by
  obtain ⟨input, event, parsed⟩ := first
  obtain ⟨input', event', parsed'⟩ := second
  cases same
  obtain rfl := Except.ok.inj (parsed.symm.trans parsed')
  rfl

variable {eventIds mutationIds : List Identifier} {events : List ParsedEvent} {input : AppendInput}

theorem validateEvents_eq_ok {currentRevision : Option Nat} {n : Nat} {values : List EventInput} :
    validateEvents input currentRevision n eventIds mutationIds values = .ok events ↔
      events.map ParsedEvent.toEventInput = values ∧ ValidBatch input.conversationId n eventIds mutationIds events := by
  induction values generalizing n eventIds mutationIds events with
  | nil =>
    cases events with
    | nil => simp [validateEvents, ValidBatch]
    | cons => simp [validateEvents]
  | cons value rest ih =>
    simp only [validateEvents, bind_eq_ok, parse_eq_ok]
    constructor
    · rintro ⟨parsed, rfl, accepted⟩
      split at accepted
      · cases accepted
      · split at accepted
        · cases accepted
        · split at accepted
          · cases accepted
          · split at accepted
            · cases accepted
            · rename_i conversation revision fresh _ none
              obtain ⟨others, later, same⟩ := bind_eq_ok.mp accepted
              obtain rfl := Except.ok.inj same
              obtain ⟨rfl, batch⟩ := ih.mp later
              simp only [ne_eq, not_not] at conversation revision
              refine ⟨rfl, conversation, revision, fresh, fun mutationId given inside => ?_, batch⟩
              rw [Option.filter_eq_none_iff] at none
              simpa [inside] using none mutationId given
    · rintro ⟨same, batch⟩
      cases events with
      | nil => cases same
      | cons parsed others =>
        obtain ⟨rfl, rfl⟩ := List.cons.inj same
        obtain ⟨conversation, revision, fresh, free, batch⟩ := batch
        have none : parsed.event.mutationId.filter (fun m => decide (m ∈ mutationIds)) = none :=
          Option.filter_eq_none_iff.mpr fun m given => by simpa using free m given
        refine ⟨parsed, rfl, ?_⟩
        simp only [conversation, ne_eq, not_true_eq_false, ↓reduceIte, revision, fresh, none]
        exact bind_eq_ok.mpr ⟨others, ih.mpr ⟨rfl, batch⟩, rfl⟩

theorem ValidBatch.fresh {conversationId : Identifier} {n : Nat} (batch : ValidBatch conversationId n eventIds mutationIds events)
    (inside : parsed ∈ events) : parsed.event.eventId ∉ eventIds ∧
      ∀ mutationId ∈ parsed.event.mutationId, mutationId ∉ mutationIds := by
  induction events generalizing n eventIds mutationIds with
  | nil => cases inside
  | cons first rest ih =>
    obtain ⟨_, _, fresh, free, later⟩ := batch
    rcases List.mem_cons.mp inside with rfl | inside
    · exact ⟨fresh, free⟩
    · obtain ⟨fresh, free⟩ := ih later inside
      exact ⟨fun known => fresh (List.mem_cons_of_mem _ known),
        fun m given known => free m given (List.mem_append_right _ known)⟩

theorem ValidBatch.revisions {conversationId : Identifier} {n : Nat}
    (batch : ValidBatch conversationId n eventIds mutationIds events) :
    events.map (fun parsed => parsed.event.revision) = List.range' n events.length := by
  induction events generalizing n eventIds mutationIds with
  | nil => rfl
  | cons first rest ih =>
    obtain ⟨_, revision, _, _, later⟩ := batch
    rw [List.map_cons, List.length_cons, List.range'_succ, revision, ih later]

theorem ValidBatch.of_distinct {conversationId : Identifier} {n : Nat}
    (owned : ∀ parsed ∈ events, parsed.event.conversationId = conversationId)
    (revisions : events.map (fun parsed => parsed.event.revision) = List.range' n events.length)
    (fresh : ∀ parsed ∈ events, parsed.event.eventId ∉ eventIds ∧ ∀ m ∈ parsed.event.mutationId, m ∉ mutationIds)
    (distinct : events.Pairwise fun first second => first.event.eventId ≠ second.event.eventId ∧
      ∀ m ∈ first.event.mutationId, m ∉ second.event.mutationId) :
    ValidBatch conversationId n eventIds mutationIds events := by
  induction events generalizing n eventIds mutationIds with
  | nil => trivial
  | cons first rest ih =>
    rw [List.map_cons, List.length_cons, List.range'_succ, List.cons.injEq] at revisions
    rw [List.forall_mem_cons] at owned fresh
    obtain ⟨apart, distinct⟩ := List.pairwise_cons.mp distinct
    refine ⟨owned.1, revisions.1, fresh.1.1, fresh.1.2, ih owned.2 revisions.2 (fun other inside => ?_) distinct⟩
    obtain ⟨different, free⟩ := apart other inside
    constructor
    · rw [List.mem_cons, not_or]
      exact ⟨fun same => different same.symm, (fresh.2 other inside).1⟩
    · intro m given
      rw [List.mem_append, Option.mem_toList, not_or]
      exact ⟨fun known => free m known given, (fresh.2 other inside).2 m given⟩

/-! ### The indexes -/

structure InMemoryStore.Indexed (store : InMemoryStore) : Prop where
  eventIds : ∀ id c x, store.eventIds id = some ⟨c, x⟩ ↔ x ∈ store.conversations c ∧ x.event.eventId = id
  mutationIds : ∀ id c x, store.mutationIds id = some ⟨c, x⟩ ↔ x ∈ store.conversations c ∧ x.event.mutationId = some id
  revisions : ∀ c, (store.conversations c).map (fun x => x.event.revision) = List.range' 1 (store.conversations c).length
  cursors : ∀ c, ∀ x ∈ store.conversations c, memoryCursor c x.event.revision = some x.cursor
  owned : ∀ c, ∀ x ∈ store.conversations c, x.event.conversationId = c

namespace InMemoryStore.Indexed
variable {store : InMemoryStore}

theorem empty : InMemoryStore.empty.Indexed where
  eventIds _ _ _ := by simp [InMemoryStore.empty]
  mutationIds _ _ _ := by simp [InMemoryStore.empty]
  revisions _ := rfl
  cursors _ _ member := by cases member
  owned _ _ member := by cases member

theorem getLatestRevision (indexed : store.Indexed) (c : Identifier) :
    store.getLatestRevision c = if (store.conversations c).length = 0 then none else some (store.conversations c).length := by
  have last := congrArg List.getLast? (indexed.revisions c)
  rw [List.getLast?_map, List.getLast?_range'] at last
  rw [InMemoryStore.getLatestRevision, last]
  split
  · rfl
  · simp only [Option.some.injEq]
    omega

theorem getLatestRevision_getD (indexed : store.Indexed) (c : Identifier) :
    (store.getLatestRevision c).getD 0 = (store.conversations c).length := by
  rw [indexed.getLatestRevision]
  split <;> simp_all

variable {c : Identifier} {x : StoredConversationEvent}

theorem revision_at (indexed : store.Indexed) {i : Nat}
    (at_ : (store.conversations c)[i]? = some x) : x.event.revision = i + 1 := by
  have both := congrArg (fun l => l[i]?) (indexed.revisions c)
  simp only [List.getElem?_map, at_, Option.map_some] at both
  rw [List.getElem?_range' (List.getElem?_eq_some_iff.mp at_).1] at both
  have same := Option.some.inj both
  omega

theorem getElem?_of_mem (indexed : store.Indexed)
    (inside : x ∈ store.conversations c) : 1 ≤ x.event.revision ∧ (store.conversations c)[x.event.revision - 1]? = some x := by
  obtain ⟨i, at_⟩ := List.mem_iff_getElem?.mp inside
  rw [indexed.revision_at at_]
  exact ⟨Nat.le_add_left 1 i, at_⟩

theorem revision_of_mem_take (indexed : store.Indexed) {n : Nat}
    (inside : x ∈ (store.conversations c).take n) : x.event.revision ≤ n := by
  obtain ⟨i, at_⟩ := List.mem_iff_getElem?.mp inside
  obtain ⟨short, _⟩ := List.getElem?_eq_some_iff.mp at_
  rw [List.length_take] at short
  rw [List.getElem?_take_of_lt (by omega)] at at_
  rw [indexed.revision_at at_]
  omega

theorem revision_of_mem_drop (indexed : store.Indexed) {n : Nat}
    (inside : x ∈ (store.conversations c).drop n) : n < x.event.revision := by
  obtain ⟨i, at_⟩ := List.mem_iff_getElem?.mp inside
  rw [List.getElem?_drop] at at_
  rw [indexed.revision_at at_]
  omega

theorem pairwise (indexed : store.Indexed) (c : Identifier) : (store.conversations c).Pairwise fun first second =>
    first.event.eventId ≠ second.event.eventId ∧ ∀ m ∈ first.event.mutationId, m ∉ second.event.mutationId := by
  refine List.pairwise_iff_getElem.mpr fun i j short short' before => ?_
  have one {x y : StoredConversationEvent} {index : Option IndexedEntry} (found : index = some ⟨c, x⟩)
      (found' : index = some ⟨c, y⟩) : x = y := by
    cases found.symm.trans found'
    rfl
  have different : (store.conversations c)[i] ≠ (store.conversations c)[j] := by
    intro same
    have first := indexed.revision_at (List.getElem?_eq_getElem short)
    have second := indexed.revision_at (List.getElem?_eq_getElem short')
    rw [same] at first
    omega
  constructor
  · intro same
    exact different (one ((indexed.eventIds _ _ _).mpr ⟨List.getElem_mem short, same⟩)
      ((indexed.eventIds _ _ _).mpr ⟨List.getElem_mem short', rfl⟩))
  · intro m given given'
    exact different (one ((indexed.mutationIds _ _ _).mpr ⟨List.getElem_mem short, given⟩)
      ((indexed.mutationIds _ _ _).mpr ⟨List.getElem_mem short', given'⟩))

theorem dropWhile_revision (indexed : store.Indexed) (c : Identifier) (n : Nat) :
    (store.conversations c).dropWhile (fun entry => decide (entry.event.revision ≤ n)) = (store.conversations c).drop n := by
  have counted (entries : List StoredConversationEvent) (k : Nat)
      (revisions : entries.map (fun entry => entry.event.revision) = List.range' (k + 1) entries.length) :
      entries.dropWhile (fun entry => decide (entry.event.revision ≤ n)) = entries.drop (n - k) := by
    induction entries generalizing k with
    | nil => simp
    | cons entry rest ih =>
      rw [List.map_cons, List.length_cons, List.range'_succ, List.cons.injEq] at revisions
      by_cases before : entry.event.revision ≤ n
      · rw [List.dropWhile_cons_of_pos (by simpa using before), ih _ revisions.2,
          show n - k = n - (k + 1) + 1 by omega, List.drop_succ_cons]
      · rw [List.dropWhile_cons_of_neg (by simpa using before), show n - k = 0 by omega, List.drop_zero]
  exact counted _ 0 (indexed.revisions c)

variable {entry : StoredConversationEvent}

theorem push_mutationIds_some {c mutationId : Identifier}
    (given : entry.event.mutationId = some mutationId) :
    (store.push c entry).mutationIds = Function.update store.mutationIds mutationId (some ⟨c, entry⟩) := by
  simp only [InMemoryStore.push, given]

theorem push_mutationIds_none (given : entry.event.mutationId = none) :
    (store.push c entry).mutationIds = store.mutationIds := by
  simp only [InMemoryStore.push, given]

theorem mem_push {c c' : Identifier} {entry x : StoredConversationEvent} :
    x ∈ (store.push c entry).conversations c' ↔ x ∈ store.conversations c' ∨ c' = c ∧ x = entry := by
  unfold InMemoryStore.push Function.update
  dsimp only
  split
  · rename_i same
    subst same
    simp
  · rename_i other
    simp [other]

/-- The entries of one conversation with an identity, after a fresh one was pushed. -/
theorem push_index {index : Identifier → Option IndexedEntry} {identity : StoredConversationEvent → Option Identifier}
    {id fresh : Identifier} {c c' : Identifier} {entry x : StoredConversationEvent}
    (before : ∀ id c x, index id = some ⟨c, x⟩ ↔ x ∈ store.conversations c ∧ identity x = some id)
    (given : identity entry = some fresh) (absent : index fresh = none) :
    Function.update index fresh (some ⟨c, entry⟩) id = some ⟨c', x⟩ ↔
      x ∈ (store.push c entry).conversations c' ∧ identity x = some id := by
  rw [mem_push, Function.update_apply]
  by_cases same : id = fresh
  · subst same
    simp only [↓reduceIte, Option.some.injEq, IndexedEntry.mk.injEq]
    constructor
    · rintro ⟨rfl, rfl⟩
      exact ⟨.inr ⟨rfl, rfl⟩, given⟩
    · rintro ⟨old | ⟨rfl, rfl⟩, named⟩
      · rw [(before id c' x).mpr ⟨old, named⟩] at absent
        cases absent
      · exact ⟨rfl, rfl⟩
  · rw [if_neg same, before]
    constructor
    · rintro ⟨inside, named⟩
      exact ⟨.inl inside, named⟩
    · rintro ⟨old | ⟨rfl, rfl⟩, named⟩
      · exact ⟨old, named⟩
      · exact (same (Option.some.inj (named.symm.trans given))).elim

theorem push (indexed : store.Indexed)
    (fresh : store.eventIds entry.event.eventId = none)
    (free : ∀ mutationId ∈ entry.event.mutationId, store.mutationIds mutationId = none)
    (revision : entry.event.revision = (store.conversations c).length + 1)
    (cursor : memoryCursor c entry.event.revision = some entry.cursor) (owner : entry.event.conversationId = c) :
    (store.push c entry).Indexed where
  eventIds id c' x := by
    have before (id c x) : store.eventIds id = some ⟨c, x⟩ ↔ x ∈ store.conversations c ∧ some x.event.eventId = some id := by
      rw [indexed.eventIds, Option.some.injEq]
    rw [← Option.some.injEq (_ : Identifier)]
    exact push_index before rfl fresh
  mutationIds id c' x := by
    cases given : entry.event.mutationId with
    | some mutationId =>
      rw [push_mutationIds_some given]
      exact push_index indexed.mutationIds given (free mutationId given)
    | none =>
      rw [push_mutationIds_none given, indexed.mutationIds, mem_push]
      constructor
      · exact fun ⟨inside, named⟩ => ⟨.inl inside, named⟩
      · rintro ⟨old | ⟨_, rfl⟩, named⟩
        · exact ⟨old, named⟩
        · rw [given] at named
          cases named
  revisions c' := by
    unfold InMemoryStore.push Function.update
    dsimp only
    split
    · rename_i same
      subst same
      simp only [List.map_append, List.map_cons, List.map_nil, List.length_append, List.length_cons, List.length_nil,
        indexed.revisions, revision, List.range'_1_concat]
      simp [Nat.add_comm]
    · exact indexed.revisions c'
  cursors c' x inside := by
    rcases mem_push.mp inside with old | ⟨rfl, rfl⟩
    · exact indexed.cursors c' x old
    · exact cursor
  owned c' x inside := by
    rcases mem_push.mp inside with old | ⟨rfl, rfl⟩
    · exact indexed.owned c' x old
    · exact owner

end InMemoryStore.Indexed

/-! ### What an append does -/

omit [WebPlatform] in
theorem mapM_eq_ok {ε α β : Type} {f : α → Except ε β} {values : List α} {results : List β} :
    values.mapM f = .ok results ↔ List.Forall₂ (fun value result => f value = .ok result) values results := by
  induction values generalizing results with
  | nil => cases results <;> simp [pure, Except.pure]
  | cons value rest ih =>
    rw [List.mapM_cons, bind_eq_ok]
    constructor
    · rintro ⟨first, done, later⟩
      obtain ⟨others, each, same⟩ := bind_eq_ok.mp later
      cases same
      exact .cons done (ih.mp each)
    · rintro (_ | ⟨done, each⟩)
      exact ⟨_, done, bind_eq_ok.mpr ⟨_, ih.mpr each, rfl⟩⟩

namespace InMemoryStore
variable {store : InMemoryStore}

def Unmatched (store : InMemoryStore) (event : ConversationEvent) : Prop :=
  store.eventIds event.eventId = none ∧ ∀ mutationId ∈ event.mutationId, store.mutationIds mutationId = none

theorem findIdempotentMatch_eq_none :
    store.findIdempotentMatch parsed = .ok none ↔ store.Unmatched parsed.event := by
  have free : parsed.event.mutationId.bind store.mutationIds = none ↔
      ∀ mutationId ∈ parsed.event.mutationId, store.mutationIds mutationId = none := Option.bind_eq_none_iff
  unfold findIdempotentMatch Unmatched
  rw [← free]
  dsimp only
  constructor
  · split
    · nofun
    · split
      · nofun
      · split
        · nofun
        · intro none
          exact Option.or_eq_none_iff.mp (Except.ok.inj none)
  · rintro ⟨fresh, free⟩
    simp [fresh, free, differentEntries]

/-- A match is found by the identity of the event, with an equal value, or else by that of its mutation. -/
theorem findIdempotentMatch_eq_some {found : IndexedEntry}
    (matches_ : store.findIdempotentMatch parsed = .ok (some found)) :
    store.eventIds parsed.event.eventId = some found ∧ jsonEqual found.entry.value parsed.value = true ∨
    store.eventIds parsed.event.eventId = none ∧ ∃ mutationId ∈ parsed.event.mutationId,
      store.mutationIds mutationId = some found := by
  unfold findIdempotentMatch at matches_
  dsimp only at matches_
  split at matches_
  · cases matches_
  · split at matches_
    · cases matches_
    · rename_i equal
      split at matches_
      · cases matches_
      · cases known : store.eventIds parsed.event.eventId with
        | some entry =>
          rw [known, Option.some_or] at matches_
          obtain rfl := Option.some.inj (Except.ok.inj matches_)
          exact .inl ⟨rfl, by simpa [known] using equal⟩
        | none =>
          rw [known, Option.none_or] at matches_
          obtain ⟨mutationId, given, same⟩ := Option.bind_eq_some_iff.mp (Except.ok.inj matches_)
          exact .inr ⟨rfl, mutationId, given, same⟩

theorem Indexed.mem_of_match (indexed : store.Indexed) {found : IndexedEntry}
    (matches_ : store.findIdempotentMatch parsed = .ok (some found)) :
    found.entry ∈ store.conversations found.conversationId := by
  rcases findIdempotentMatch_eq_some matches_ with ⟨known, _⟩ | ⟨_, _, _, known⟩
  · exact ((indexed.eventIds _ _ _).mp known).1
  · exact ((indexed.mutationIds _ _ _).mp known).1

theorem findIdempotentMatch_place {found other : IndexedEntry}
    (matches_ : store.findIdempotentMatch parsed = .ok (some found))
    (known : store.eventIds parsed.event.eventId = some other ∨
      ∃ mutationId ∈ parsed.event.mutationId, store.mutationIds mutationId = some other) :
    other.conversationId = found.conversationId ∧ other.entry.event.revision = found.entry.event.revision := by
  have mutation : (∃ mutationId ∈ parsed.event.mutationId, store.mutationIds mutationId = some other) ↔
      parsed.event.mutationId.bind store.mutationIds = some other := Option.bind_eq_some_iff.symm
  rw [mutation] at known
  unfold findIdempotentMatch at matches_
  dsimp only at matches_
  split at matches_
  · cases matches_
  · rename_i alike
    split at matches_
    · cases matches_
    · split at matches_
      · cases matches_
      · have first := Except.ok.inj matches_
        cases eventMatch : store.eventIds parsed.event.eventId with
        | none =>
          rw [eventMatch, Option.none_or] at first
          rw [eventMatch, first] at known
          rcases known with known | known
          · cases known
          · cases known
            exact ⟨rfl, rfl⟩
        | some entry =>
          rw [eventMatch, Option.some_or] at first
          cases first
          rw [eventMatch] at known alike
          rcases known with known | known
          · cases known
            exact ⟨rfl, rfl⟩
          · rw [known] at alike
            simp only [differentEntries, Bool.or_eq_true, bne_iff_ne, ne_eq, not_or, not_not] at alike
            exact ⟨alike.1.symm, alike.2.symm⟩

variable {entries : List StoredConversationEvent}

theorem push_conversations :
    (entries.foldl (push c) store).conversations =
      Function.update store.conversations c (store.conversations c ++ entries) := by
  induction entries generalizing store with
  | nil => simp
  | cons entry rest ih =>
    rw [List.foldl_cons, ih]
    simp [push]

theorem Indexed.pushAll (indexed : store.Indexed)
    (batch : ValidBatch c ((store.conversations c).length + 1) eventIds mutationIds (entries.map StoredConversationEvent.input))
    (unmatched : ∀ entry ∈ entries, store.Unmatched entry.event)
    (cursors : ∀ entry ∈ entries, memoryCursor c entry.event.revision = some entry.cursor) :
    (entries.foldl (InMemoryStore.push c) store).Indexed := by
  induction entries generalizing store eventIds mutationIds with
  | nil => exact indexed
  | cons entry rest ih =>
    obtain ⟨conversation, revision, _, _, later⟩ := batch
    obtain ⟨fresh, free⟩ := unmatched entry (List.mem_cons_self ..)
    have pushed := indexed.push fresh free revision (cursors entry (List.mem_cons_self ..)) conversation
    have length : ((store.push c entry).conversations c).length = (store.conversations c).length + 1 := by
      simp [InMemoryStore.push]
    refine ih pushed (length ▸ later) (fun other inside => ?_)
      fun other inside => cursors other (List.mem_cons_of_mem _ inside)
    -- The others of the batch have identities of their own.
    obtain ⟨other_fresh, other_free⟩ := unmatched other (List.mem_cons_of_mem _ inside)
    obtain ⟨different, apart⟩ := later.fresh (List.mem_map_of_mem inside)
    constructor
    · refine (Function.update_of_ne (fun same => different ?_) _ _).trans other_fresh
      exact same ▸ List.mem_cons_self ..
    · intro mutationId given
      have distinct := apart mutationId given
      cases named : entry.event.mutationId with
      | some first =>
        rw [Indexed.push_mutationIds_some named]
        refine (Function.update_of_ne (fun same => distinct ?_) _ _).trans (other_free mutationId given)
        have named : entry.input.event.mutationId = some first := named
        simp [named, same]
      | none =>
        rw [Indexed.push_mutationIds_none named]
        exact other_free mutationId given

theorem validateAppend_eq_ok {currentRevision : Option Nat} :
    validateAppend input currentRevision = .ok events ↔ input.events ≠ [] ∧
      events.map ParsedEvent.toEventInput = input.events ∧
      ValidBatch input.conversationId (input.expectedRevision.getD 0 + 1) [] [] events := by
  unfold validateAppend
  split
  · rename_i empty
    exact ⟨nofun, fun ⟨nonempty, _⟩ => (nonempty empty).elim⟩
  · rename_i nonempty
    rw [validateEvents_eq_ok]
    exact ⟨fun valid => ⟨nonempty, valid⟩, fun valid => valid.2⟩

theorem validateCompleteRetry_eq_ok {currentRevision : Option Nat} {n : Nat}
    {pairs : List (ParsedEvent × IndexedEntry)} (complete : validateCompleteRetry input currentRevision n pairs = .ok ()) :
    (∀ pair ∈ pairs, pair.2.conversationId = input.conversationId) ∧
      pairs.map (fun pair => pair.2.entry.event.revision) = List.range' n pairs.length := by
  induction pairs generalizing n with
  | nil => simp
  | cons pair rest ih =>
    obtain ⟨parsed, found⟩ := pair
    unfold validateCompleteRetry at complete
    split at complete
    · cases complete
    · rename_i here
      simp only [ne_eq, not_or, not_not] at here
      obtain ⟨conversation, revisions⟩ := ih complete
      refine ⟨?_, ?_⟩
      · rintro pair (_ | ⟨_, inside⟩)
        · exact here.1
        · exact conversation pair inside
      · rw [List.map_cons, List.length_cons, List.range'_succ, revisions, here.2]

theorem storedEntry_eq_ok :
    storedEntry c parsed = .ok entry ↔ entry.input = parsed ∧ memoryCursor c entry.event.revision = some entry.cursor := by
  unfold storedEntry
  constructor
  · split
    · rename_i cursor given
      rintro ⟨⟩
      exact ⟨rfl, given⟩
    · nofun
  · rintro ⟨rfl, given⟩
    have given : memoryCursor c entry.input.event.revision = some entry.cursor := given
    rw [given]

theorem storedEntries :
    List.Forall₂ (fun parsed entry => storedEntry c parsed = .ok entry) events entries ↔
      entries.map StoredConversationEvent.input = events ∧
        ∀ entry ∈ entries, memoryCursor c entry.event.revision = some entry.cursor := by
  induction entries generalizing events with
  | nil => cases events <;> simp
  | cons entry rest ih =>
    cases events with
    | nil => simp
    | cons parsed events =>
      rw [List.forall₂_cons, ih, storedEntry_eq_ok, List.map_cons, List.cons.injEq, List.forall_mem_cons]
      exact and_and_and_comm

/-- An append stores a valid batch behind the last revision, or answers what is stored. -/
theorem append_cases {next : InMemoryStore} {result : AppendResult}
    (appended : store.append input = .ok (next, result)) : ∃ events : List ParsedEvent,
    input.events ≠ [] ∧ events.map ParsedEvent.toEventInput = input.events ∧
    ValidBatch input.conversationId (input.expectedRevision.getD 0 + 1) [] [] events ∧
    ((next = store ∧ ∃ found : List IndexedEntry,
        List.Forall₂ (fun parsed found => store.findIdempotentMatch parsed = .ok (some found)) events found ∧
        (∀ entry ∈ found, entry.conversationId = input.conversationId) ∧
        found.map (fun entry => entry.entry.event.revision) =
          List.range' (input.expectedRevision.getD 0 + 1) found.length ∧
        result.status = .idempotent ∧ result.entries = found.map IndexedEntry.entry) ∨
      ((∀ parsed ∈ events, store.Unmatched parsed.event) ∧
        input.expectedRevision = store.getLatestRevision input.conversationId ∧
        ∃ entries : List StoredConversationEvent, entries.map StoredConversationEvent.input = events ∧
          (∀ entry ∈ entries, memoryCursor input.conversationId entry.event.revision = some entry.cursor) ∧
          next = entries.foldl (push input.conversationId) store ∧
          result.status = .appended ∧ result.entries = entries)) := by
  unfold append at appended
  obtain ⟨events, valid, appended⟩ := bind_eq_ok.mp appended
  obtain ⟨nonempty, inputs, batch⟩ := validateAppend_eq_ok.mp valid
  obtain ⟨found, each, appended⟩ := bind_eq_ok.mp appended
  have each := mapM_eq_ok.mp each
  refine ⟨events, nonempty, inputs, batch, ?_⟩
  split at appended
  · split at appended
    · cases appended
    · rename_i all
      obtain ⟨_, complete, same⟩ := bind_eq_ok.mp appended
      cases same
      simp only [ne_eq, not_not] at all
      have counted : events.length = input.events.length := by rw [← inputs, List.length_map]
      have known := eq_map_some (all.trans (counted.symm.trans each.length_eq))
      have pairs : (events.zip (found.filterMap id)).map Prod.snd = found.filterMap id := by
        refine List.map_snd_zip ?_
        rw [each.length_eq, known]
        simp
      obtain ⟨conversation, revisions⟩ := validateCompleteRetry_eq_ok complete
      refine .inl ⟨rfl, found.filterMap id, ?_, fun entry inside => ?_, ?_, rfl, rfl⟩
      · rw [known] at each
        exact (List.forall₂_map_right_iff (R := fun parsed result => store.findIdempotentMatch parsed = .ok result)
          (f := some)).mp each
      · rw [← pairs] at inside
        obtain ⟨pair, member, rfl⟩ := List.mem_map.mp inside
        exact conversation pair member
      · have both := congrArg (List.map fun entry : IndexedEntry => entry.entry.event.revision) pairs
        rw [List.map_map] at both
        rw [← both, ← congrArg List.length pairs, List.length_map]
        exact revisions
  · split at appended
    · cases appended
    · rename_i none current
      obtain ⟨entries, stored, same⟩ := bind_eq_ok.mp appended
      cases same
      simp only [ne_eq, not_not] at current
      have stored := mapM_eq_ok.mp stored
      have empty : found.filter Option.isSome = [] := by
        rw [← List.length_eq_zero_iff]
        omega
      obtain ⟨inputs, cursors⟩ := storedEntries.mp stored
      refine .inr ⟨fun parsed inside => ?_, current, entries, inputs, cursors, rfl, rfl, rfl⟩
      obtain ⟨result, member, matches_⟩ := forall₂_mem_left each inside
      cases result with
      | none => exact findIdempotentMatch_eq_none.mp matches_
      | some entry => exact absurd (List.mem_filter.mpr ⟨member, rfl⟩) (empty ▸ List.not_mem_nil)

theorem append_unmatched (nonempty : entries ≠ [])
    (inputs : entries.map (fun entry => entry.input.toEventInput) = input.events)
    (batch : ValidBatch input.conversationId (input.expectedRevision.getD 0 + 1) [] []
      (entries.map StoredConversationEvent.input))
    (unmatched : ∀ entry ∈ entries, store.Unmatched entry.event)
    (current : input.expectedRevision = store.getLatestRevision input.conversationId)
    (cursors : ∀ entry ∈ entries, memoryCursor input.conversationId entry.event.revision = some entry.cursor) :
    ∃ result, store.append input = .ok (entries.foldl (push input.conversationId) store, result) := by
  have valid : validateAppend input (store.getLatestRevision input.conversationId) =
      .ok (entries.map StoredConversationEvent.input) := by
    refine validateAppend_eq_ok.mpr ⟨?_, ?_, batch⟩
    · rw [← inputs]
      simpa using nonempty
    · rw [← inputs, List.map_map]
      rfl
  have found : (entries.map StoredConversationEvent.input).mapM store.findIdempotentMatch =
      .ok (entries.map fun _ => none) := by
    refine mapM_eq_ok.mpr (List.forall₂_map_left_iff.mpr (List.forall₂_map_right_iff.mpr ?_))
    exact List.forall₂_same.mpr fun entry inside => findIdempotentMatch_eq_none.mpr (unmatched entry inside)
  have stored : (entries.map StoredConversationEvent.input).mapM (storedEntry input.conversationId) = .ok entries :=
    mapM_eq_ok.mpr (storedEntries.mpr ⟨rfl, cursors⟩)
  have none : (List.filter Option.isSome (entries.map fun _ => (Option.none : Option IndexedEntry))) = [] := by
    simp
  refine ⟨⟨.appended, entries, (entries.getLast?.map fun entry => entry.event.revision).getD 0⟩, ?_⟩
  unfold append
  refine bind_eq_ok.mpr ⟨_, valid, bind_eq_ok.mpr ⟨_, found, ?_⟩⟩
  rw [none, List.length_nil, if_neg (Nat.lt_irrefl 0), if_neg (not_not.mpr current)]
  exact bind_eq_ok.mpr ⟨_, stored, rfl⟩

theorem Indexed.append (indexed : store.Indexed) {next : InMemoryStore} {result : AppendResult}
    (appended : store.append input = .ok (next, result)) : next.Indexed := by
  obtain ⟨events, _, _, batch, ⟨rfl, _⟩ | ⟨unmatched, current, entries, rfl, cursors, rfl, _⟩⟩ := append_cases appended
  · exact indexed
  · have length : input.expectedRevision.getD 0 = (store.conversations input.conversationId).length := by
      rw [current, indexed.getLatestRevision_getD]
    rw [length] at batch
    exact indexed.pushAll batch (fun entry inside => unmatched _ (List.mem_map_of_mem inside)) cursors

theorem append_grows {next : InMemoryStore} {result : AppendResult}
    (appended : store.append input = .ok (next, result)) (c : Identifier) : store.conversations c <+: next.conversations c := by
  obtain ⟨_, _, _, _, ⟨rfl, _⟩ | ⟨_, _, entries, _, _, rfl, _⟩⟩ := append_cases appended
  · exact List.prefix_rfl
  · rw [push_conversations]
    by_cases here : c = input.conversationId
    · subst here
      rw [Function.update_self]
      exact List.prefix_append ..
    · simp [Function.update_of_ne here]

end InMemoryStore

end Handrail.Conversation

import Handrail.Conversation.EventStore

/-!
# `dual-write-event-store.ts`

Every accepted append is written to the primary store and then, if possible, to the shadow. As long as
no retry under a new event identity reaches a shadow that has missed the original, the shadow's log is
a prefix of the primary's, and a reconciliation completes it.
-/

namespace Handrail.Conversation
open Js

variable [WebPlatform]

/-! ### Stores -/

structure DualWriteOptions where
  reconciliationPageSize : Nat
  range : 1 ≤ reconciliationPageSize ∧ reconciliationPageSize ≤ 1000

structure DualStores where
  primary : InMemoryStore
  shadow : InMemoryStore

inductive ReconciliationResult where
  | converged (repairedEvents : Nat) (revision : Option Nat)
  | divergent (revision : Nat) (primaryEventId shadowEventId : Identifier)
deriving DecidableEq

def StoredConversationEvent.clone (entry : StoredConversationEvent) : EventInput :=
  ⟨entry.value, (Json.wellFormed_roundTrip _).trans entry.input.wellFormed⟩

namespace DualStores

def empty : DualStores := ⟨.empty, .empty⟩

/-- `append`, with a shadow that is available or fails without effect. -/
def append (stores : DualStores) (input : AppendInput) (shadowAvailable : Bool) :
    DualStores × Except AppendError AppendResult :=
  match stores.primary.append input with
  | .error error => (stores, .error error)
  | .ok (primary, result) =>
    let shadow := if shadowAvailable then
      match stores.shadow.append input with
      | .ok (shadow, _) => shadow
      | .error _ => stores.shadow
      else stores.shadow
    (⟨primary, shadow⟩, .ok result)

section
variable (options : DualWriteOptions) (conversationId : Identifier)

/-- The loop of `all`, with the pages that are left to read. -/
def allPages (store : InMemoryStore) :
    Nat → Option Nat → List StoredConversationEvent → Option (List StoredConversationEvent)
  | 0, _, _ => none
  | pages + 1, revision, entries =>
    let page := store.read conversationId revision options.reconciliationPageSize
    if !page.hasMore || page.entries.isEmpty then some (entries ++ page.entries)
    else allPages store pages (page.entries.getLast?.map fun entry => entry.event.revision) (entries ++ page.entries)

/-- `all`, `none` when it reads more pages than there are entries. -/
def all (store : InMemoryStore) : Option (List StoredConversationEvent) :=
  allPages options conversationId store ((store.conversations conversationId).length + 1) none []

def firstDifference : List StoredConversationEvent → List StoredConversationEvent →
    Option (StoredConversationEvent × StoredConversationEvent)
  | left :: primary, right :: shadow =>
    if !jsonValuesEqual left.value right.value then some (left, right) else firstDifference primary shadow
  | _, _ => none

def repair : Nat → List StoredConversationEvent → InMemoryStore → InMemoryStore × Except AppendError Unit
  | batches + 1, first :: rest, shadow =>
    let batch := (first :: rest).take options.reconciliationPageSize
    let before := first.event.revision - 1
    match shadow.append ⟨conversationId, if before = 0 then none else some before,
        batch.map StoredConversationEvent.clone⟩ with
    | .ok (shadow, _) => repair batches ((first :: rest).drop options.reconciliationPageSize) shadow
    | .error error => (shadow, .error error)
  | _, _, shadow => (shadow, .ok ())

def reconcile (stores : DualStores) : Option (DualStores × Except AppendError ReconciliationResult) := do
  let primary ← all options conversationId stores.primary
  let shadow ← all options conversationId stores.shadow
  match firstDifference primary shadow, shadow[primary.length]? with
  | some (left, right), _ => some (stores, .ok (.divergent left.event.revision left.event.eventId right.event.eventId))
  | none, some extra =>
    let left := primary.getLast?.getD extra
    some (stores, .ok (.divergent left.event.revision left.event.eventId extra.event.eventId))
  | none, none =>
    let missing := primary.drop shadow.length
    let (repaired, outcome) := repair options conversationId missing.length missing stores.shadow
    some (⟨stores.primary, repaired⟩, outcome.map fun _ =>
      .converged missing.length (primary.getLast?.map fun entry => entry.event.revision))

end

end DualStores

/-! ### Runs -/

structure DualCall where
  input : AppendInput
  shadowAvailable : Bool

namespace DualStores

def step (stores : DualStores) (call : DualCall) : DualStores := (stores.append call.input call.shadowAvailable).1

def run (stores : DualStores) (calls : List DualCall) : DualStores := calls.foldl step stores

/-- The call reaches the shadow, at the end of a log that misses entries, with the retry of a mutation under a new
event identity. -/
def retriesMissed (stores : DualStores) (call : DualCall) : Bool :=
  let conversationId := call.input.conversationId
  (stores.primary.append call.input).isOk && call.shadowAvailable &&
    stores.shadow.getLatestRevision conversationId == call.input.expectedRevision &&
    stores.shadow.getLatestRevision conversationId != stores.primary.getLatestRevision conversationId &&
    call.input.events.any fun value => match value.parse with
      | .ok parsed => (stores.primary.eventIds parsed.event.eventId).isNone &&
          (parsed.event.mutationId.bind stores.primary.mutationIds).isSome
      | .error _ => false

def neverRetriesMissed : DualStores → List DualCall → Bool
  | _, [] => true
  | stores, call :: rest => !stores.retriesMissed call && neverRetriesMissed (stores.step call) rest

def EqualLogs (left right : List StoredConversationEvent) : Prop :=
  List.Forall₂ (fun left right => jsonValuesEqual left.value right.value = true) left right

def Behind (stores : DualStores) : Prop := ∀ c,
  EqualLogs ((stores.primary.conversations c).take (stores.shadow.conversations c).length) (stores.shadow.conversations c)

end DualStores

/-! ### Identities of equal values -/

theorem parsed_identities {value : Json} {event : ConversationEvent} (parsed : parseConversationEvent value = .ok event) :
    ∃ fields, value = .obj fields ∧ Json.get fields "event_id" = some (.str event.eventId.text) ∧
      Json.get fields "mutation_id" = event.mutationId.map fun id => .str id.text := by
  simp only [parseConversationEvent, under_eq_ok, bind_eq_ok, record_eq_ok] at parsed
  obtain ⟨fields, ⟨same, _⟩, _, _, _, _, rest⟩ := parsed
  refine ⟨fields, Option.some.inj same, ?_⟩
  split at rest
  · cases rest
  · simp only [bind_eq_ok, field_eq_ok] at rest
    obtain ⟨_, eventId, _, _, _, _, _, _, _, _, _, _, _, mutationOk, _, _, _, _, _, _, h⟩ := rest
    obtain rfl := Except.ok.inj h
    refine ⟨stringValue_eq_ok.mp eventId, ?_⟩
    obtain ⟨mutationId, read, rest⟩ := bind_eq_ok.mp mutationOk
    split at rest
    · cases rest
    · obtain rfl := Except.ok.inj rest
      rcases optionalField_eq_ok.mp read with ⟨rfl, absent⟩ | ⟨_, _, found, accepted, rfl⟩
      · exact absent
      · rw [found, Option.some.inj (stringValue_eq_ok.mp accepted)]
        rfl

theorem value_identities (entry : StoredConversationEvent) : ∃ fields, entry.value = .obj fields ∧
    (Json.keys fields).Nodup ∧ Json.get fields "event_id" = some (.str entry.event.eventId.text) ∧
    Json.get fields "mutation_id" = entry.event.mutationId.map fun id => .str id.text := by
  obtain ⟨fields, same, eventId, mutationId⟩ := parsed_identities entry.input.parsed
  have wellFormed := entry.clone.wellFormed
  have value : entry.value = .obj (fields.map fun field => (field.1, field.2.roundTrip)) := by
    rw [StoredConversationEvent.value, same, Json.roundTrip_obj]
  refine ⟨_, value, ?_, ?_, ?_⟩
  · have wellFormed : entry.value.wellFormed = true := wellFormed
    rw [value, Json.wellFormed_obj] at wellFormed
    exact wellFormed.1
  · rw [Json.get, lookup_roundTrip, show fields.lookup _ = _ from eventId]
    rfl
  · rw [Json.get, lookup_roundTrip, show fields.lookup _ = _ from mutationId, Option.map_map]
    rfl

theorem identities_of_equal {left right : StoredConversationEvent} (same : jsonValuesEqual left.value right.value = true) :
    left.event.eventId = right.event.eventId ∧ left.event.mutationId = right.event.mutationId := by
  obtain ⟨fields, value, distinct, eventId, mutationId⟩ := value_identities left
  obtain ⟨fields', value', distinct', eventId', mutationId'⟩ := value_identities right
  rw [value, value'] at same
  have text {key : String} {text : JsString} (found : Json.get fields key = some (.str text)) :
      Json.get fields' key = some (.str text) :=
    get_string_of_equal same (Json.mem_of_lookup found)
  constructor
  · have both := (text eventId).symm.trans eventId'
    exact BoundedText.ext (Json.str.inj (Option.some.inj both))
  · cases named : left.event.mutationId with
    | some id =>
      rw [named] at mutationId
      have both := (text mutationId).symm.trans mutationId'
      cases named' : right.event.mutationId with
      | none =>
        rw [named'] at both
        cases both
      | some id' =>
        rw [named'] at both
        rw [BoundedText.ext (Json.str.inj (Option.some.inj both))]
    | none =>
      cases named' : right.event.mutationId with
      | none => rfl
      | some id' =>
        obtain ⟨_, h, perm, _⟩ := jsonValuesEqual_obj same
        obtain rfl := Json.obj.inj h
        rw [named] at mutationId
        rw [named'] at mutationId'
        have inside : js "mutation_id" ∈ Json.keys fields :=
          perm.mem_iff.mpr (Json.lookup_isSome_iff.mp (by rw [show fields'.lookup _ = _ from mutationId']; rfl))
        have found := Json.lookup_isSome_iff.mpr inside
        rw [show fields.lookup _ = _ from mutationId] at found
        cases found

/-! ### What the shadow knows -/

namespace DualStores
variable {stores : DualStores}

variable {entry : StoredConversationEvent} {c : Identifier}

/-- What the shadow finds by an identity stands in the part of the primary's log that it has. -/
theorem Behind.of_mem (behind : stores.Behind)
    (inside : entry ∈ stores.shadow.conversations c) :
    ∃ original ∈ (stores.primary.conversations c).take (stores.shadow.conversations c).length,
      original.event.eventId = entry.event.eventId ∧ original.event.mutationId = entry.event.mutationId := by
  obtain ⟨original, member, same⟩ := forall₂_mem_left (List.Forall₂.flip (behind c)) inside
  exact ⟨original, member, identities_of_equal same⟩

theorem Behind.original_of_eventId (behind : stores.Behind) (primary : stores.primary.Indexed)
    (shadow : stores.shadow.Indexed) {id c : Identifier}
    (found : stores.shadow.eventIds id = some ⟨c, entry⟩) :
    ∃ original ∈ (stores.primary.conversations c).take (stores.shadow.conversations c).length,
      stores.primary.eventIds id = some ⟨c, original⟩ := by
  obtain ⟨member, named⟩ := (shadow.eventIds _ _ _).mp found
  obtain ⟨original, taken, same, _⟩ := behind.of_mem member
  exact ⟨original, taken, (primary.eventIds _ _ _).mpr ⟨List.mem_of_mem_take taken, same.trans named⟩⟩

theorem Behind.original_of_mutationId (behind : stores.Behind) (primary : stores.primary.Indexed)
    (shadow : stores.shadow.Indexed) {id c : Identifier}
    (found : stores.shadow.mutationIds id = some ⟨c, entry⟩) :
    ∃ original ∈ (stores.primary.conversations c).take (stores.shadow.conversations c).length,
      stores.primary.mutationIds id = some ⟨c, original⟩ := by
  obtain ⟨member, named⟩ := (shadow.mutationIds _ _ _).mp found
  obtain ⟨original, taken, _, same⟩ := behind.of_mem member
  exact ⟨original, taken, (primary.mutationIds _ _ _).mpr ⟨List.mem_of_mem_take taken, same.trans named⟩⟩

/-- An event is unknown to the shadow when the primary finds none of its identities in the part that the shadow has. -/
theorem Behind.unmatched_of (behind : stores.Behind) (primary : stores.primary.Indexed) (shadow : stores.shadow.Indexed)
    {event : ConversationEvent}
    (eventId : ∀ c original, stores.primary.eventIds event.eventId = some ⟨c, original⟩ →
      original ∉ (stores.primary.conversations c).take (stores.shadow.conversations c).length)
    (mutationId : ∀ m ∈ event.mutationId, ∀ c original, stores.primary.mutationIds m = some ⟨c, original⟩ →
      original ∉ (stores.primary.conversations c).take (stores.shadow.conversations c).length) :
    stores.shadow.Unmatched event := by
  constructor
  · by_contra known
    obtain ⟨⟨c, entry⟩, found⟩ := Option.ne_none_iff_exists'.mp known
    obtain ⟨original, taken, found⟩ := behind.original_of_eventId primary shadow found
    exact eventId c original found taken
  · intro m given
    by_contra known
    obtain ⟨⟨c, entry⟩, found⟩ := Option.ne_none_iff_exists'.mp known
    obtain ⟨original, taken, found⟩ := behind.original_of_mutationId primary shadow found
    exact mutationId m given c original found taken

theorem Behind.unmatched_beyond (behind : stores.Behind) (primary : stores.primary.Indexed) (shadow : stores.shadow.Indexed)
    (beyond : entry ∈ (stores.primary.conversations c).drop (stores.shadow.conversations c).length) :
    stores.shadow.Unmatched entry.event := by
  have inside := List.mem_of_mem_drop beyond
  -- One entry has one revision, so it is not in both parts.
  have apart : entry ∉ (stores.primary.conversations c).take (stores.shadow.conversations c).length := fun taken =>
    Nat.not_lt.mpr (primary.revision_of_mem_take taken) (primary.revision_of_mem_drop beyond)
  refine behind.unmatched_of primary shadow (fun c' original found => ?_) fun m given c' original found => ?_
  · have same := (primary.eventIds _ _ _).mpr ⟨inside, rfl⟩
    cases found.symm.trans same
    exact apart
  · have same := (primary.mutationIds _ _ _).mpr ⟨inside, given⟩
    cases found.symm.trans same
    exact apart

/-! ### One append -/

theorem EqualLogs.refl (entries : List StoredConversationEvent) : EqualLogs entries entries :=
  List.forall₂_same.mpr fun entry _ => jsonValuesEqual_self entry.clone.wellFormed

theorem EqualLogs.length_le {left right : List StoredConversationEvent} {k : Nat} (same : EqualLogs (left.take k) right)
    (length : right.length = k) : k ≤ left.length := by
  have both := same.length_eq
  rw [List.length_take] at both
  omega

structure Consistent (stores : DualStores) : Prop where
  primary : stores.primary.Indexed
  shadow : stores.shadow.Indexed
  behind : stores.Behind

theorem Behind.grow (behind : stores.Behind) {primary : InMemoryStore}
    (grows : ∀ c, stores.primary.conversations c <+: primary.conversations c) : Behind ⟨primary, stores.shadow⟩ := by
  intro c
  obtain ⟨more, grown⟩ := grows c
  show EqualLogs ((primary.conversations c).take _) _
  rw [← grown, List.take_append_of_le_length ((behind c).length_le rfl)]
  exact behind c

theorem Behind.extend (behind : stores.Behind) {entries : List StoredConversationEvent}
    (same : EqualLogs (((stores.primary.conversations c).drop (stores.shadow.conversations c).length).take entries.length)
      entries) :
    Behind ⟨stores.primary, entries.foldl (InMemoryStore.push c) stores.shadow⟩ := by
  intro c'
  show EqualLogs ((stores.primary.conversations c').take
    ((entries.foldl (InMemoryStore.push c) stores.shadow).conversations c').length) _
  rw [InMemoryStore.push_conversations]
  by_cases here : c' = c
  · subst here
    rw [Function.update_self, List.length_append, List.take_add]
    exact List.rel_append (behind c') same
  · rw [Function.update_of_ne here]
    exact behind c'

/-- The entries that answer a complete retry are those behind its expected revision. -/
theorem retried_entries {store : InMemoryStore} (indexed : store.Indexed) {k : Nat}
    {events : List ParsedEvent} {found : List IndexedEntry}
    (each : List.Forall₂ (fun parsed found => store.findIdempotentMatch parsed = .ok (some found)) events found)
    (conversation : ∀ entry ∈ found, entry.conversationId = c)
    (revisions : found.map (fun entry => entry.entry.event.revision) = List.range' (k + 1) found.length) :
    ((store.conversations c).drop k).take found.length = found.map IndexedEntry.entry := by
  refine List.ext_getElem? fun i => ?_
  by_cases short : i < found.length
  · rw [List.getElem?_take_of_lt short, List.getElem?_drop, List.getElem?_map, List.getElem?_eq_getElem short]
    have inside := List.getElem_mem short
    obtain ⟨parsed, _, matches_⟩ := forall₂_mem_left (List.Forall₂.flip each) inside
    have stored : found[i].entry ∈ store.conversations c := by
      rw [← conversation _ inside]
      exact indexed.mem_of_match matches_
    have revision : found[i].entry.event.revision = k + 1 + i := by
      have both := congrArg (fun l => l[i]?) revisions
      simp only [List.getElem?_map, List.getElem?_eq_getElem short, Option.map_some, List.getElem?_range' short] at both
      have same := Option.some.inj both
      omega
    have at_ := (indexed.getElem?_of_mem stored).2
    rw [revision] at at_
    rw [show k + i = k + 1 + i - 1 by omega, at_]
    rfl
  · rw [List.getElem?_eq_none (by rw [List.length_take]; omega), List.getElem?_eq_none (by rw [List.length_map]; omega)]

/-- A retry that the shadow stores, every event of which the primary knows by its identity. -/
theorem equal_of_known {store : InMemoryStore} {events : List ParsedEvent} {found : List IndexedEntry}
    {entries : List StoredConversationEvent} (inputs : entries.map StoredConversationEvent.input = events)
    (each : List.Forall₂ (fun parsed found => store.findIdempotentMatch parsed = .ok (some found)) events found)
    (known : ∀ parsed ∈ events, store.eventIds parsed.event.eventId ≠ none) :
    EqualLogs (found.map IndexedEntry.entry) entries := by
  subst inputs
  induction entries generalizing found with
  | nil =>
    cases each
    exact .nil
  | cons entry rest ih =>
    obtain _ | ⟨matches_, each⟩ := each
    simp only [List.map_cons, List.forall_mem_cons] at known
    refine .cons ?_ (ih each known.2)
    rcases InMemoryStore.findIdempotentMatch_eq_some matches_ with ⟨_, same⟩ | ⟨unknown, _⟩
    · have cloned := jsonEqual_clone (StoredConversationEvent.clone _).wellFormed entry.input.wellFormed same
      rwa [show ∀ e : StoredConversationEvent, e.clone.value.roundTrip = e.value from
        fun e => Json.roundTrip_roundTrip _] at cloned
    · exact (known.1 unknown).elim

theorem known_of_faithful (primary : stores.primary.Indexed) (shadow : stores.shadow.Indexed) {call : DualCall}
    {events : List ParsedEvent} {found : List IndexedEntry} (faithful : stores.retriesMissed call = false)
    (accepted : (stores.primary.append call.input).isOk = true) (available : call.shadowAvailable = true)
    (current : call.input.expectedRevision = stores.shadow.getLatestRevision call.input.conversationId)
    (more : (stores.shadow.conversations call.input.conversationId).length <
      (stores.primary.conversations call.input.conversationId).length)
    (inputs : events.map ParsedEvent.toEventInput = call.input.events)
    (each : List.Forall₂ (fun parsed found => stores.primary.findIdempotentMatch parsed = .ok (some found)) events found) :
    ∀ parsed ∈ events, stores.primary.eventIds parsed.event.eventId ≠ none := by
  intro parsed inside unknown
  have revisions : stores.shadow.getLatestRevision call.input.conversationId ≠
      stores.primary.getLatestRevision call.input.conversationId := by
    rw [shadow.getLatestRevision, primary.getLatestRevision]
    split <;> split <;> simp <;> omega
  obtain ⟨entry, _, matches_⟩ := forall₂_mem_left each inside
  rcases InMemoryStore.findIdempotentMatch_eq_some matches_ with ⟨known, _⟩ | ⟨_, mutationId, given, known⟩
  · cases unknown.symm.trans known
  · refine Bool.false_ne_true (faithful.symm.trans ?_)
    have given : parsed.event.mutationId = some mutationId := given
    simp only [retriesMissed, accepted, available, current, beq_self_eq_true, Bool.true_and, Bool.and_eq_true, bne_iff_ne, ne_eq,
      revisions, not_false_eq_true, true_and, List.any_eq_true]
    refine ⟨parsed.toEventInput, inputs ▸ List.mem_map_of_mem inside, ?_⟩
    simp [parse_eq_ok.mpr rfl, unknown, given, known]

theorem entries_unique {entries entries' : List StoredConversationEvent}
    (same : entries.map StoredConversationEvent.input = entries'.map StoredConversationEvent.input)
    (cursors : ∀ entry ∈ entries, memoryCursor c entry.event.revision = some entry.cursor)
    (cursors' : ∀ entry ∈ entries', memoryCursor c entry.event.revision = some entry.cursor) : entries = entries' := by
  induction entries generalizing entries' with
  | nil => exact (List.map_eq_nil_iff.mp same.symm).symm
  | cons entry rest ih =>
    cases entries' with
    | nil => cases same
    | cons entry' rest' =>
      obtain ⟨here, later⟩ := List.cons.inj same
      rw [List.forall_mem_cons] at cursors cursors'
      obtain ⟨cursor, input⟩ := entry
      obtain ⟨cursor', input'⟩ := entry'
      obtain rfl : input = input' := here
      obtain rfl := Option.some.inj (cursors.1.symm.trans cursors'.1)
      rw [ih later cursors.2 cursors'.2]

theorem Consistent.step (consistent : stores.Consistent) {call : DualCall} (faithful : stores.retriesMissed call = false) :
    (stores.step call).Consistent := by
  obtain ⟨primary, shadow, behind⟩ := consistent
  unfold DualStores.step DualStores.append
  split
  · exact ⟨primary, shadow, behind⟩
  · rename_i next result appended
    have grown := behind.grow (InMemoryStore.append_grows appended)
    split
    · rename_i available
      dsimp only
      split
      · rename_i next' result' appended'
        refine ⟨primary.append appended, shadow.append appended', ?_⟩
        obtain ⟨events, nonempty, inputs, _, first⟩ := InMemoryStore.append_cases appended
        obtain ⟨events', _, inputs', _, ⟨rfl, _⟩ | ⟨_, current, entries', made', cursors', rfl, _⟩⟩ :=
          InMemoryStore.append_cases appended'
        · exact grown
        · -- Both stores parse the same events.
          obtain rfl : events' = events := List.map_injective_iff.mpr (fun _ _ => ParsedEvent.ext) (inputs'.trans inputs.symm)
          have start : call.input.expectedRevision.getD 0 = (stores.shadow.conversations call.input.conversationId).length := by
            rw [current, shadow.getLatestRevision_getD]
          refine Behind.extend grown ?_
          show EqualLogs (((next.conversations _).drop (stores.shadow.conversations _).length).take _) _
          rcases first with ⟨rfl, found, each, conversation, revisions, _⟩ | ⟨_, current', entries, made, cursors, rfl, _⟩
          · have length : entries'.length = found.length := by
              rw [← each.length_eq, ← made', List.length_map]
            have retried := retried_entries primary each conversation revisions
            have more : (stores.shadow.conversations call.input.conversationId).length <
                (stores.primary.conversations call.input.conversationId).length := by
              by_contra none
              rw [start, List.drop_eq_nil_of_le (by omega), List.take_nil] at retried
              have empty : events'.length = 0 := by
                rw [each.length_eq, List.map_eq_nil_iff.mp retried.symm, List.length_nil]
              rw [← inputs, List.length_eq_zero_iff.mp empty] at nonempty
              exact nonempty rfl
            rw [length, ← start, retried]
            exact equal_of_known made' each (known_of_faithful primary shadow faithful (by rw [appended]; rfl)
              available current more inputs each)
          · obtain rfl := entries_unique (made.trans made'.symm) cursors cursors'
            have length : (stores.primary.conversations call.input.conversationId).length =
                (stores.shadow.conversations call.input.conversationId).length := by
              rw [← start, current', primary.getLatestRevision_getD]
            rw [InMemoryStore.push_conversations, Function.update_self, ← length, List.drop_left, List.take_length]
            exact EqualLogs.refl entries
      · exact ⟨primary.append appended, shadow, grown⟩
    · exact ⟨primary.append appended, shadow, grown⟩

theorem entries_exist {store : InMemoryStore} (indexed : store.Indexed) {x : StoredConversationEvent}
    (inside : x ∈ store.conversations c) (events : List ParsedEvent) : ∃ entries : List StoredConversationEvent,
      entries.map StoredConversationEvent.input = events ∧
        ∀ entry ∈ entries, memoryCursor c entry.event.revision = some entry.cursor := by
  obtain ⟨encoded, given, _⟩ := Option.map_eq_some_iff.mp (indexed.cursors c x inside)
  refine ⟨events.map fun parsed => ⟨js "memory:" ++ encoded ++ js ":" ++ decimal parsed.event.revision, parsed⟩, ?_, ?_⟩
  · rw [List.map_map]
    exact List.map_id _
  · rw [List.forall_mem_map]
    intro parsed _
    rw [memoryCursor, given]
    rfl

theorem Consistent.diverges (consistent : stores.Consistent) {call : DualCall} (missed : stores.retriesMissed call = true) :
    ¬(stores.step call).Behind := by
  obtain ⟨primary, shadow, behind⟩ := consistent
  simp only [retriesMissed, Bool.and_eq_true, beq_iff_eq, bne_iff_ne, ne_eq, List.any_eq_true] at missed
  obtain ⟨⟨⟨⟨accepted, available⟩, current⟩, short⟩, value, inside, retried⟩ := missed
  cases appended : stores.primary.append call.input with
  | error => rw [appended] at accepted; cases accepted
  | ok done =>
    obtain ⟨next, result⟩ := done
    cases read : value.parse with
    | error => rw [read] at retried; cases retried
    | ok parsed =>
      simp only [read, Bool.and_eq_true, Option.isNone_iff_eq_none, Option.isSome_iff_ne_none, ne_eq] at retried
      obtain ⟨unknown, known⟩ := retried
      obtain ⟨events, _, inputs, batch, first⟩ := InMemoryStore.append_cases appended
      have member : parsed ∈ events := by
        rw [← inputs] at inside
        obtain ⟨other, inside, same⟩ := List.mem_map.mp inside
        rwa [ParsedEvent.ext ((parse_eq_ok.mp read).trans same.symm)]
      rcases first with ⟨rfl, found, each, conversation, revisions, _⟩ | ⟨unmatched, _⟩
      · have length : call.input.expectedRevision.getD 0 = (stores.shadow.conversations call.input.conversationId).length := by
          rw [← current, shadow.getLatestRevision_getD]
        -- Each event is matched behind the part that the shadow has, so the shadow does not know it.
        have unmatched (other : ParsedEvent) (inside : other ∈ events) : stores.shadow.Unmatched other.event := by
          obtain ⟨entry, member, matches_⟩ := forall₂_mem_left each inside
          have beyond : (stores.shadow.conversations call.input.conversationId).length < entry.entry.event.revision := by
            have listed : entry.entry.event.revision ∈ found.map fun entry => entry.entry.event.revision :=
              List.mem_map_of_mem (f := fun entry : IndexedEntry => entry.entry.event.revision) member
            rw [revisions, List.mem_range'_1, length] at listed
            omega
          have apart (c : Identifier) (original : StoredConversationEvent)
              (place : c = entry.conversationId ∧ original.event.revision = entry.entry.event.revision) :
              original ∉ (stores.primary.conversations c).take (stores.shadow.conversations c).length := by
            intro taken
            have before := primary.revision_of_mem_take taken
            rw [place.1, conversation entry member] at before
            omega
          exact behind.unmatched_of primary shadow
            (fun c original known => apart c original (InMemoryStore.findIdempotentMatch_place matches_ (.inl known)))
            fun m given c original known =>
              apart c original (InMemoryStore.findIdempotentMatch_place matches_ (.inr ⟨m, given, known⟩))
        obtain ⟨entry, matched, matches_⟩ := forall₂_mem_left each member
        have stored : entry.entry ∈ stores.primary.conversations call.input.conversationId := by
          rw [← conversation entry matched]
          exact primary.mem_of_match matches_
        obtain ⟨entries, rfl, cursors⟩ := entries_exist primary stored events
        obtain ⟨copy, copied, rfl⟩ := List.mem_map.mp member
        obtain ⟨result', appended'⟩ : ∃ result, stores.shadow.append call.input =
            .ok (entries.foldl (InMemoryStore.push call.input.conversationId) stores.shadow, result) :=
          InMemoryStore.append_unmatched (List.ne_nil_of_mem copied) (by rw [← inputs, List.map_map]; rfl) batch
            (fun entry inside => unmatched _ (List.mem_map_of_mem inside)) current.symm cursors
        intro behind'
        unfold DualStores.step DualStores.append at behind'
        rw [appended, available, if_pos rfl, appended'] at behind'
        have there : copy ∈ (entries.foldl (InMemoryStore.push call.input.conversationId) stores.shadow).conversations
            call.input.conversationId := by
          rw [InMemoryStore.push_conversations, Function.update_self]
          exact List.mem_append_right _ copied
        obtain ⟨original, taken, same, _⟩ := behind'.of_mem there
        have known := (primary.eventIds _ _ _).mpr ⟨List.mem_of_mem_take taken, same⟩
        cases known.symm.trans unknown
      · -- The primary does not store a mutation that it knows.
        refine (known ?_).elim
        exact Option.bind_eq_none_iff.mpr (unmatched parsed member).2

end DualStores

end Handrail.Conversation

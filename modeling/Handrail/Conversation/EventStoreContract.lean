import Handrail.Conversation.DualWrite
import Handrail.Conversation.Restore

/-!
# The contract of the in-memory event store

Any calls of `append`, on one store. Stored events keep their identities and their places; a call that
succeeded is answered again from what is stored, until a retry's new event identity is given away.
-/

namespace Handrail.Conversation
open Js

/-! ### A stored event is its input -/

theorem jsonEqual_items {items : List Json} (ih : ∀ item ∈ items, jsonEqual item.roundTrip item = true) :
    itemsEqual (items.map Json.roundTrip) items = true := by
  induction items with
  | nil => rfl
  | cons item rest tail =>
    simp only [List.forall_mem_cons] at ih
    simp only [List.map_cons, itemsEqual, Bool.and_eq_true]
    exact ⟨ih.1, tail ih.2⟩

theorem jsonEqual_roundTrip {value : Json} (wellFormed : value.wellFormed = true) :
    jsonEqual value.roundTrip value = true := by
  induction value using Json.induction with
  | null => rfl
  | bool b => simp [jsonEqual]
  | num n => simp [jsonEqual, JsNumber.strictEqual]
  | str s => simp [jsonEqual]
  | arr items ih =>
    rw [Json.wellFormed_arr] at wellFormed
    simp only [Json.roundTrip_arr, jsonEqual, List.length_map, beq_self_eq_true, Bool.true_and]
    exact jsonEqual_items fun item member => ih item member (wellFormed item member)
  | obj fields ih =>
    rw [Json.wellFormed_obj] at wellFormed
    simp only [Json.roundTrip_obj, jsonEqual, List.length_map, beq_self_eq_true, Bool.true_and, fieldsEqual_iff,
      List.forall_mem_map]
    intro field inside
    exact ⟨field.2, Json.lookup_of_mem wellFormed.1 inside, ih field inside (wellFormed.2 field inside)⟩

section
variable [WebPlatform]

theorem sameClientMutation_stored (entry : StoredConversationEvent) {mutationId : Identifier}
    (named : entry.event.mutationId = some mutationId) : sameClientMutation entry.value entry.input.value = true := by
  obtain ⟨fields, same, _, given⟩ := parsed_identities entry.input.parsed
  have named : entry.input.event.mutationId = some mutationId := named
  have wellFormed := entry.input.wellFormed
  rw [same, Json.wellFormed_obj] at wellFormed
  have stored (key : String) : member entry.value key = (member entry.input.value key).map Json.roundTrip := by
    rw [StoredConversationEvent.value, same, Json.roundTrip_obj]
    exact lookup_roundTrip fields (js key)
  have equal (key : String) : membersEqual (member entry.value key) (member entry.input.value key) = true := by
    rw [stored, same]
    show membersEqual ((Json.get fields key).map Json.roundTrip) (Json.get fields key) = true
    cases found : Json.get fields key with
    | none => rfl
    | some value => exact jsonEqual_roundTrip (wellFormed.2 _ (Json.mem_of_lookup found))
  have identified : (member entry.input.value "mutation_id").isSome = true := by
    rw [same]
    show (Json.get fields "mutation_id").isSome = true
    rw [given, named]
    rfl
  simp only [sameClientMutation, Bool.and_eq_true, List.all_eq_true]
  refine ⟨⟨?_, identified⟩, fun key _ => equal key⟩
  rwa [stored, Option.isSome_map]

namespace InMemoryStore
variable {store later : InMemoryStore}

theorem Indexed.match_stored (indexed : store.Indexed) {c : Identifier} {entry : StoredConversationEvent}
    (stored : entry ∈ store.conversations c) : store.findIdempotentMatch entry.input = .ok (some ⟨c, entry⟩) := by
  have eventMatch : store.eventIds entry.input.event.eventId = some ⟨c, entry⟩ :=
    (indexed.eventIds _ _ _).mpr ⟨stored, rfl⟩
  have equal : jsonEqual entry.value entry.input.value = true := jsonEqual_roundTrip entry.input.wellFormed
  unfold findIdempotentMatch
  dsimp only
  cases named : entry.input.event.mutationId with
  | none => simp [eventMatch, differentEntries, equal]
  | some mutationId =>
    have mutationMatch : store.mutationIds mutationId = some ⟨c, entry⟩ :=
      (indexed.mutationIds _ _ _).mpr ⟨stored, named⟩
    simp [eventMatch, mutationMatch, differentEntries, equal, sameClientMutation_stored entry named]

/-! ### Later stores -/

def Grows (store later : InMemoryStore) : Prop := ∀ c, store.conversations c <+: later.conversations c

theorem Grows.refl (store : InMemoryStore) : store.Grows store := fun _ => List.prefix_rfl

theorem Grows.trans {last : InMemoryStore} (first : store.Grows later) (second : later.Grows last) : store.Grows last :=
  fun c => (first c).trans (second c)

theorem Grows.eventIds (grows : store.Grows later) (indexed : store.Indexed) (indexed' : later.Indexed)
    {id : Identifier} {found : IndexedEntry} (known : store.eventIds id = some found) : later.eventIds id = some found := by
  obtain ⟨stored, named⟩ := (indexed.eventIds _ _ _).mp known
  exact (indexed'.eventIds _ _ _).mpr ⟨(grows _).subset stored, named⟩

theorem Grows.mutationIds (grows : store.Grows later) (indexed : store.Indexed) (indexed' : later.Indexed)
    {id : Identifier} {found : IndexedEntry} (known : store.mutationIds id = some found) :
    later.mutationIds id = some found := by
  obtain ⟨stored, named⟩ := (indexed.mutationIds _ _ _).mp known
  exact (indexed'.mutationIds _ _ _).mpr ⟨(grows _).subset stored, named⟩

theorem Indexed.mutation_of_match (indexed : store.Indexed) {parsed : ParsedEvent} {found : IndexedEntry}
    (matches_ : store.findIdempotentMatch parsed = .ok (some found)) {mutationId : Identifier}
    (named : parsed.event.mutationId = some mutationId) : store.mutationIds mutationId = some found := by
  rcases findIdempotentMatch_eq_some matches_ with ⟨known, equal⟩ | ⟨_, other, given, known⟩
  · obtain ⟨stored, _⟩ := (indexed.eventIds _ _ _).mp known
    refine (indexed.mutationIds _ _ _).mpr ⟨stored, ?_⟩
    -- The match is equal to the clone of the event, so their mutations are equal.
    have cloned := jsonEqual_clone found.entry.clone.wellFormed parsed.wellFormed equal
    have same : jsonValuesEqual found.entry.value (StoredConversationEvent.mk JsString.empty parsed).value = true := by
      rwa [show found.entry.clone.value.roundTrip = found.entry.value from Json.roundTrip_roundTrip _] at cloned
    exact (identities_of_equal same).2.trans named
  · obtain rfl := Option.some.inj (named.symm.trans given)
    exact known

/-- A match is found again as long as the identity of the event stays what it was. -/
theorem Grows.match_again (grows : store.Grows later) (indexed : store.Indexed) (indexed' : later.Indexed)
    {parsed : ParsedEvent} {found : IndexedEntry} (matches_ : store.findIdempotentMatch parsed = .ok (some found))
    (kept : later.eventIds parsed.event.eventId = store.eventIds parsed.event.eventId) :
    later.findIdempotentMatch parsed = .ok (some found) := by
  have mutation : parsed.event.mutationId.bind later.mutationIds = parsed.event.mutationId.bind store.mutationIds := by
    cases named : parsed.event.mutationId with
    | none => rfl
    | some mutationId =>
      have known := indexed.mutation_of_match matches_ named
      exact (grows.mutationIds indexed indexed' known).trans known.symm
  unfold findIdempotentMatch at matches_ ⊢
  dsimp only at matches_ ⊢
  rwa [mutation, kept]

theorem Grows.match_lost (grows : store.Grows later) (indexed : store.Indexed) (indexed' : later.Indexed)
    {parsed : ParsedEvent} {found other : IndexedEntry} (matches_ : store.findIdempotentMatch parsed = .ok (some found))
    (unknown : store.eventIds parsed.event.eventId = none)
    (taken : later.eventIds parsed.event.eventId = some other) :
    later.findIdempotentMatch parsed = .error (idempotencyConflict parsed.event (some parsed.event.eventId.text)) := by
  rcases findIdempotentMatch_eq_some matches_ with ⟨known, _⟩ | ⟨_, mutationId, given, known⟩
  · cases unknown.symm.trans known
  · have kept := grows.mutationIds indexed indexed' known
    have given : parsed.event.mutationId = some mutationId := given
    have different : differentEntries (some other) (some found) = true := by
      simp only [differentEntries, Bool.or_eq_true, bne_iff_ne]
      by_contra alike
      simp only [not_or, not_not] at alike
      obtain ⟨stored, named⟩ := (indexed'.eventIds _ _ _).mp taken
      obtain ⟨stored', _⟩ := (indexed'.mutationIds _ _ _).mp kept
      have at_ := (indexed'.getElem?_of_mem stored).2
      have at' := (indexed'.getElem?_of_mem stored').2
      rw [alike.1, alike.2, at'] at at_
      -- At one place there is one entry, but the match had another event identity.
      have stored := ((indexed.mutationIds _ _ _).mp known).1
      have entry := (indexed.eventIds _ _ _).mpr ⟨stored, rfl⟩
      rw [Option.some.inj at_, named, unknown] at entry
      cases entry
    unfold findIdempotentMatch
    dsimp only
    rw [if_pos]
    rwa [taken, given, Option.bind_some, kept]

/-! ### Retries -/

variable {input : AppendInput}

theorem append_matched {events : List ParsedEvent} {found : List IndexedEntry}
    (nonempty : input.events ≠ []) (inputs : events.map ParsedEvent.toEventInput = input.events)
    (batch : ValidBatch input.conversationId (input.expectedRevision.getD 0 + 1) [] [] events)
    (each : List.Forall₂ (fun parsed found => store.findIdempotentMatch parsed = .ok (some found)) events found)
    (conversation : ∀ entry ∈ found, entry.conversationId = input.conversationId)
    (revisions : found.map (fun entry => entry.entry.event.revision) =
      List.range' (input.expectedRevision.getD 0 + 1) found.length) :
    store.append input = .ok (store, ⟨.idempotent, found.map IndexedEntry.entry,
      (store.getLatestRevision input.conversationId).getD 0⟩) := by
  have valid : validateAppend input (store.getLatestRevision input.conversationId) = .ok events :=
    validateAppend_eq_ok.mpr ⟨nonempty, inputs, batch⟩
  have known : events.mapM store.findIdempotentMatch = .ok (found.map some) := by
    refine mapM_eq_ok.mpr ?_
    exact (List.forall₂_map_right_iff (R := fun parsed result => store.findIdempotentMatch parsed = .ok result)
      (f := some)).mpr each
  have all : (found.map some).filter Option.isSome = found.map some := by
    rw [List.filter_eq_self]
    simp
  have counted : (found.map some).length = input.events.length := by
    rw [List.length_map, ← each.length_eq, ← inputs, List.length_map]
  have positive : 0 < input.events.length := List.length_pos_iff.mpr nonempty
  have complete (n : Nat) (pairs : List (ParsedEvent × IndexedEntry))
      (conversation : ∀ pair ∈ pairs, pair.2.conversationId = input.conversationId)
      (revisions : pairs.map (fun pair => pair.2.entry.event.revision) = List.range' n pairs.length) :
      validateCompleteRetry input (store.getLatestRevision input.conversationId) n pairs = .ok () := by
    induction pairs generalizing n with
    | nil => rfl
    | cons pair rest ih =>
      rw [List.map_cons, List.length_cons, List.range'_succ, List.cons.injEq] at revisions
      rw [List.forall_mem_cons] at conversation
      rw [validateCompleteRetry, if_neg (by simp [conversation.1, revisions.1])]
      exact ih (n + 1) conversation.2 revisions.2
  have pairs : (events.zip found).map Prod.snd = found := List.map_snd_zip (by rw [each.length_eq])
  unfold append
  refine bind_eq_ok.mpr ⟨_, valid, bind_eq_ok.mpr ⟨_, known, ?_⟩⟩
  have matched : (found.map some).filterMap id = found := by simp
  rw [all, counted, if_pos positive, if_neg (by simp), matched]
  refine bind_eq_ok.mpr ⟨(), complete _ _ (fun pair inside => ?_) ?_, rfl⟩
  · refine conversation pair.2 ?_
    rw [← pairs]
    exact List.mem_map_of_mem inside
  · rw [← congrArg List.length pairs, List.length_map] at revisions
    rw [← revisions]
    conv_rhs => rw [← pairs]
    rw [List.map_map]
    rfl

/-- The store and the outcome after a call. What an append throws, it throws before its first write. -/
def call (store : InMemoryStore) (input : AppendInput) : InMemoryStore × Except AppendError AppendResult :=
  match store.append input with
  | .ok (next, result) => (next, .ok result)
  | .error error => (store, .error error)

def run (inputs : List AppendInput) : InMemoryStore := inputs.foldl (fun store input => (store.call input).1) empty

theorem call_eq_ok {result : AppendResult} :
    (store.call input).2 = .ok result ↔ store.append input = .ok ((store.call input).1, result) := by
  unfold call
  split
  · rename_i appended
    rw [appended]
    simp
  · rename_i thrown
    rw [thrown]
    simp

theorem Indexed.call (indexed : store.Indexed) (input : AppendInput) :
    (store.call input).1.Indexed ∧ store.Grows (store.call input).1 := by
  unfold InMemoryStore.call
  split
  · rename_i appended
    exact ⟨indexed.append appended, append_grows appended⟩
  · exact ⟨indexed, .refl store⟩

theorem Indexed.calls (indexed : store.Indexed) (inputs : List AppendInput) :
    (inputs.foldl (fun store input => (store.call input).1) store).Indexed ∧
      store.Grows (inputs.foldl (fun store input => (store.call input).1) store) := by
  induction inputs generalizing store with
  | nil => exact ⟨indexed, .refl store⟩
  | cons input rest ih =>
    obtain ⟨called, grows⟩ := indexed.call input
    obtain ⟨finished, further⟩ := ih called
    exact ⟨finished, grows.trans further⟩

theorem run_indexed (inputs : List AppendInput) : (run inputs).Indexed := (Indexed.empty.calls inputs).1

def KeepsIdentities (store later : InMemoryStore) (input : AppendInput) : Prop :=
  ∀ value ∈ input.events, ∀ parsed : ParsedEvent, value.parse = .ok parsed →
    later.eventIds parsed.event.eventId = store.eventIds parsed.event.eventId

theorem Grows.stored_again (grows : store.Grows later) (indexed' : later.Indexed)
    {entries : List StoredConversationEvent} {events : List ParsedEvent} (nonempty : input.events ≠ [])
    (inputs : events.map ParsedEvent.toEventInput = input.events)
    (batch : ValidBatch input.conversationId (input.expectedRevision.getD 0 + 1) [] [] events)
    (made : entries.map StoredConversationEvent.input = events)
    (stored : ∀ entry ∈ entries, entry ∈ store.conversations input.conversationId) :
    later.append input = .ok (later, ⟨.idempotent, entries, (later.getLatestRevision input.conversationId).getD 0⟩) := by
  have each : List.Forall₂ (fun parsed found => later.findIdempotentMatch parsed = .ok (some found)) events
      (entries.map (IndexedEntry.mk input.conversationId)) := by
    subst made
    refine List.forall₂_map_left_iff.mpr (List.forall₂_map_right_iff.mpr (List.forall₂_same.mpr fun entry inside => ?_))
    exact indexed'.match_stored ((grows _).subset (stored entry inside))
  have revisions := batch.revisions
  rw [← made, List.map_map, List.length_map] at revisions
  have answered := append_matched nonempty inputs batch each (by simp) (by
    rw [List.map_map, List.length_map]
    exact revisions)
  rwa [List.map_map, show IndexedEntry.entry ∘ IndexedEntry.mk input.conversationId = id from rfl, List.map_id] at answered

/-- A call that succeeded succeeds again, as a retry with the same entries, as long as its event identities are kept. -/
theorem Indexed.succeeds_again (indexed : store.Indexed) {result : AppendResult}
    (succeeded : (store.call input).2 = .ok result) (grows : (store.call input).1.Grows later) (indexed' : later.Indexed) :
    (∃ latestRevision, (later.call input).2 = .ok ⟨.idempotent, result.entries, latestRevision⟩) ↔
      (store.call input).1.KeepsIdentities later input := by
  have appended := call_eq_ok.mp succeeded
  obtain ⟨events, nonempty, inputs, batch, outcome⟩ := append_cases appended
  have called := (indexed.call input).1
  constructor
  · rintro ⟨latestRevision, again⟩ value inside parsed read
    have member : parsed ∈ events := by
      rw [← inputs] at inside
      obtain ⟨other, inside, same⟩ := List.mem_map.mp inside
      rwa [ParsedEvent.ext ((parse_eq_ok.mp read).trans same.symm)]
    cases before : (store.call input).1.eventIds parsed.event.eventId with
    | some found => exact grows.eventIds called indexed' before
    | none =>
      by_contra taken
      obtain ⟨other, taken⟩ := Option.ne_none_iff_exists'.mp taken
      rcases outcome with ⟨same, found, each, _⟩ | ⟨_, _, entries, made, _, next, _⟩
      · rw [same] at before grows
        obtain ⟨entry, _, matches_⟩ := forall₂_mem_left each member
        have lost := grows.match_lost indexed indexed' matches_ before taken
        -- The retry then throws, so it is not answered.
        obtain ⟨events', _, inputs', _, again⟩ := append_cases (call_eq_ok.mp again)
        obtain rfl : events' = events := List.map_injective_iff.mpr (fun _ _ => ParsedEvent.ext) (inputs'.trans inputs.symm)
        rcases again with ⟨_, found', each', _⟩ | ⟨unmatched, _⟩
        · obtain ⟨entry', _, matches'⟩ := forall₂_mem_left each' member
          cases lost.symm.trans matches'
        · cases lost.symm.trans (findIdempotentMatch_eq_none.mpr (unmatched parsed member))
      · rw [← made] at member
        obtain ⟨entry, inside, rfl⟩ := List.mem_map.mp member
        have stored : entry ∈ (store.call input).1.conversations input.conversationId := by
          rw [next, push_conversations, Function.update_self]
          exact List.mem_append_right _ inside
        cases before.symm.trans ((called.eventIds _ _ _).mpr ⟨stored, rfl⟩)
  · intro kept
    rcases outcome with ⟨same, found, each, conversation, revisions, _, entries⟩ | ⟨_, _, entries, made, _, next, _, same⟩
    · rw [same] at kept grows
      have again : List.Forall₂ (fun parsed found => later.findIdempotentMatch parsed = .ok (some found)) events found := by
        refine ((List.forall₂_and_left events found).mpr ⟨fun _ inside => inside, each⟩).imp ?_
        rintro parsed found ⟨member, matches_⟩
        refine grows.match_again indexed indexed' matches_ (kept parsed.toEventInput ?_ parsed (parse_eq_ok.mpr rfl))
        exact inputs ▸ List.mem_map_of_mem member
      have answered := append_matched nonempty inputs batch again conversation revisions
      refine ⟨(later.getLatestRevision input.conversationId).getD 0, ?_⟩
      rw [InMemoryStore.call, answered, entries]
    · have answered := grows.stored_again indexed' nonempty inputs batch made fun entry inside => by
        rw [next, push_conversations, Function.update_self]
        exact List.mem_append_right _ inside
      refine ⟨(later.getLatestRevision input.conversationId).getD 0, ?_⟩
      rw [InMemoryStore.call, answered, same]

/-! ### The contract -/

def Distinct (store : InMemoryStore) (identity : ConversationEvent → Option Identifier) : Prop :=
  ∀ (c c' : Identifier) (i i' : Nat) (x x' : StoredConversationEvent) (id : Identifier),
    (store.conversations c)[i]? = some x → (store.conversations c')[i']? = some x' →
    identity x.event = some id → identity x'.event = some id → c = c' ∧ i = i'

theorem Indexed.distinct (indexed : store.Indexed) {identity : ConversationEvent → Option Identifier}
    {index : Identifier → Option IndexedEntry}
    (finds : ∀ id c x, x ∈ store.conversations c → identity x.event = some id → index id = some ⟨c, x⟩) :
    store.Distinct identity := by
  intro c c' i i' x x' id at_ at' named named'
  have found := finds id c x (List.mem_of_getElem? at_) named
  have found' := finds id c' x' (List.mem_of_getElem? at') named'
  cases found.symm.trans found'
  have revision := indexed.revision_at at_
  have revision' := indexed.revision_at at'
  exact ⟨rfl, by omega⟩

structure Contract (inputs : List AppendInput) : Prop where
  contiguous : ∀ c, ((run inputs).conversations c).map (fun entry => entry.event.revision) =
    List.range' 1 ((run inputs).conversations c).length
  eventIds : (run inputs).Distinct fun event => some event.eventId
  mutationIds : (run inputs).Distinct ConversationEvent.mutationId
  atomic : ∀ input error, ((run inputs).call input).2 = .error error → ((run inputs).call input).1 = run inputs
  /-- A call that succeeded succeeds again as long as its event identities are those that it left. -/
  replayed : ∀ before input between result, inputs = before ++ input :: between →
    ((run before).call input).2 = .ok result →
    ((∃ latestRevision, ((run inputs).call input).2 = .ok ⟨.idempotent, result.entries, latestRevision⟩) ↔
      ((run before).call input).1.KeepsIdentities (run inputs) input)
  /-- A call that stored its batch always succeeds again. -/
  stored : ∀ before input between result, inputs = before ++ input :: between →
    ((run before).call input).2 = .ok result → result.status = .appended →
    ∃ latestRevision, ((run inputs).call input).2 = .ok ⟨.idempotent, result.entries, latestRevision⟩
  /-- A valid batch of unknown events is stored at the head of its conversation, and nowhere else. -/
  fresh : ∀ input events,
    validateAppend input ((run inputs).getLatestRevision input.conversationId) = .ok events →
    (∀ parsed ∈ events, (run inputs).Unmatched parsed.event) →
    (encodeURIComponent input.conversationId.text).isSome = true →
    ((∃ result, ((run inputs).call input).2 = .ok result) ↔
      input.expectedRevision = (run inputs).getLatestRevision input.conversationId)

theorem grows_between (before between : List AppendInput) (input : AppendInput) :
    ((run before).call input).1.Grows (run (before ++ input :: between)) := by
  have split : run (before ++ input :: between) =
      between.foldl (fun store input => (store.call input).1) ((run before).call input).1 := by
    rw [run, List.foldl_append, List.foldl_cons]
    rfl
  rw [split]
  exact (((run_indexed before).call input).1.calls between).2

/-- A valid batch of unknown events is stored exactly at the head of its conversation. -/
theorem call_unmatched {events : List ParsedEvent}
    (valid : validateAppend input (store.getLatestRevision input.conversationId) = .ok events)
    (unmatched : ∀ parsed ∈ events, store.Unmatched parsed.event)
    (encodes : (encodeURIComponent input.conversationId.text).isSome = true) :
    (∃ result, (store.call input).2 = .ok result) ↔ input.expectedRevision = store.getLatestRevision input.conversationId := by
  obtain ⟨nonempty, inputs, batch⟩ := validateAppend_eq_ok.mp valid
  constructor
  · rintro ⟨result, succeeded⟩
    obtain ⟨events', nonempty', inputs', _, ⟨_, found, each, _⟩ | ⟨_, current, _⟩⟩ := append_cases (call_eq_ok.mp succeeded)
    · obtain rfl : events' = events := List.map_injective_iff.mpr (fun _ _ => ParsedEvent.ext) (inputs'.trans inputs.symm)
      obtain ⟨parsed, member⟩ : ∃ parsed, parsed ∈ events' := by
        refine List.exists_mem_of_ne_nil _ fun none => nonempty ?_
        rw [← inputs, none, List.map_nil]
      obtain ⟨entry, _, matches_⟩ := forall₂_mem_left each member
      cases (findIdempotentMatch_eq_none.mpr (unmatched parsed member)).symm.trans matches_
    · exact current
  · intro current
    obtain ⟨encoded, encodes⟩ := Option.isSome_iff_exists.mp encodes
    let entries : List StoredConversationEvent := events.map fun parsed =>
      ⟨js "memory:" ++ encoded ++ js ":" ++ decimal parsed.event.revision, parsed⟩
    have made : entries.map StoredConversationEvent.input = events := by
      rw [List.map_map]
      exact List.map_id _
    obtain ⟨result, appended⟩ := append_unmatched
      (show entries ≠ [] from fun none => nonempty (by rw [← inputs, ← made, none, List.map_nil, List.map_nil]))
      ((List.map_map ..).symm.trans ((congrArg _ made).trans inputs)) (made ▸ batch)
      (fun entry inside => unmatched _ (made ▸ List.mem_map_of_mem inside)) current (by
        rw [List.forall_mem_map]
        intro parsed _
        rw [memoryCursor, encodes]
        rfl)
    exact ⟨result, by rw [InMemoryStore.call, appended]⟩

/-- The contract holds after any calls. -/
theorem contract_holds (inputs : List AppendInput) : Contract inputs where
  contiguous := (run_indexed inputs).revisions
  eventIds := (run_indexed inputs).distinct fun id c x inside named =>
    ((run_indexed inputs).eventIds id c x).mpr ⟨inside, Option.some.inj named⟩
  mutationIds := (run_indexed inputs).distinct fun id c x inside named =>
    ((run_indexed inputs).mutationIds id c x).mpr ⟨inside, named⟩
  atomic input error thrown := by
    unfold call at thrown ⊢
    split at thrown
    · cases thrown
    · rfl
  replayed before input between result split succeeded := by
    subst split
    exact (run_indexed before).succeeds_again succeeded (grows_between before between input) (run_indexed _)
  stored before input between result split succeeded status := by
    subst split
    obtain ⟨events, nonempty, inputs, batch, ⟨_, _, _, _, _, again, _⟩ | ⟨_, _, entries, made, _, next, _, same⟩⟩ :=
      append_cases (call_eq_ok.mp succeeded)
    · cases again.symm.trans status
    · have answered := (grows_between before between input).stored_again (run_indexed _) nonempty inputs batch made
        fun entry inside => by
          rw [next, push_conversations, Function.update_self]
          exact List.mem_append_right _ inside
      refine ⟨((run (before ++ input :: between)).getLatestRevision input.conversationId).getD 0, ?_⟩
      rw [InMemoryStore.call, answered, same]
  fresh input events valid unmatched encodes := call_unmatched valid unmatched encodes

end InMemoryStore

end

def sampleTitled (conversationId eventId mutationId : Identifier) (revision : Nat) : Json :=
  Json.object [("version", .num (.ofNat 1)), ("event_id", .str eventId.text), ("conversation_id", .str conversationId.text),
    ("revision", .num (.ofNat revision)), ("occurred_at", .str (js "2024-01-01T00:00:00Z")),
    ("actor", Json.object [("type", .str (js "user"))]),
    ("source", Json.object [("type", .str (js "client")), ("client_id", .str (js "web"))]),
    ("mutation_id", .str mutationId.text),
    ("payload", Json.object [("type", .str (js "conversation.title_updated")), ("title", .null)])]

/-- A retry under a new event identity succeeds, until another event is stored with that identity; and a fresh event of
a conversation whose identity has a lone surrogate is not stored at all. -/
theorem given_away_identity_refused : ∃ _ : WebPlatform, ∃ (first retry other malformed : AppendInput)
    (result : AppendResult) (error : AppendError) (events : List ParsedEvent) (original renamed rename second : Identifier),
    first.events.map EventInput.value = [sampleTitled sampleConversationId original rename 1] ∧
    retry.events.map EventInput.value = [sampleTitled sampleConversationId renamed rename 1] ∧
    other.events.map EventInput.value = [sampleTitled sampleConversationId renamed second 2] ∧
    ((InMemoryStore.run [first]).call retry).2 = .ok result ∧ result.status = .idempotent ∧
    ((InMemoryStore.run [first, retry, other]).call retry).2 = .error error ∧
    validateAppend malformed none = .ok events ∧ malformed.expectedRevision = none ∧
    ((InMemoryStore.run []).call malformed).2.isOk = false := by
  let _ := withoutUrls
  let original : Identifier := ⟨js "original", by decide, by decide⟩
  let renamed : Identifier := ⟨js "renamed", by decide, by decide⟩
  let rename : Identifier := ⟨js "rename", by decide, by decide⟩
  let second : Identifier := ⟨js "second", by decide, by decide⟩
  let lone : Identifier := ⟨⟨[0xd800]⟩, by decide, by decide⟩
  let first : AppendInput :=
    ⟨sampleConversationId, none, [⟨sampleTitled sampleConversationId original rename 1, by decide +kernel⟩]⟩
  let retry : AppendInput :=
    ⟨sampleConversationId, none, [⟨sampleTitled sampleConversationId renamed rename 1, by decide +kernel⟩]⟩
  let other : AppendInput :=
    ⟨sampleConversationId, some 1, [⟨sampleTitled sampleConversationId renamed second 2, by decide +kernel⟩]⟩
  let malformed : AppendInput := ⟨lone, none, [⟨sampleTitled lone original rename 1, by decide +kernel⟩]⟩
  have answered : (((InMemoryStore.run [first]).call retry).2.toOption.any fun result =>
      decide (result.status = .idempotent)) = true := by decide +kernel
  have refused : ((InMemoryStore.run [first, retry, other]).call retry).2.isOk = false := by decide +kernel
  have valid : (validateAppend malformed none).isOk = true := by decide +kernel
  have thrown : ((InMemoryStore.run []).call malformed).2.isOk = false := by decide +kernel
  cases once : ((InMemoryStore.run [first]).call retry).2 with
  | error error => rw [once] at answered; cases answered
  | ok result =>
    rw [once] at answered
    cases again : ((InMemoryStore.run [first, retry, other]).call retry).2 with
    | ok result' => rw [again] at refused; cases refused
    | error error =>
      cases checked : validateAppend malformed none with
      | error error => rw [checked] at valid; cases valid
      | ok events =>
        exact ⟨withoutUrls, first, retry, other, malformed, result, error, events, original, renamed, rename, second, rfl,
          rfl, rfl, once, of_decide_eq_true answered, again, checked, rfl, thrown⟩

end Handrail.Conversation

import Handrail.Conversation.DualWrite
import Handrail.Conversation.EventClones
import Handrail.Conversation.Restore

/-!
# Reconciled stores

A shadow that has the first events of the primary gets the missing ones, a page at a time, and the
dual store keeps it there as long as no retry of a missed mutation reaches it.
-/

namespace Handrail.Conversation
open Js

section
variable [WebPlatform]

namespace DualStores
variable {options : DualWriteOptions} {stores : DualStores} {store : InMemoryStore} {c : Identifier}

/-! ### Pages -/

theorem read_eq (indexed : store.Indexed) (after : Option Nat) (limit : Nat) :
    (store.read c after limit).entries = ((store.conversations c).drop (after.getD 0)).take limit ∧
    (store.read c after limit).hasMore = decide (limit < ((store.conversations c).drop (after.getD 0)).length) := by
  unfold InMemoryStore.read
  cases after with
  | none =>
    refine ⟨rfl, decide_eq_decide.mpr ?_⟩
    rw [Option.getD_none, List.drop_zero]
    dsimp only
    rw [List.length_take]
    omega
  | some n =>
    dsimp only
    rw [indexed.dropWhile_revision]
    refine ⟨rfl, decide_eq_decide.mpr ?_⟩
    rw [Option.getD_some, List.length_take]
    omega

theorem allPages_eq (indexed : store.Indexed) {pages : Nat} {after : Option Nat}
    (bounded : after.getD 0 ≤ (store.conversations c).length)
    (enough : (store.conversations c).length + 1 ≤ pages + after.getD 0) :
    allPages options c store pages after ((store.conversations c).take (after.getD 0)) = some (store.conversations c) := by
  induction pages generalizing after with
  | zero => omega
  | succ pages ih =>
    obtain ⟨entries, more⟩ := read_eq (c := c) indexed after options.reconciliationPageSize
    have positive := options.range.1
    simp only [allPages, entries, more]
    split
    · rename_i last
      refine congrArg some ?_
      rw [← List.take_add, List.take_of_length_le]
      simp only [Bool.or_eq_true, Bool.not_eq_true', decide_eq_false_iff_not, List.isEmpty_iff, List.length_drop,
        List.take_eq_nil_iff] at last
      rcases last with all | none | none
      · omega
      · omega
      · have empty := congrArg List.length none
        rw [List.length_drop, List.length_nil] at empty
        omega
    · rename_i full
      simp only [Bool.or_eq_true, Bool.not_eq_true', decide_eq_false_iff_not, not_or, not_not, List.length_drop] at full
      have page : (((store.conversations c).drop (after.getD 0)).take options.reconciliationPageSize).getLast?.map
          (fun entry => entry.event.revision) = some (after.getD 0 + options.reconciliationPageSize) := by
        rw [List.getLast?_eq_getElem?, List.length_take, List.length_drop, List.getElem?_take_of_lt (by omega),
          List.getElem?_drop, List.getElem?_eq_getElem (by omega), Option.map_some,
          indexed.revision_at (List.getElem?_eq_getElem (by omega))]
        refine congrArg some ?_
        omega
      rw [page, ← List.take_add]
      have later {count : Nat} : (some count).getD 0 = count := Option.getD_some ..
      refine ih ?_ ?_
      · rw [later]
        omega
      · rw [later]
        omega

theorem all_eq (indexed : store.Indexed) : all options c store = some (store.conversations c) :=
  @allPages_eq _ _ _ _ indexed _ none (Nat.zero_le _) (Nat.le_refl _)

theorem firstDifference_eq_none {primary shadow : List StoredConversationEvent}
    (same : EqualLogs (primary.take shadow.length) shadow) : firstDifference primary shadow = none := by
  induction shadow generalizing primary with
  | nil => cases primary <;> rfl
  | cons right shadow ih =>
    cases primary with
    | nil => rfl
    | cons left primary =>
      obtain _ | ⟨here, later⟩ := same
      rw [firstDifference, here]
      exact ih later

/-! ### Repair -/

def again (entry : StoredConversationEvent) : StoredConversationEvent :=
  ⟨entry.cursor, { entry.clone with
    event := entry.event.map .roundTrip
    parsed := parseConversationEvent_roundTrip entry.input.parsed }⟩

theorem again_value (entry : StoredConversationEvent) : (again entry).value = entry.value :=
  Json.roundTrip_roundTrip entry.input.value

theorem equal_again (entries : List StoredConversationEvent) : EqualLogs entries (entries.map again) := by
  refine List.forall₂_map_right_iff.mpr (List.forall₂_same.mpr fun entry _ => ?_)
  rw [again_value]
  exact jsonValuesEqual_self entry.clone.wellFormed

theorem again_batch (indexed : store.Indexed) (n limit : Nat) : ValidBatch c (n + 1) [] []
    (((((store.conversations c).drop n).take limit).map again).map StoredConversationEvent.input) := by
  have part (entry : StoredConversationEvent) (inside : entry ∈ ((store.conversations c).drop n).take limit) :
      entry ∈ store.conversations c := List.mem_of_mem_drop (List.mem_of_mem_take inside)
  refine ValidBatch.of_distinct ?_ ?_ (fun _ _ => ⟨List.not_mem_nil, fun _ _ => List.not_mem_nil⟩) ?_
  · simp only [List.forall_mem_map]
    exact fun entry inside => indexed.owned c entry (part entry inside)
  · have revisions := congrArg (fun l => (l.drop n).take limit) (indexed.revisions c)
    rw [List.map_map, List.map_map, List.length_map, List.length_map]
    refine Eq.trans ?_ (revisions.trans ?_)
    · rw [← List.map_drop, ← List.map_take]
      rfl
    · rw [List.drop_range', List.length_take, List.length_drop, Nat.mul_one, Nat.add_comm 1 n]
      rcases Nat.le_total limit ((store.conversations c).length - n) with short | long
      · rw [List.take_range'_of_length_ge short, Nat.min_eq_left short]
      · rw [List.take_range'_of_length_le long, Nat.min_eq_right long]
  · rw [List.pairwise_map, List.pairwise_map]
    exact ((indexed.pairwise c).drop (i := n)).take (i := limit)

theorem Consistent.append_page (consistent : stores.Consistent) {page : List StoredConversationEvent} (nonempty : page ≠ [])
    {limit : Nat} (next : page = ((stores.primary.conversations c).drop (stores.shadow.conversations c).length).take limit)
    {expectedRevision : Option Nat} (current : expectedRevision = stores.shadow.getLatestRevision c) :
    ∃ shadow result, stores.shadow.append ⟨c, expectedRevision, page.map StoredConversationEvent.clone⟩ =
        .ok (shadow, result) ∧ Consistent ⟨stores.primary, shadow⟩ ∧
      shadow.conversations c = stores.shadow.conversations c ++ page.map again := by
  have part (entry : StoredConversationEvent) (inside : entry ∈ page) :
      entry ∈ (stores.primary.conversations c).drop (stores.shadow.conversations c).length :=
    List.mem_of_mem_take (next ▸ inside)
  have length : expectedRevision.getD 0 = (stores.shadow.conversations c).length := by
    rw [current, consistent.shadow.getLatestRevision_getD]
  obtain ⟨result, appended⟩ : ∃ result, stores.shadow.append ⟨c, expectedRevision, page.map StoredConversationEvent.clone⟩ =
      .ok ((page.map again).foldl (InMemoryStore.push c) stores.shadow, result) :=
    InMemoryStore.append_unmatched (by simpa using nonempty)
    (by rw [List.map_map]; rfl)
    (by rw [length, next]; exact again_batch consistent.primary ..)
    (by
      rw [List.forall_mem_map]
      intro entry inside
      have unmatched := consistent.behind.unmatched_beyond consistent.primary consistent.shadow (part entry inside)
      exact unmatched)
    current
    (by
      rw [List.forall_mem_map]
      exact fun entry inside => consistent.primary.cursors c entry (List.mem_of_mem_drop (part entry inside)))
  refine ⟨_, result, appended, ⟨consistent.primary, consistent.shadow.append appended, ?_⟩, ?_⟩
  · refine consistent.behind.extend ?_
    rw [List.length_map, next, List.length_take, ← List.take_eq_take_min]
    exact equal_again _
  · rw [InMemoryStore.push_conversations, Function.update_self]

theorem drop_drop_length {primary shadow entries : List StoredConversationEvent} {size : Nat}
    (taken : entries = (primary.drop shadow.length).take size) :
    (primary.drop shadow.length).drop size = primary.drop (shadow ++ entries.map again).length := by
  rw [taken, List.drop_drop, List.length_append, List.length_map, List.length_take, List.length_drop]
  by_cases short : size ≤ primary.length - shadow.length
  · rw [Nat.min_eq_left short]
  · rw [List.drop_eq_nil_of_le (by omega), List.drop_eq_nil_of_le (by omega)]

theorem Consistent.repair (consistent : stores.Consistent) {batches : Nat}
    (enough : ((stores.primary.conversations c).drop (stores.shadow.conversations c).length).length ≤ batches) :
    ∃ shadow, repair options c batches ((stores.primary.conversations c).drop (stores.shadow.conversations c).length)
        stores.shadow = (shadow, .ok ()) ∧ Consistent ⟨stores.primary, shadow⟩ ∧
      EqualLogs (stores.primary.conversations c) (shadow.conversations c) := by
  induction batches generalizing stores with
  | zero =>
    have complete := List.length_eq_zero_iff.mp (Nat.le_zero.mp enough)
    refine ⟨stores.shadow, by rw [DualStores.repair]; simp, consistent, ?_⟩
    have behind := consistent.behind c
    rwa [List.take_of_length_le (List.drop_eq_nil_iff.mp complete)] at behind
  | succ batches ih =>
    cases missing : (stores.primary.conversations c).drop (stores.shadow.conversations c).length with
    | nil =>
      refine ⟨stores.shadow, by rw [DualStores.repair]; simp, consistent, ?_⟩
      have behind := consistent.behind c
      rwa [List.take_of_length_le (List.drop_eq_nil_iff.mp missing)] at behind
    | cons first rest =>
      have positive := options.range.1
      have at_ : (stores.primary.conversations c)[(stores.shadow.conversations c).length]? = some first := by
        rw [← List.head?_drop, missing, List.head?_cons]
      have before : first.event.revision - 1 = (stores.shadow.conversations c).length := by
        rw [consistent.primary.revision_at at_]
        exact Nat.add_sub_cancel ..
      have current : (if first.event.revision - 1 = 0 then none else some (first.event.revision - 1)) =
          stores.shadow.getLatestRevision c := by
        rw [before, consistent.shadow.getLatestRevision]
      have some_page : (first :: rest).take options.reconciliationPageSize ≠ [] := by simpa using Nat.ne_of_gt positive
      have page : (first :: rest).take options.reconciliationPageSize =
          ((stores.primary.conversations c).drop (stores.shadow.conversations c).length).take
            options.reconciliationPageSize := by rw [missing]
      obtain ⟨shadow, result, appended, repaired, grown⟩ := consistent.append_page some_page page current
      have left := drop_drop_length page
      rw [missing, ← grown] at left
      rw [DualStores.repair, appended]
      dsimp only
      rw [left]
      refine ih repaired ?_
      rw [missing, List.length_cons] at enough
      show ((stores.primary.conversations c).drop (shadow.conversations c).length).length ≤ batches
      rw [← left, List.length_drop, List.length_cons]
      omega

/-! ### Reconciliations -/

def Converges (options : DualWriteOptions) (stores : DualStores) (c : Identifier) : Prop :=
  ∃ shadow, reconcile options c stores = some (⟨stores.primary, shadow⟩, .ok (.converged
      ((stores.primary.conversations c).length - (stores.shadow.conversations c).length)
      (stores.primary.getLatestRevision c))) ∧
    EqualLogs (stores.primary.conversations c) (shadow.conversations c)

theorem Consistent.converges (consistent : stores.Consistent) (options : DualWriteOptions) (c : Identifier) :
    Converges options stores c := by
  obtain ⟨shadow, repaired, _, equal⟩ := @Consistent.repair _ options stores c consistent _ (Nat.le_refl _)
  refine ⟨shadow, ?_, equal⟩
  have short := (consistent.behind c).length_le rfl
  unfold reconcile
  rw [all_eq consistent.primary, all_eq consistent.shadow]
  simp only [Option.bind_eq_bind, Option.bind_some]
  rw [firstDifference_eq_none (consistent.behind c), List.getElem?_eq_none short]
  dsimp only
  rw [repaired, List.length_drop]
  rfl

/-! ### Runs -/

theorem Consistent.empty : Consistent .empty where
  primary := .empty
  shadow := .empty
  behind _ := .nil

theorem Consistent.run_iff (consistent : stores.Consistent) (calls : List DualCall) :
    (∀ done, done <+: calls → (stores.run done).Behind ∧ ∀ options c, Converges options (stores.run done) c) ↔
      neverRetriesMissed stores calls = true := by
  induction calls generalizing stores with
  | nil =>
    simp only [List.prefix_nil, forall_eq, neverRetriesMissed, iff_true]
    exact ⟨consistent.behind, consistent.converges⟩
  | cons call rest ih =>
    simp only [neverRetriesMissed, Bool.and_eq_true, Bool.not_eq_true']
    constructor
    · intro kept
      have faithful : stores.retriesMissed call = false := by
        by_contra missed
        rw [Bool.not_eq_false] at missed
        exact consistent.diverges missed (kept [call] (List.prefix_append [call] rest)).1
      refine ⟨faithful, (ih (consistent.step faithful)).mp fun done before => ?_⟩
      exact kept (call :: done) (List.cons_prefix_cons.mpr ⟨rfl, before⟩)
    · rintro ⟨faithful, later⟩ done before
      cases done with
      | nil => exact ⟨consistent.behind, consistent.converges⟩
      | cons first done =>
        obtain ⟨rfl, shorter⟩ := List.cons_prefix_cons.mp before
        exact (ih (consistent.step faithful)).mpr later done shorter

/-- The shadow is a prefix of the primary, and a reconciliation completes it, exactly as long as no call retries a
mutation that the shadow has missed. -/
theorem shadow_is_prefix (calls : List DualCall) :
    (∀ done, done <+: calls → (empty.run done).Behind ∧ ∀ options c, Converges options (empty.run done) c) ↔
      neverRetriesMissed empty calls = true := Consistent.empty.run_iff calls

end DualStores

end

def sampleRename (eventId : Identifier) : Json :=
  Json.object [("version", .num (.ofNat 1)), ("event_id", .str eventId.text), ("conversation_id", .str (js "conversation")),
    ("revision", .num (.ofNat 1)), ("occurred_at", .str (js "2024-01-01T00:00:00Z")),
    ("actor", Json.object [("type", .str (js "user"))]),
    ("source", Json.object [("type", .str (js "client")), ("client_id", .str (js "web"))]),
    ("mutation_id", .str (js "rename")),
    ("payload", Json.object [("type", .str (js "conversation.title_updated")), ("title", .null)])]

/-- The shadow misses a rename and then stores its retry under another event identity. -/
theorem retried_mutation_diverges : ∃ _ : WebPlatform, ∃ (options : DualWriteOptions) (first second : DualCall)
    (original retry : Identifier) (stores : DualStores) (revision : Nat),
    first.input.events.map EventInput.value = [sampleRename original] ∧ first.shadowAvailable = false ∧
    second.input.events.map EventInput.value = [sampleRename retry] ∧ second.shadowAvailable = true ∧
    ¬(DualStores.empty.run [first, second]).Behind ∧
    DualStores.reconcile options sampleConversationId (DualStores.empty.run [first, second]) =
      some (stores, .ok (.divergent revision original retry)) := by
  let _ := withoutUrls
  let original : Identifier := ⟨js "original", by decide, by decide⟩
  let retry : Identifier := ⟨js "retry", by decide, by decide⟩
  let options : DualWriteOptions := ⟨100, by decide⟩
  let first : DualCall := ⟨⟨sampleConversationId, none, [⟨sampleRename original, by decide +kernel⟩]⟩, false⟩
  let second : DualCall := ⟨⟨sampleConversationId, none, [⟨sampleRename retry, by decide +kernel⟩]⟩, true⟩
  have differs : (DualStores.firstDifference ((DualStores.empty.run [first, second]).primary.conversations sampleConversationId)
      ((DualStores.empty.run [first, second]).shadow.conversations sampleConversationId)).isSome = true := by
    decide +kernel
  have reconciled : (DualStores.reconcile options sampleConversationId (DualStores.empty.run [first, second])).any
      (fun outcome => outcome.2.toOption == some (.divergent 1 original retry)) = true := by
    decide +kernel
  obtain ⟨⟨stores, outcome⟩, found, divergent⟩ := (Option.any_eq_true ..).mp reconciled
  have outcome_eq : outcome = .ok (.divergent 1 original retry) := by
    cases outcome with
    | error => cases divergent
    | ok result => rw [Option.some.inj (beq_iff_eq.mp divergent)]
  refine ⟨withoutUrls, options, first, second, original, retry, stores, 1, rfl, rfl, rfl, rfl, fun behind => ?_, ?_⟩
  · rw [DualStores.firstDifference_eq_none (behind sampleConversationId)] at differs
    cases differs
  · rw [found, outcome_eq]

end Handrail.Conversation

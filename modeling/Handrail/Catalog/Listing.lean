import Handrail.Catalog.Pages
import Handrail.Catalog.Runs

/-!
# Listings of a catalog that changes

A client follows the cursors of `list` while other calls change the catalog, so that each page is one of another state, and the
descriptor that a cursor names may have changed or be gone.
-/

namespace Handrail.Catalog
open Js Conversation

/-- `lifecycle === "all" || descriptor.lifecycle === lifecycle` -/
def LifecycleFilter.keeps : LifecycleFilter → CatalogDescriptor → Bool
  | .all, _ => true
  | .active, d => d.isActive
  | .archived, d => !d.isActive

def InMemoryConversationCatalog.descriptors (s : InMemoryConversationCatalog) (lifecycle : LifecycleFilter) :
    List CatalogDescriptor :=
  (s.records.entries.map Prod.snd).filter lifecycle.keeps

section
variable [DatePlatform] {Ctx : Type}

/-- `list`, when the mutations before it are done. -/
def InMemoryConversationCatalog.list (s : InMemoryConversationCatalog) (allowed : Bool) (input : CatalogInput Ctx) :
    PageChecked ListConversationsResult := do
  let snapshot ← refuse (parseListConversationsInput input)
  if allowed then
    paginateConversationCatalogDescriptors ((s.descriptors snapshot.lifecycle).map CatalogDescriptor.toJson)
      (some (.num (.ofNat snapshot.pageSize))) (some snapshot.order.toJson) (snapshot.cursor.map .str)
  else .error (some ⟨.forbidden, .list⟩)

/-- The items of the pages from a cursor on, each of the state that the catalog is then in, when the last page is reached. -/
def listThrough (context : Ctx) (pageSize order : Option Json) :
    List InMemoryConversationCatalog → Option JsString → PageChecked (Option (List CatalogDescriptor))
  | [], _ => .ok none
  | s :: later, cursor => do
    let page ← s.list true (listRequest context pageSize order cursor)
    match page.nextCursor with
    | none => .ok (some page.items)
    | some next => (listThrough context pageSize order later (some next)).map (Option.map (page.items ++ ·))

/-! ### One page -/

variable {order : CatalogOrder} {place : Option CatalogDescriptor} {s : InMemoryConversationCatalog}

def After (order : CatalogOrder) (place : Option CatalogDescriptor) (d : CatalogDescriptor) : Prop :=
  ∀ p ∈ place, 0 < compareParsed order d p

theorem InMemoryConversationCatalog.Sound.mem_descriptors (sound : s.Sound) {d : CatalogDescriptor} :
    d ∈ s.descriptors .active ↔ s.records.get d.conversationId = some d ∧ d.isActive = true := by
  unfold InMemoryConversationCatalog.descriptors
  rw [List.mem_filter, List.mem_map]
  refine and_congr_left fun _ => ⟨?_, fun found => ⟨(d.conversationId, d), OrderedMap.mem_entries_iff.mpr found, rfl⟩⟩
  rintro ⟨⟨id, _⟩, member, rfl⟩
  have found := OrderedMap.mem_entries_iff.mp member
  dsimp only
  rwa [sound.keyed _ _ found]

theorem InMemoryConversationCatalog.Sound.remaining (sound : s.Sound) (timely : ∀ p ∈ place, p.timely = true) [IsoTexts] :
    ∃ cursor remaining, whenGiven (decodeCursor · (some order)) ((place.map (cursorOf order)).map .str) = .ok cursor ∧
      afterCursor order (sortDescriptors order (s.descriptors .active)) cursor = remaining ∧
      remaining.Pairwise (fun left right => 0 < compareParsed order right left) ∧
      ∀ d, d ∈ remaining ↔ (s.records.get d.conversationId = some d ∧ d.isActive = true) ∧ After order place d := by
  have names : OneEach (s.descriptors .active) := by
    have keys : (s.records.entries.map Prod.snd).map CatalogDescriptor.conversationId = s.records.entries.map Prod.fst := by
      rw [List.map_map]
      exact List.map_congr_left fun entry member => sound.keyed _ _ (OrderedMap.mem_entries_iff.mp member)
    exact (keys ▸ s.records.distinct).sublist (List.filter_sublist.map _)
  have apart := List.pairwise_map.mp (((sortDescriptors_perm order _).map CatalogDescriptor.conversationId).nodup_iff.mpr names)
  have strict := List.Pairwise.imp₂
    (fun left right le different => not_le.mp fun back => different (compareParsed_antisymm le back))
    (sortDescriptors_sorted order (s.descriptors .active)) apart
  have member (d : CatalogDescriptor) : d ∈ sortDescriptors order (s.descriptors .active) ↔ _ :=
    (sortDescriptors_perm order _).mem_iff.trans sound.mem_descriptors
  cases place with
  | none => exact ⟨none, _, rfl, rfl, strict, fun d => (member d).trans (by simp [After])⟩
  | some p =>
    refine ⟨some ⟨order, p.primary order.field, p.conversationId⟩, _, ?_, rfl, strict.filter _, fun d => ?_⟩
    · simp only [Option.map_some, whenGiven, decodeCursor_cursorOf (timely p rfl) order]
      rfl
    · rw [afterCursor, List.mem_filter, member, decide_eq_true_eq]
      simp [After, compareParsed]

/-- A page goes on after a place, whether or not the descriptor there is still one of the catalog, and leaves out only what comes
after its own last item. -/
theorem InMemoryConversationCatalog.Sound.page [IsoTexts] (sound : s.Sound) (context : Ctx)
    {pageSize given : Option Json} {size : Nat}
    (sized : parseConversationCatalogPageSize pageSize = .ok size) (ordered : parseConversationCatalogOrder given = .ok order)
    (timely : ∀ p ∈ place, p.timely = true) :
    ∃ (items : List CatalogDescriptor) (last : Option CatalogDescriptor),
      s.list true (listRequest context pageSize given (place.map (cursorOf order))) =
        .ok ⟨items, last.map (cursorOf order), last.isSome, order⟩ ∧
      items.Pairwise (fun left right => 0 < compareParsed order right left) ∧
      (∀ d ∈ items, (s.records.get d.conversationId = some d ∧ d.isActive = true) ∧ After order place d) ∧
      (∀ p ∈ last, p ∈ items ∧ ∀ d ∈ items, compareParsed order d p ≤ 0) ∧
      ∀ d, s.records.get d.conversationId = some d ∧ d.isActive = true → After order place d →
        d ∈ items ∨ ∃ p ∈ last, 0 < compareParsed order d p := by
  obtain ⟨positive, again⟩ := pageSize_again sized
  have before : ∀ d ∈ place.toList, d.timely = true := by simpa using timely
  have request := parseList_listRequest context sized ordered before
  have cursor : placeAfter order place.toList = place.map (cursorOf order) := by cases place <;> rfl
  rw [cursor] at request
  have valid : ((s.descriptors .active).map CatalogDescriptor.toJson).mapM parseConversationCatalogDescriptor =
      .ok (s.descriptors .active) := by
    have each := fun d (member : d ∈ s.descriptors .active) => sound.timely _ d (sound.mem_descriptors.mp member).1
    generalize s.descriptors .active = descriptors at each
    induction descriptors with
    | nil => rfl
    | cons d rest ih =>
      rw [List.forall_mem_cons] at each
      simp only [List.map_cons, List.mapM_cons, parse_toJson, each.1, if_true, ih each.2]
      rfl
  obtain ⟨decoded, remaining, read, rest, strict, member⟩ :=
    @InMemoryConversationCatalog.Sound.remaining _ order _ _ sound timely _
  have answer : s.list true (listRequest context pageSize given (place.map (cursorOf order))) =
      (cursorAfter order (decide (size < remaining.length)) (remaining.take size).getLast?).map fun next =>
        ⟨remaining.take size, next, decide (size < remaining.length), order⟩ := by
    unfold InMemoryConversationCatalog.list paginateConversationCatalogDescriptors
    simp only [request, again, parseOrder_toJson, read, valid, rest, refuse, Except.mapError, bind, Except.bind, if_true]
    cases cursorAfter order (decide (size < remaining.length)) (remaining.take size).getLast? <;> rfl
  rw [answer]
  by_cases more : size < remaining.length
  · obtain ⟨front, last, split⟩ : ∃ front last, remaining.take size = front ++ [last] := by
      rcases List.eq_nil_or_concat' (remaining.take size) with none | split
      · have length := congrArg List.length none
        rw [List.length_take, List.length_nil] at length
        omega
      · exact split
    rw [← List.take_append_drop size remaining, split] at strict
    have each (d : CatalogDescriptor) (taken : d ∈ front ++ [last]) := (member d).mp (List.mem_of_mem_take (split ▸ taken))
    have end_ : last ∈ front ++ [last] := by simp
    have parts := List.pairwise_append.mp strict
    refine ⟨front ++ [last], some last, ?_, parts.1, each, fun p same => ?_, fun d live after => ?_⟩
    · rw [split, List.getLast?_concat, decide_eq_true more]
      simp only [cursorAfter, createCursor_eq (sound.timely _ last (each last end_).1.1) order, Except.map,
        Option.map_some, Option.isSome_some]
    · cases same
      refine ⟨end_, fun d taken => ?_⟩
      rcases List.mem_append.mp taken with earlier | same
      · exact (compareParsed_total order d last).resolve_right
          (not_le.mpr ((List.pairwise_append.mp parts.1).2.2 d earlier last (List.mem_singleton_self last)))
      · cases List.mem_singleton.mp same
        exact compareParsed_refl order last
    · have there := (member d).mpr ⟨live, after⟩
      rw [← List.take_append_drop size remaining, split, List.mem_append] at there
      exact there.imp_right fun left_ => ⟨last, rfl, parts.2.2 last end_ d left_⟩
  · rw [List.take_of_length_le (not_lt.mp more), decide_eq_false more]
    exact ⟨remaining, none, rfl, strict, fun d => (member d).mp, fun p none => (by cases none),
      fun d live after => .inl ((member d).mpr ⟨live, after⟩)⟩

/-! ### All pages -/

/-- From a place on the items come one after another, each from a state that was read, and the conversations that stay active
with their place in the order are among them. -/
structure Listed (order : CatalogOrder) (states : List InMemoryConversationCatalog) (place : Option CatalogDescriptor)
    (items : List CatalogDescriptor) : Prop where
  ordered : items.Pairwise fun left right => 0 < compareParsed order right left
  read : ∀ d ∈ items, After order place d ∧ ∃ s ∈ states, s.records.get d.conversationId = some d ∧ d.isActive = true
  steady : ∀ d, After order place d → (∀ s ∈ states, ∃ now, (s.records.get d.conversationId = some now ∧ now.isActive = true) ∧
    now.primary order.field = d.primary order.field) → d.conversationId ∈ items.map CatalogDescriptor.conversationId

theorem listThrough_listed [IsoTexts] (context : Ctx) {pageSize given : Option Json} {size : Nat}
    (sized : parseConversationCatalogPageSize pageSize = .ok size) (ordered : parseConversationCatalogOrder given = .ok order)
    {states : List InMemoryConversationCatalog} (sound : ∀ s ∈ states, s.Sound) (timely : ∀ p ∈ place, p.timely = true) :
    ∃ result, listThrough context pageSize given states (place.map (cursorOf order)) = .ok result ∧
      ∀ items ∈ result, Listed order states place items := by
  induction states generalizing place with
  | nil => exact ⟨none, rfl, fun _ none => by cases none⟩
  | cons s later ih =>
    rw [List.forall_mem_cons] at sound
    obtain ⟨items, last, page, strict, each, final, leaves⟩ := sound.1.page context sized ordered timely
    unfold listThrough
    rw [page]
    -- A conversation that stays is listed here, or comes after the last item.
    have stays {d : CatalogDescriptor} (after : After order place d) (steady : ∃ now, (s.records.get d.conversationId = some now ∧
        now.isActive = true) ∧ now.primary order.field = d.primary order.field) :
        d.conversationId ∈ items.map CatalogDescriptor.conversationId ∨ ∃ p ∈ last, 0 < compareParsed order d p := by
      obtain ⟨now, live, primary⟩ := steady
      have named := sound.1.keyed _ _ live.1
      have same (other : CatalogDescriptor) : compareParsed order now other = compareParsed order d other := by
        unfold compareParsed
        rw [named, primary]
      simp only [← same] at after ⊢
      exact (leaves now (named ▸ live) fun p at_ => same p ▸ after p at_).imp (fun here => named ▸ List.mem_map_of_mem here) id
    cases last with
    | none =>
      refine ⟨some items, rfl, ?_⟩
      rintro _ ⟨⟩
      refine ⟨strict, fun d listed => ⟨(each d listed).2, s, List.mem_cons_self, (each d listed).1⟩, fun d after steady => ?_⟩
      exact (stays after (steady s List.mem_cons_self)).resolve_right (by simp)
    | some last =>
      obtain ⟨inside, upto⟩ := final last rfl
      obtain ⟨result, read, laws⟩ := @ih (some last) sound.2 fun p same => by
        cases same
        exact sound.1.timely _ _ (each last inside).1.1
      refine ⟨result.map (items ++ ·), ?_, ?_⟩
      · simp only [bind, Except.bind, Option.map_some] at read ⊢
        rw [read]
        rfl
      intro all same
      obtain ⟨rest, rfl, rfl⟩ := Option.map_eq_some_iff.mp same
      have listed := laws rest rfl
      -- What comes after the last item comes after the others, and after the place.
      have beyond {a d : CatalogDescriptor} (before : compareParsed order a last ≤ 0) (after : After order (some last) d) :
          0 < compareParsed order d a := not_le.mp fun back => not_le.mpr (after last rfl) (compareParsed_trans back before)
      refine ⟨List.pairwise_append.mpr ⟨strict, listed.ordered, fun left first right second =>
        beyond (upto left first) (listed.read right second).1⟩, fun d member => ?_, fun d after steady => ?_⟩
      · rcases List.mem_append.mp member with here | there
        · exact ⟨(each d here).2, s, List.mem_cons_self, (each d here).1⟩
        · obtain ⟨after, t, known, live⟩ := listed.read d there
          refine ⟨fun p at_ => beyond ?_ after, t, List.mem_cons_of_mem _ known, live⟩
          exact (compareParsed_total order p last).resolve_right (not_le.mpr ((each last inside).2 p at_))
      · rw [List.forall_mem_cons] at steady
        rw [List.map_append, List.mem_append]
        refine (stays after steady.1).imp_right fun later => listed.steady d (fun p at_ => ?_) steady.2
        obtain ⟨_, ⟨⟩, order_⟩ := later
        cases at_
        exact order_

variable {states : List InMemoryConversationCatalog}

/-- Following the cursors lists what stays, whatever calls come between the pages, and nothing twice in one place of the order. -/
theorem listing_steady [IsoTexts] (context : Ctx) {pageSize given : Option Json} {size : Nat}
    (sized : parseConversationCatalogPageSize pageSize = .ok size) (ordered : parseConversationCatalogOrder given = .ok order)
    (reached : ∀ s ∈ states, ∃ limits, ∃ events : List (CatalogEvent Ctx), Calls (.new limits) events s) :
    ∃ result, listThrough context pageSize given states none = .ok result ∧ ∀ items ∈ result, Listed order states none items :=
  @listThrough_listed _ _ _ none _ context _ _ _ sized ordered _
    (fun s member => by obtain ⟨_, _, calls⟩ := reached s member; exact calls.ledger.sound) (by simp)

end

def sampleCreates : InMemoryConversationCatalog :=
  let create (key id : String) (s : InMemoryConversationCatalog) : InMemoryConversationCatalog :=
    (@perform Bool oneDate { sampleReading with generated := some (.str (js id)) }
      (.create ⟨Json.object [("idempotencyKey", .str (js key))], some true⟩) s).2
  create "l" "d" (create "k" "c" (.new sampleLimits))

def sampleLater : ConversationId := ⟨js "d", by decide +kernel⟩

/-- Of two conversations the first is listed and then archived, before the page of the second is read. -/
theorem listing_steady_created : ∃ (_ : DatePlatform) (s t : InMemoryConversationCatalog) (items : List CatalogDescriptor),
    s.records.size = 2 ∧ t = (perform sampleReading (sampleArchive true) s).2 ∧
    listThrough true (some (.num (.ofNat 1))) none [s, t] none = .ok (some items) ∧
    items.map CatalogDescriptor.conversationId = [sampleId, sampleLater] ∧ Listed defaultOrder [s, t] none items := by
  let _ := oneDate
  have _ := oneDate_texts
  have sized : parseConversationCatalogPageSize (some (.num (.ofNat 1))) = .ok 1 := by decide +kernel
  have ordered : parseConversationCatalogOrder none = .ok defaultOrder := parseOrder_toJson defaultOrder
  have made : Calls (.new sampleLimits) _ sampleCreates := .call (.call .start _ _) _ _
  have reached : ∀ s ∈ [sampleCreates, (perform sampleReading (sampleArchive true) sampleCreates).2],
      ∃ limits, ∃ events : List (CatalogEvent Bool), Calls (.new limits) events s :=
    List.forall_mem_cons.mpr ⟨⟨_, _, made⟩, List.forall_mem_singleton.mpr ⟨_, _, .call made sampleReading (sampleArchive true)⟩⟩
  have completes : (listThrough true (some (.num (.ofNat 1))) none
      [sampleCreates, (perform sampleReading (sampleArchive true) sampleCreates).2] none).toOption.map
        (Option.map (List.map CatalogDescriptor.conversationId)) = some (some [sampleId, sampleLater]) := by decide +kernel
  obtain ⟨result, listed, laws⟩ := listing_steady true sized ordered reached
  rw [listed] at completes
  cases result with
  | none => cases completes
  | some items =>
    exact ⟨oneDate, sampleCreates, _, items, by decide +kernel, rfl, listed, Option.some.inj (Option.some.inj completes),
      laws items rfl⟩

end Handrail.Catalog

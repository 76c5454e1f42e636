import Handrail.Catalog.Pagination
import Mathlib.Data.List.Sort

/-!
# Pages lead through the whole catalog

A cursor is read back as the place of the last item, and the descriptors after that place are those that the pages before it
left out.
-/

namespace Handrail.Catalog
open Js Conversation

/-! ### Orders -/

theorem parseOrder_toJson (order : CatalogOrder) : parseConversationCatalogOrder (some order.toJson) = .ok order := by
  have source : exactKeys .list order.toJson ["field", "direction"] ["field", "direction"] =
      .ok (Json.fieldsOf [("field", literal order.field), ("direction", literal order.direction)]) :=
    exactKeys_object .list (by simp) (by simp) (by simp)
  have field : enumValue Enumeration.values (some (literal order.field)) = .ok order.field :=
    enumValue_eq_ok.mpr ⟨Enumeration.mem_values _, rfl⟩
  have direction : enumValue Enumeration.values (some (literal order.direction)) = .ok order.direction :=
    enumValue_eq_ok.mpr ⟨Enumeration.mem_values _, rfl⟩
  unfold parseConversationCatalogOrder
  rw [Option.getD_some, source]
  dsimp only [bind, Except.bind]
  rw [Json.get_fieldsOf, Json.get_fieldsOf]
  simp only [List.lookup_cons, beq_self_eq_true, show ("direction" == "field") = false from rfl, field, direction]

def earlier (direction : OrderDirection) (left right : JsString) : Prop :=
  match direction with
  | .asc => left < right
  | .desc => right < left

theorem earlier_trichotomy (direction : OrderDirection) (left right : JsString) :
    earlier direction left right ∨ left = right ∨ earlier direction right left := by
  cases direction with
  | asc => exact lt_trichotomy left right
  | desc => exact (lt_trichotomy right left).imp_right (Or.imp_left Eq.symm)

variable {direction : OrderDirection}

theorem earlier_trans {a b c : JsString} (ab : earlier direction a b) (bc : earlier direction b c) :
    earlier direction a c := by
  cases direction with
  | asc => exact lt_trans ab bc
  | desc => exact lt_trans bc ab

theorem earlier_asymm {a b : JsString} (ab : earlier direction a b) : ¬earlier direction b a := by
  cases direction with
  | asc => exact lt_asymm ab
  | desc => exact lt_asymm ab

theorem earlier_ne {a b : JsString} (ab : earlier direction a b) : a ≠ b := by
  rintro rfl
  exact earlier_asymm ab ab

theorem compareKey_nonpos {leftPrimary leftId rightPrimary rightId : JsString} :
    compareKey leftPrimary leftId rightPrimary rightId direction ≤ 0 ↔
      earlier direction leftPrimary rightPrimary ∨ leftPrimary = rightPrimary ∧ leftId ≤ rightId := by
  unfold compareKey
  by_cases same : leftPrimary = rightPrimary
  · rw [if_neg (not_not.mpr same), same]
    have free : ¬earlier direction rightPrimary rightPrimary := fun self => earlier_ne self rfl
    simp only [free, false_or, true_and]
    by_cases one : leftId = rightId
    · rw [if_pos one, one]
      exact iff_of_true (by decide) (le_refl rightId)
    · rw [if_neg one]
      by_cases less : leftId < rightId
      · rw [if_pos less]
        exact iff_of_true (by decide) less.le
      · rw [if_neg less]
        exact iff_of_false (by decide) fun order => less (lt_of_le_of_ne order one)
  · rw [if_pos same]
    simp only [same, false_and, or_false]
    by_cases less : leftPrimary < rightPrimary
    · rw [if_pos less]
      cases direction with
      | asc => exact iff_of_true (by decide) less
      | desc => exact iff_of_false (by decide) (lt_asymm less)
    · have greater : rightPrimary < leftPrimary := lt_of_le_of_ne (not_lt.mp less) (Ne.symm same)
      rw [if_neg less]
      cases direction with
      | asc => exact iff_of_false (by decide) less
      | desc => exact iff_of_true (by decide) greater

section
variable {order : CatalogOrder} {a b c : CatalogDescriptor}

theorem compareParsed_total (order : CatalogOrder) (a b : CatalogDescriptor) :
    compareParsed order a b ≤ 0 ∨ compareParsed order b a ≤ 0 := by
  unfold compareParsed
  rw [compareKey_nonpos, compareKey_nonpos]
  rcases earlier_trichotomy order.direction (a.primary order.field) (b.primary order.field) with less | same | greater
  · exact .inl (.inl less)
  · exact (le_total a.conversationId.text b.conversationId.text).imp (fun le => .inr ⟨same, le⟩) fun le => .inr ⟨same.symm, le⟩
  · exact .inr (.inl greater)

theorem compareParsed_trans (ab : compareParsed order a b ≤ 0) (bc : compareParsed order b c ≤ 0) :
    compareParsed order a c ≤ 0 := by
  unfold compareParsed at *
  rw [compareKey_nonpos] at *
  rcases ab with ab | ⟨ab, low⟩
  · rcases bc with bc | ⟨bc, _⟩
    · exact .inl (earlier_trans ab bc)
    · exact .inl (bc ▸ ab)
  · rcases bc with bc | ⟨bc, high⟩
    · exact .inl (ab ▸ bc)
    · exact .inr ⟨ab.trans bc, le_trans low high⟩

theorem catalogText_ext {maxLength : Nat} {pattern : Pattern} {s t : CatalogText maxLength pattern}
    (same : s.text = t.text) : s = t := by
  cases s
  cases t
  cases same
  rfl

theorem compareParsed_antisymm (ab : compareParsed order a b ≤ 0) (ba : compareParsed order b a ≤ 0) :
    a.conversationId = b.conversationId := by
  unfold compareParsed at *
  rw [compareKey_nonpos] at *
  have text : a.conversationId.text = b.conversationId.text := by
    rcases ab with ab | ⟨ab, low⟩
    · rcases ba with ba | ⟨ba, _⟩
      · exact (earlier_asymm ab ba).elim
      · exact (earlier_ne ab ba.symm).elim
    · rcases ba with ba | ⟨_, high⟩
      · exact (earlier_ne ba ab.symm).elim
      · exact le_antisymm low high
  exact catalogText_ext text

theorem compareParsed_refl (order : CatalogOrder) (a : CatalogDescriptor) : compareParsed order a a ≤ 0 :=
  (compareParsed_total order a a).elim id id

end

/-! ### Sorted descriptors -/

section
variable {order : CatalogOrder} {descriptors before after : List CatalogDescriptor} {last : CatalogDescriptor}

instance (order : CatalogOrder) : Std.Total fun left right => compareParsed order left right ≤ 0 := ⟨compareParsed_total order⟩

instance (order : CatalogOrder) : IsTrans CatalogDescriptor fun left right => compareParsed order left right ≤ 0 :=
  ⟨fun _ _ _ => compareParsed_trans⟩

theorem sortDescriptors_perm (order : CatalogOrder) (descriptors : List CatalogDescriptor) :
    (sortDescriptors order descriptors).Perm descriptors := List.perm_insertionSort _ _

theorem sortDescriptors_sorted (order : CatalogOrder) (descriptors : List CatalogDescriptor) :
    (sortDescriptors order descriptors).Pairwise fun left right => compareParsed order left right ≤ 0 :=
  List.pairwise_insertionSort _ _

def OneEach (descriptors : List CatalogDescriptor) : Prop := (descriptors.map CatalogDescriptor.conversationId).Nodup

theorem filter_after (sorted : (before ++ last :: after).Pairwise fun left right => compareParsed order left right ≤ 0)
    (distinct : OneEach (before ++ last :: after)) :
    (before ++ last :: after).filter (fun d => decide (0 < compareParsed order d last)) = after := by
  have upto : ∀ d ∈ before ++ [last], ¬0 < compareParsed order d last := by
    intro d member
    rcases List.mem_append.mp member with earlier | same
    · exact not_lt.mpr ((List.pairwise_append.mp sorted).2.2 d earlier last List.mem_cons_self)
    · rw [List.mem_singleton.mp same]
      exact not_lt.mpr (compareParsed_refl order last)
  have later : ∀ d ∈ after, 0 < compareParsed order d last := by
    intro d member
    have forth := (List.pairwise_cons.mp (List.pairwise_append.mp sorted).2.1).1 d member
    refine not_le.mp fun back => ?_
    have one := compareParsed_antisymm forth back
    unfold OneEach at distinct
    rw [List.map_append] at distinct
    have names := (List.nodup_append.mp distinct).2.1
    rw [List.map_cons, List.nodup_cons] at names
    exact names.1 (one ▸ List.mem_map_of_mem member)
  rw [← List.singleton_append, ← List.append_assoc, List.filter_append,
    List.filter_eq_nil_iff.mpr fun d member => by simpa using upto d member, List.nil_append]
  exact List.filter_eq_self.mpr fun d member => decide_eq_true (later d member)

end

/-! ### Cursors -/

section
variable [DatePlatform]

/-- `toISOString` writes digits, signs, points and colons, and the letters `T` and `Z`. -/
class IsoTexts : Prop where
  ascii : ∀ value text, DatePlatform.isoString value = some text → ∀ c ∈ text.units, c.toNat < 0x80

theorem timestamp_ascii [IsoTexts] {value : JsString} (canonical : isCanonicalTimestamp value = true) :
    ∀ c ∈ value.units, c.toNat < 0x80 := by
  unfold isCanonicalTimestamp at canonical
  rw [Bool.and_eq_true, beq_iff_eq] at canonical
  exact IsoTexts.ascii value value canonical.2

omit [DatePlatform] in
theorem identifier_ascii (id : ConversationId) : ∀ c ∈ id.text.units, c.toNat < 0x80 := by
  have alphanumeric : ∀ c : UInt16, Pattern.isAlphanumeric c = true → c.toNat < 0x80 := by
    intro c letter
    simp only [Pattern.isAlphanumeric, isWordUnit, Bool.and_eq_true, Bool.or_eq_true, decide_eq_true_eq, beq_iff_eq,
      UInt16.le_iff_toNat_le, ← UInt16.toNat_inj, UInt16.reduceToNat] at letter
    omega
  refine Pattern.test_whole [.unit Pattern.isAlphanumeric, .repeats (alphanumericOr "._:@/+~-") 0 none] ?_ id.valid.2.2
  refine ⟨alphanumeric, fun c accepted => ?_, trivial, trivial⟩
  rcases Bool.or_eq_true _ _ |>.mp accepted with letter | other
  · exact alphanumeric c letter
  · have each : ∀ d ∈ (js "._:@/+~-").units, d.toNat < 0x80 := units_pass (by decide +kernel)
    exact each c (List.contains_iff_mem.mp other)

omit [DatePlatform] in
theorem bar_not_mem {units : List UInt16} (ascii : ∀ c ∈ units, c.toNat < 0x80) : 124 ∉ units.flatMap asciiUnits := by
  have each : ∀ k : Fin 0x80, 124 ∉ asciiUnits (UInt16.ofNat k) := by decide +kernel
  intro bar
  obtain ⟨c, member, inside⟩ := List.mem_flatMap.mp bar
  have small := each ⟨c.toNat, ascii c member⟩
  rw [UInt16.ofNat_toNat] at small
  exact small inside

omit [DatePlatform] in
theorem decodeCursorPart_ascii {text : JsString} (ascii : ∀ c ∈ text.units, c.toNat < 0x80) :
    decodeCursorPart ⟨text.units.flatMap asciiUnits⟩ = some text := by
  obtain ⟨encoded, decoded⟩ := decodeURIComponent_encode ascii
  rw [decodeCursorPart, decoded, Option.filter_some, encoded, beq_self_eq_true, if_pos rfl]

def cursorOf (order : CatalogOrder) (d : CatalogDescriptor) : JsString :=
  ⟨[124].intercalate [cursorPrefix.units, (js (Enumeration.text order.field)).units,
    (js (Enumeration.text order.direction)).units,
    (d.primary order.field).units.flatMap asciiUnits, d.conversationId.text.units.flatMap asciiUnits]⟩

variable {d : CatalogDescriptor}

theorem primary_canonical (timely : d.timely = true) (field : OrderField) :
    isCanonicalTimestamp (d.primary field) = true := by
  simp only [CatalogDescriptor.timely, Bool.and_eq_true] at timely
  cases field with
  | updatedAt => exact timely.1.1.2
  | createdAt => exact timely.1.1.1

theorem createCursor_eq [IsoTexts] (timely : d.timely = true) (order : CatalogOrder) :
    createConversationCatalogCursor d.toJson (some order.toJson) = .ok (cursorOf order d) := by
  have primary := (decodeURIComponent_encode (timestamp_ascii (primary_canonical timely order.field))).1
  have id := (decodeURIComponent_encode (identifier_ascii d.conversationId)).1
  unfold createConversationCatalogCursor
  rw [parse_toJson, if_pos timely, parseOrder_toJson]
  simp only [refuse, Except.mapError, bind, Except.bind, encodeCursorPart, primary, id]
  rfl

theorem cursorOf_length (timely : d.timely = true) (order : CatalogOrder) :
    (cursorOf order d).length ≠ 0 ∧ (cursorOf order d).length ≤ pageLimits.cursorLength := by
  have primary := length_asciiUnits (d.primary order.field).units
  have id := length_asciiUnits d.conversationId.text.units
  have short : (d.primary order.field).units.length ≤ 32 := by
    have canonical := primary_canonical timely order.field
    unfold isCanonicalTimestamp at canonical
    rw [Bool.and_eq_true, decide_eq_true_eq] at canonical
    exact canonical.1
  have bounded : d.conversationId.text.units.length ≤ 256 := d.conversationId.valid.2.1
  have start : cursorPrefix.units.length = 19 := by decide
  have field : (js (Enumeration.text order.field)).units.length = 10 := by cases order.field <;> decide
  have direction : (js (Enumeration.text order.direction)).units.length ≤ 4 := by cases order.direction <;> decide
  have whole : (cursorOf order d).length = 19 + 1 + 10 + 1 + (js (Enumeration.text order.direction)).units.length + 1 +
      ((d.primary order.field).units.flatMap asciiUnits).length + 1 +
        (d.conversationId.text.units.flatMap asciiUnits).length := by
    simp only [cursorOf, JsString.length, List.intercalate, List.intersperse, List.flatten_cons,
      List.flatten_nil, List.length_append,
      List.length_cons, List.length_nil, start, field]
    omega
  have limit : pageLimits.cursorLength = 1024 := rfl
  omega

theorem decodeCursor_cursorOf [IsoTexts] (timely : d.timely = true) (order : CatalogOrder) :
    decodeCursor (some (.str (cursorOf order d))) (some order) = .ok ⟨order, d.primary order.field, d.conversationId⟩ := by
  have canonical := primary_canonical timely order.field
  have parts : (cursorOf order d).units.splitOn 124 = [cursorPrefix.units, (js (Enumeration.text order.field)).units,
      (js (Enumeration.text order.direction)).units, (d.primary order.field).units.flatMap asciiUnits,
      d.conversationId.text.units.flatMap asciiUnits] := by
    refine List.splitOn_intercalate 124 (fun part member => ?_) (List.cons_ne_nil _ _)
    simp only [List.mem_cons, List.not_mem_nil, or_false] at member
    rcases member with rfl | rfl | rfl | rfl | rfl
    · decide
    · cases order.field <;> decide
    · cases order.direction <;> decide
    · exact bar_not_mem (timestamp_ascii canonical)
    · exact bar_not_mem (identifier_ascii d.conversationId)
  have fits := cursorOf_length timely order
  have parsed : parseConversationCatalogOrder (some (.object [("field", .str (js (Enumeration.text order.field))),
      ("direction", .str (js (Enumeration.text order.direction)))])) = .ok order := parseOrder_toJson order
  unfold decodeCursor
  dsimp only
  rw [if_neg (by omega), parts]
  dsimp only
  rw [if_neg (not_not.mpr rfl), parsed]
  dsimp only [bind, Except.bind]
  rw [decodeCursorPart_ascii (timestamp_ascii canonical), decodeCursorPart_ascii (identifier_ascii d.conversationId)]
  dsimp only
  rw [parseTimestamp_str, if_pos canonical]
  dsimp only
  rw [parseIdentifier, parseCatalogText_text]
  simp

/-! ### Pages -/

theorem timely_of_parse {value : Json} (parsed : parseConversationCatalogDescriptor value = .ok d) :
    d.timely = true := by
  have canonical {operation : CatalogAction} {value : Option Json} {text : JsString} (read :
    parseTimestamp operation value = .ok text) :
      isCanonicalTimestamp text = true := by
    unfold parseTimestamp at read
    split at read
    · split at read
      · rename_i canonical
        cases read
        exact canonical
      · cases read
    · cases read
  unfold parseConversationCatalogDescriptor at parsed
  obtain ⟨source, _, parsed⟩ := bind_eq_ok.mp parsed
  obtain ⟨conversationId, _, parsed⟩ := bind_eq_ok.mp parsed
  obtain ⟨title, _, parsed⟩ := bind_eq_ok.mp parsed
  obtain ⟨createdAt, created, parsed⟩ := bind_eq_ok.mp parsed
  obtain ⟨updatedAt, updated, parsed⟩ := bind_eq_ok.mp parsed
  split at parsed
  · cases parsed
  rename_i ordered
  obtain ⟨version, _, parsed⟩ := bind_eq_ok.mp parsed
  obtain ⟨metadata, _, parsed⟩ := bind_eq_ok.mp parsed
  split at parsed
  · split at parsed
    · cases parsed
      simp [CatalogDescriptor.timely, canonical created, canonical updated, not_not.mp ordered]
    · split at parsed
      · obtain ⟨archivedAt, archived, parsed⟩ := bind_eq_ok.mp parsed
        split at parsed
        · cases parsed
        · rename_i between
          rw [not_or, not_not, not_not] at between
          cases parsed
          simp [CatalogDescriptor.timely, canonical created, canonical updated, canonical archived,
            not_not.mp ordered, between.1, between.2]
      · cases parsed
  · cases parsed

/-- The place after `before` in the sorted list: no cursor, or that of the last item. -/
def placeAfter (order : CatalogOrder) (before : List CatalogDescriptor) : Option JsString := before.getLast?.map (cursorOf order)

def pageAt (order : CatalogOrder) (pageSize : Nat) (before after : List CatalogDescriptor) : ListConversationsResult where
  items := after.take pageSize
  nextCursor := if pageSize < after.length then placeAfter order (before ++ after.take pageSize) else none
  hasMore := decide (pageSize < after.length)
  order

omit [DatePlatform] in
theorem parsed_mem {α β ε : Type} {parse : α → Except ε β} {values : List α} {parsed : List β}
    (read : values.mapM parse = .ok parsed) :
    ∀ b ∈ parsed, ∃ a, parse a = .ok b := by
  induction values generalizing parsed with
  | nil =>
    rw [List.mapM_nil] at read
    cases read
    simp
  | cons a rest ih =>
    rw [List.mapM_cons] at read
    obtain ⟨b, one, read⟩ := bind_eq_ok.mp read
    obtain ⟨others, more, read⟩ := bind_eq_ok.mp read
    cases read
    exact List.forall_mem_cons.mpr ⟨⟨a, one⟩, ih more⟩

/-- From the place after some of the sorted descriptors on, the page is the beginning of the others. -/
theorem paginate_eq [IsoTexts] {values : List Json} {descriptors before after : List CatalogDescriptor} {order : CatalogOrder}
    {pageSize : Option Json} {size : Nat} (valid : values.mapM parseConversationCatalogDescriptor = .ok descriptors)
    (distinct : OneEach descriptors) (sized : parseConversationCatalogPageSize pageSize = .ok size) (positive : 0 < size)
    (whole : sortDescriptors order descriptors = before ++ after) :
    paginateConversationCatalogDescriptors values pageSize (some order.toJson) ((placeAfter order before).map .str) =
      .ok (pageAt order size before after) := by
  have timely : ∀ d ∈ before ++ after, d.timely = true := by
    intro d member
    obtain ⟨value, parsed⟩ := parsed_mem valid d ((sortDescriptors_perm order descriptors).mem_iff.mp (whole ▸ member))
    exact timely_of_parse parsed
  have sorted := sortDescriptors_sorted order descriptors
  rw [whole] at sorted
  have names : OneEach (before ++ after) := by
    rw [← whole]
    exact ((sortDescriptors_perm order descriptors).map _).nodup_iff.mpr distinct
  -- The cursor is read back, and what comes after it is what has not been listed.
  obtain ⟨cursor, read, rest⟩ : ∃ cursor : Option DecodedCursor,
      whenGiven (decodeCursor · (some order)) ((placeAfter order before).map .str) = .ok cursor ∧
        afterCursor order (before ++ after) cursor = after := by
    rcases List.eq_nil_or_concat before with rfl | ⟨earlier, last, rfl⟩
    · exact ⟨none, rfl, rfl⟩
    · have member : last ∈ earlier.concat last ++ after := by simp
      refine ⟨some ⟨order, last.primary order.field, last.conversationId⟩, ?_, ?_⟩
      · simp only [placeAfter, List.concat_eq_append, List.getLast?_append, List.getLast?_singleton,
          Option.some_or, Option.map_some, whenGiven,
          decodeCursor_cursorOf (timely last member) order]
        rfl
      · rw [List.concat_eq_append, List.append_assoc, List.singleton_append] at sorted names ⊢
        exact filter_after sorted names
  unfold paginateConversationCatalogDescriptors
  simp only [sized, parseOrder_toJson, read, valid, refuse, Except.mapError, bind, Except.bind, whole, rest]
  unfold pageAt
  by_cases more : size < after.length
  · have last := List.getLast?_eq_some_getLast (l := after.take size) (by
      intro none
      have length := congrArg List.length none
      rw [List.length_take, List.length_nil] at length
      omega)
    generalize (after.take size).getLast _ = final at last
    have member : final ∈ before ++ after :=
      List.mem_append_right _ (List.mem_of_mem_take (List.mem_of_getLast? last))
    simp only [more, decide_true, last, cursorAfter, createCursor_eq (timely final member) order, Except.map,
      ↓reduceIte, placeAfter,
      List.getLast?_append, Option.some_or, Option.map_some]
  · simp only [more, decide_false, ↓reduceIte, cursorAfter]

/-! ### All pages -/

def listRequest {Ctx : Type} (context : Ctx) (pageSize order : Option Json) (cursor : Option JsString) : CatalogInput Ctx where
  source := .object ((pageSize.map fun value => ("pageSize", value)).toList ++ (order.map fun value => ("order", value)).toList ++
    (cursor.map fun value => ("cursor", Json.str value)).toList)
  authorizationContext := some context

def listPage {Ctx : Type} (values : List Json) (input : CatalogInput Ctx) : PageChecked ListConversationsResult := do
  let input ← refuse (parseListConversationsInput input)
  paginateConversationCatalogDescriptors values (some (.num (.ofNat input.pageSize))) (some input.order.toJson) (input.cursor.map .str)

def collectPages {Ctx : Type} (values : List Json) (context : Ctx) (pageSize order : Option Json) :
    Nat → Option JsString → PageChecked (Option (List CatalogDescriptor))
  | 0, _ => .ok none
  | pages + 1, cursor => do
    let page ← listPage values (listRequest context pageSize order cursor)
    match page.nextCursor with
    | none => .ok (some page.items)
    | some next => (collectPages values context pageSize order pages (some next)).map (Option.map (page.items ++ ·))

omit [DatePlatform] in
theorem pageSize_again {pageSize : Option Json} {size : Nat} (sized : parseConversationCatalogPageSize pageSize = .ok size) :
    0 < size ∧ parseConversationCatalogPageSize (some (.num (.ofNat size))) = .ok size := by
  have fits : 1 ≤ size ∧ size ≤ pageLimits.pageSizeMaximum := by
    unfold parseConversationCatalogPageSize at sized
    split at sized
    · cases sized
      decide
    · split at sized
      · split at sized
        · rename_i fits
          cases sized
          exact fits
        · cases sized
      · cases sized
    · cases sized
  have safe : size ≤ JsNumber.maxSafeInteger := fits.2.trans (by decide)
  refine ⟨fits.1, ?_⟩
  simp only [parseConversationCatalogPageSize, JsNumber.safeNat?_ofNat safe, if_pos fits]

theorem parseList_listRequest [IsoTexts] {Ctx : Type} (context : Ctx) {pageSize order : Option Json}
    {size : Nat} {parsed : CatalogOrder}
    (sized : parseConversationCatalogPageSize pageSize = .ok size) (ordered : parseConversationCatalogOrder order = .ok parsed)
    {before : List CatalogDescriptor} (timely : ∀ d ∈ before, d.timely = true) :
    parseListConversationsInput (listRequest context pageSize order (placeAfter parsed before)) =
      .ok { authorizationContext := context, lifecycle := .active, pageSize := size, order := parsed, cursor := placeAfter parsed before } := by
  have read : whenGiven (parseConversationCatalogCursor · (some parsed)) ((placeAfter parsed before).map .str) =
      .ok (placeAfter parsed before) := by
    unfold placeAfter
    cases last : before.getLast? with
    | none => rfl
    | some d =>
      simp only [Option.map_some, whenGiven, parseConversationCatalogCursor,
        decodeCursor_cursorOf (timely d (List.mem_of_getLast? last)) parsed, bind, Except.bind, Except.map]
  generalize placeAfter parsed before = cursor at read ⊢
  generalize given : ((pageSize.map fun value => ("pageSize", value)).toList ++
    (order.map fun value => ("order", value)).toList ++
      (cursor.map fun value => ("cursor", Json.str value)).toList) = fields
  have source : exactKeys .list (listRequest context pageSize order cursor).source ["lifecycle", "pageSize",
    "order", "cursor"] [] =
      .ok (Json.fieldsOf fields) := by
    rw [listRequest, given]
    refine exactKeys_object .list ?_ ?_ (by simp)
    · rw [← given]
      cases pageSize <;> cases order <;> cases cursor <;> simp
    · rw [← given]
      cases pageSize <;> cases order <;> cases cursor <;> simp
  have atOrder : fields.lookup "order" = order := by
    rw [← given]
    cases pageSize <;> cases order <;> cases cursor <;> rfl
  have atCursor : fields.lookup "cursor" = cursor.map .str := by
    rw [← given]
    cases pageSize <;> cases order <;> cases cursor <;> rfl
  have atLifecycle : fields.lookup "lifecycle" = none := by
    rw [← given]
    cases pageSize <;> cases order <;> cases cursor <;> rfl
  have atPageSize : fields.lookup "pageSize" = pageSize := by
    rw [← given]
    cases pageSize <;> cases order <;> cases cursor <;> rfl
  unfold parseListConversationsInput
  rw [source]
  dsimp only [bind, Except.bind]
  rw [Json.get_fieldsOf, Json.get_fieldsOf, Json.get_fieldsOf, Json.get_fieldsOf, atOrder, atCursor,
    atLifecycle, atPageSize, ordered]
  dsimp only [requiredContext, listRequest]
  rw [read, sized]
  rfl

theorem collectPages_eq [IsoTexts] {Ctx : Type} (context : Ctx) {values : List Json} {descriptors : List CatalogDescriptor}
    {pageSize order : Option Json} {size : Nat} {parsed : CatalogOrder}
    (valid : values.mapM parseConversationCatalogDescriptor = .ok descriptors) (distinct : OneEach descriptors)
    (sized : parseConversationCatalogPageSize pageSize = .ok size) (ordered : parseConversationCatalogOrder order = .ok parsed)
    {pages : Nat} {before after : List CatalogDescriptor} (whole : sortDescriptors parsed descriptors = before ++ after)
    (enough : after.length < pages) :
    collectPages values context pageSize order pages (placeAfter parsed before) = .ok (some after) := by
  obtain ⟨positive, again⟩ := pageSize_again sized
  induction pages generalizing before after with
  | zero => omega
  | succ pages ih =>
    have timely : ∀ d ∈ before, d.timely = true := by
      intro d member
      have inside : d ∈ sortDescriptors parsed descriptors := whole ▸ List.mem_append_left after member
      obtain ⟨value, read⟩ := parsed_mem valid d ((sortDescriptors_perm parsed descriptors).mem_iff.mp inside)
      exact timely_of_parse read
    have page : listPage values (listRequest context pageSize order (placeAfter parsed before)) =
      .ok (pageAt parsed size before after) := by
      unfold listPage
      rw [parseList_listRequest context sized ordered timely]
      exact paginate_eq valid distinct again positive whole
    unfold collectPages
    rw [page]
    dsimp only [bind, Except.bind, pageAt]
    by_cases more : size < after.length
    · have next : ∃ cursor, placeAfter parsed (before ++ after.take size) = some cursor := by
        unfold placeAfter
        cases last : (before ++ after.take size).getLast? with
        | none =>
          have length := congrArg List.length (List.getLast?_eq_none_iff.mp last)
          rw [List.length_append, List.length_take, List.length_nil] at length
          omega
        | some d => exact ⟨cursorOf parsed d, rfl⟩
      obtain ⟨cursor, place⟩ := next
      have parts : sortDescriptors parsed descriptors = (before ++ after.take size) ++ after.drop size := by
        rw [whole, List.append_assoc, List.take_append_drop]
      have later := ih parts (by rw [List.length_drop]; omega)
      rw [place] at later
      rw [if_pos more, place]
      dsimp only
      rw [later]
      simp only [Except.map, Option.map_some, List.take_append_drop]
    · rw [if_neg more]
      dsimp only
      rw [List.take_of_length_le (not_lt.mp more)]

omit [DatePlatform] in
theorem compareParsed_neg {order : CatalogOrder} {a b : CatalogDescriptor} (le : compareParsed order a b ≤ 0)
    (apart : a.conversationId ≠ b.conversationId) : compareParsed order a b < 0 := by
  refine lt_of_le_of_ne le fun zero => apart (catalogText_ext ?_)
  unfold compareParsed compareKey at zero
  repeat' split at zero
  all_goals first | assumption | cases zero

theorem compare_toJson {order : Option Json} {parsed : CatalogOrder} (ordered : parseConversationCatalogOrder order = .ok parsed)
    {a b : CatalogDescriptor} (left : a.timely = true) (right : b.timely = true) :
    compareConversationCatalogDescriptors a.toJson b.toJson order = .ok (compareParsed parsed a b) := by
  unfold compareConversationCatalogDescriptors
  rw [ordered, parse_toJson, if_pos left, parse_toJson, if_pos right]
  rfl

/-- Following the cursors ends, and lists the descriptors, each once and in the order of `compareConversationCatalogDescriptors`. -/
theorem pages_complete [IsoTexts] {Ctx : Type} (context : Ctx) {values : List Json} {descriptors : List CatalogDescriptor}
    {pageSize order : Option Json} {size : Nat} {parsed : CatalogOrder}
    (valid : values.mapM parseConversationCatalogDescriptor = .ok descriptors) (distinct : OneEach descriptors)
    (sized : parseConversationCatalogPageSize pageSize = .ok size) (ordered : parseConversationCatalogOrder order = .ok parsed) :
    ∃ items, collectPages values context pageSize order (descriptors.length + 1) none = .ok (some items) ∧
      items.Perm descriptors ∧
      items.Pairwise fun left right => ∃ c < 0, compareConversationCatalogDescriptors left.toJson right.toJson order = .ok c := by
  have perm := sortDescriptors_perm parsed descriptors
  have start : sortDescriptors parsed descriptors = [] ++ sortDescriptors parsed descriptors := rfl
  refine ⟨sortDescriptors parsed descriptors,
    collectPages_eq context valid distinct sized ordered start (Nat.lt_succ_of_le (Nat.le_of_eq perm.length_eq)), perm, ?_⟩
  have timely : ∀ d ∈ sortDescriptors parsed descriptors, d.timely = true := by
    intro d member
    obtain ⟨value, read⟩ := parsed_mem valid d (perm.mem_iff.mp member)
    exact timely_of_parse read
  have names := (perm.map CatalogDescriptor.conversationId).nodup_iff.mpr distinct
  have apart := List.pairwise_map.mp names
  have strict := (sortDescriptors_sorted parsed descriptors).imp₂ (fun _ _ => compareParsed_neg) apart
  refine strict.imp_of_mem fun {left right} first second less => ⟨_, less, ?_⟩
  exact compare_toJson ordered (timely left first) (timely right second)

end

/-! ### A sample -/

@[reducible] def oneDate : DatePlatform where
  isoString text := if text = js "2026-01-01T00:00:00.000Z" then some text else none

theorem oneDate_texts : @IsoTexts oneDate := by
  refine @IsoTexts.mk oneDate ?_
  intro value text written c member
  simp only [DatePlatform.isoString] at written
  split at written
  · rename_i same
    cases written
    have each : ∀ d ∈ (js "2026-01-01T00:00:00.000Z").units, d.toNat < 0x80 := units_pass (by decide +kernel)
    exact each c (same ▸ member)
  · cases written

def sampleListed (id : ConversationId) : CatalogDescriptor where
  conversationId := id
  title := none
  createdAt := js "2026-01-01T00:00:00.000Z"
  updatedAt := js "2026-01-01T00:00:00.000Z"
  version := ⟨1, by decide, by decide⟩
  lifecycle := .active
  metadata := .empty

def sampleFirst : ConversationId := ⟨js "a/b", by decide +kernel⟩

def sampleSecond : ConversationId := ⟨js "b", by decide +kernel⟩

/-- Two pages of one descriptor each, of the same time. -/
theorem sample_pages : ∃ (_ : DatePlatform) (items : List CatalogDescriptor),
    collectPages [(sampleListed sampleSecond).toJson, (sampleListed sampleFirst).toJson] () (some (.num (.ofNat 1))) none 3 none =
      .ok (some items) ∧ items.Perm [sampleListed sampleSecond, sampleListed sampleFirst] := by
  let _ := oneDate
  have _ := oneDate_texts
  have one : (sampleListed sampleFirst).timely = true := by decide +kernel
  have timely (id : ConversationId) : (sampleListed id).timely = true := one
  have valid : [(sampleListed sampleSecond).toJson, (sampleListed sampleFirst).toJson].mapM parseConversationCatalogDescriptor =
      .ok [sampleListed sampleSecond, sampleListed sampleFirst] := by
    simp only [List.mapM_cons, List.mapM_nil, parse_toJson, timely, if_true]
    rfl
  have distinct : OneEach [sampleListed sampleSecond, sampleListed sampleFirst] := by
    unfold OneEach
    decide +kernel
  have sized : parseConversationCatalogPageSize (some (.num (.ofNat 1))) = .ok 1 := by
    simp [parseConversationCatalogPageSize, JsNumber.safeNat?_ofNat (show 1 ≤ JsNumber.maxSafeInteger by decide), pageLimits]
  have ordered : parseConversationCatalogOrder none = .ok defaultOrder := parseOrder_toJson defaultOrder
  obtain ⟨items, pages, perm, _⟩ := pages_complete () valid distinct sized ordered
  exact ⟨oneDate, items, pages, perm⟩

end Handrail.Catalog

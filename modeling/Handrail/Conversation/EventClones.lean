import Handrail.Conversation.Rewriting

/-!
# Parsing clones of events

`JSON.parse(JSON.stringify(event))` differs from the event in negative zeros only, which no check
tells from zero: a clone of an event is parsed as the clone of what was parsed.
-/

namespace Handrail
open Js

variable {α β γ : Type}

/-! ### Checks -/

theorem map_bind_checked {f : β → γ} {check : Checked α} {next : α → Checked β} :
    Except.map f (check >>= next) = check >>= fun a => Except.map f (next a) := by
  cases check <;> rfl

theorem bind_map_checked {f : α → β} {check : Checked α} {next : β → Checked γ} :
    (Except.map f check >>= next) = check >>= fun a => next (f a) := by
  cases check <;> rfl

theorem map_under {f : α → β} {segment : JsString} {check : Checked α} :
    Except.map f (under segment check) = under segment (Except.map f check) := by
  cases check <;> rfl

theorem map_fail {f : α → β} {message : JsString} : Except.map f (fail message : Checked α) = fail message := rfl

theorem map_ok {f : α → β} {value : α} : Except.map f (.ok value : Checked α) = .ok (f value) := rfl

theorem bind_congr_checked {check : Checked α} {next next' : α → Checked β}
    (same : ∀ a, check = .ok a → next a = next' a) : check >>= next = check >>= next' := by
  cases check with
  | error => rfl
  | ok a => exact same a rfl

/-! ### Objects -/

def clonedFields (fields : Fields) : Fields := fields.map fun field => (field.1, field.2.roundTrip)

@[simp] theorem get_clone (fields : Fields) (key : String) :
    Json.get (clonedFields fields) key = (Json.get fields key).map Json.roundTrip := by
  unfold Json.get clonedFields
  induction fields with
  | nil => rfl
  | cons field rest ih =>
    obtain ⟨name, value⟩ := field
    simp only [List.map_cons, List.lookup_cons]
    split
    · rfl
    · exact ih

@[simp] theorem hasOwn_clone (fields : Fields) (key : String) :
    Json.hasOwn (clonedFields fields) key = Json.hasOwn fields key := by
  simp [Json.hasOwn, get_clone]

@[simp] theorem keys_clone (fields : Fields) : Json.keys (clonedFields fields) = Json.keys fields := by
  simp [Json.keys, clonedFields]

@[simp] theorem requiredKeys_clone (fields : Fields) (keys : List String) :
    requiredKeys (clonedFields fields) keys = requiredKeys fields keys := by
  simp [requiredKeys, hasOwn_clone]

@[simp] theorem allowedKeys_clone (fields : Fields) (keys : List String) :
    allowedKeys (clonedFields fields) keys = allowedKeys fields keys := by
  simp [allowedKeys, keys_clone]

theorem record_clone (message : String) (value : Option Json) :
    record message (value.map Json.roundTrip) = (record message value).map clonedFields := by
  cases value with
  | none => rfl
  | some j =>
    cases j with
    | obj fields =>
      simp only [Option.map_some, Json.roundTrip_obj, record]
      rw [show (fields.map fun field => (field.1, field.2.roundTrip)) = clonedFields fields from rfl, keys_clone]
      split <;> rfl
    | null | bool | num | str => rfl
    | arr => simp [record, fail, Except.map]

/-- A check reads clones as `clone` of what it reads. -/
structure ReadsClones (check : Option Json → Checked α) (clone : α → α) : Prop where
  reads : ∀ value, check (value.map Json.roundTrip) = (check value).map clone

structure IgnoresClones (check : Option Json → Checked α) : Prop where
  ignores : ∀ value, check (value.map Json.roundTrip) = check value

variable {check : Option Json → Checked α}

@[simp] theorem field_clone (ignores : IgnoresClones check) (fields : Fields) (key : String) :
    field (clonedFields fields) key check = field fields key check := by
  rw [field, get_clone, ignores.ignores, field]

variable {clone : α → α}

@[simp] theorem field_reads (reads : ReadsClones check clone)
    (fields : Fields) (key : String) :
    field (clonedFields fields) key check = (field fields key check).map clone := by
  rw [field, get_clone, reads.reads, field, map_under]

@[simp] theorem optionalField_clone (ignores : IgnoresClones check) (fields : Fields)
    (key : String) : optionalField (clonedFields fields) key check = optionalField fields key check := by
  rw [optionalField, hasOwn_clone, field_clone ignores, optionalField]

@[simp] theorem optionalField_reads (reads : ReadsClones check clone)
    (fields : Fields) (key : String) :
    optionalField (clonedFields fields) key check = (optionalField fields key check).map (Option.map clone) := by
  rw [optionalField, hasOwn_clone, field_reads reads, optionalField]
  split
  · cases field fields key check <;> rfl
  · rfl

theorem eachItem_reads (reads : ReadsClones check clone) (i : Nat)
    (items : List Json) : eachItem check i (items.map Json.roundTrip) = (eachItem check i items).map (List.map clone) := by
  induction items generalizing i with
  | nil => rfl
  | cons item rest ih =>
    simp only [List.map_cons, eachItem]
    rw [show check (some item.roundTrip) = _ from reads.reads (some item), ih, ← map_under, bind_map_checked, map_bind_checked]
    refine bind_congr_checked fun value _ => ?_
    rw [bind_map_checked, map_bind_checked]
    rfl

theorem eachItem_clone (ignores : IgnoresClones check) (i : Nat) (items : List Json) :
    eachItem check i (items.map Json.roundTrip) = eachItem check i items := by
  induction items generalizing i with
  | nil => rfl
  | cons item rest ih =>
    simp only [List.map_cons, eachItem]
    rw [show check (some item.roundTrip) = _ from ignores.ignores (some item), ih]

/-! ### Values -/

@[simp] theorem stringValue_clone (allowEmpty : Bool) (maxLength : Nat) : IgnoresClones (stringValue allowEmpty maxLength) := by
  refine ⟨fun value => ?_⟩
  rcases value with _ | ⟨_ | _ | _ | _ | _ | _⟩ <;> simp [stringValue, Json.roundTrip_obj]

@[simp] theorem enumValue_clone [Enumeration α] (values : List α) : IgnoresClones (enumValue values) := by
  refine ⟨fun value => ?_⟩
  rcases value with _ | ⟨_ | _ | _ | _ | _ | _⟩ <;> simp [enumValue, Json.roundTrip_obj]

theorem IgnoresClones.bind (ignores : IgnoresClones check) (next : α → Checked β) :
    IgnoresClones fun value => check value >>= next := ⟨fun value => by
  rw [ignores.ignores]⟩

theorem IgnoresClones.record {message : String} {next : Fields → Checked β}
    (same : ∀ fields, next (clonedFields fields) = next fields) :
    IgnoresClones fun value => Handrail.record message value >>= next := ⟨fun value => by
  rw [record_clone, bind_map_checked]
  exact bind_congr_checked fun fields _ => same fields⟩

theorem ReadsClones.record {message : String} {clone : β → β} {next : Fields → Checked β}
    (same : ∀ fields, next (clonedFields fields) = (next fields).map clone) :
    ReadsClones (fun value => Handrail.record message value >>= next) clone := ⟨fun value => by
  rw [record_clone, bind_map_checked, map_bind_checked]
  exact bind_congr_checked fun fields _ => same fields⟩

/-! ### Citations -/

section
variable [WebPlatform]

omit [WebPlatform] in
@[simp] theorem boundedString_clone (maxLength : Nat) : IgnoresClones (boundedString maxLength) := by
  refine ⟨fun value => ?_⟩
  rcases value with _ | ⟨_ | _ | _ | _ | _ | _⟩ <;> simp [boundedString, Json.roundTrip_obj]

omit [WebPlatform] in
@[simp] theorem citationIdentifier_clone : IgnoresClones citationIdentifier := (boundedString_clone _).bind _

@[simp] theorem normalizeLocator_clone (type : CitationSourceType) : IgnoresClones (normalizeLocator type) := by
  refine ⟨fun value => ?_⟩
  unfold normalizeLocator
  split
  · exact ((boundedString_clone _).bind _).ignores value
  · exact ((boundedString_clone _).bind _).ignores value

@[simp] theorem normalizeCitationSource_clone : IgnoresClones normalizeCitationSource := by
  refine ⟨fun value => congrArg (under (js "$source")) (IgnoresClones.record (fun fields => ?_) |>.ignores value)⟩
  simp

omit [WebPlatform] in
@[simp] theorem normalizeTarget_clone : IgnoresClones normalizeTarget := .record fun fields => by simp

omit [WebPlatform] in
theorem nonNegativeOrder_clone : ReadsClones nonNegativeOrder JsNumber.roundTrip := by
  refine ⟨fun value => ?_⟩
  rcases value with _ | ⟨_ | _ | x | _ | _ | _⟩
  case some.num =>
    simp only [Option.map_some, Json.roundTrip_num, nonNegativeOrder, JsNumber.safeNat?_roundTrip]
    split <;> rfl
  all_goals simp [nonNegativeOrder, Json.roundTrip_obj, map_fail]

omit [WebPlatform] in
theorem normalizeCitation_clone : ReadsClones normalizeCitation (Citation.codec.map .roundTrip) := by
  refine ⟨fun value => (congrArg (under (js "$citation")) (ReadsClones.record (fun fields => ?_) |>.reads value)).trans
    map_under.symm⟩
  rw [requiredKeys_clone, allowedKeys_clone, field_reads nonNegativeOrder_clone, field_clone citationIdentifier_clone,
    field_clone citationIdentifier_clone, field_clone normalizeTarget_clone]
  simp only [map_bind_checked, bind_map_checked, map_ok]
  refine bind_congr_checked fun _ _ => bind_congr_checked fun _ _ => bind_congr_checked fun order _ =>
    bind_congr_checked fun citationId _ => bind_congr_checked fun sourceId _ => bind_congr_checked fun target _ => ?_
  have same := Codec.Leafless.map_eq (c := CitationAttachmentTarget.codec) .roundTrip target
  exact congrArg Except.ok (congrArg (Citation.mk citationId sourceId order.roundTrip) same.symm)

omit [WebPlatform] in
theorem boundedArray_clone (maxLength : Nat) (value : Option Json) :
    boundedArray maxLength (value.map Json.roundTrip) = (boundedArray maxLength value).map (List.map Json.roundTrip) := by
  rcases value with _ | ⟨_ | _ | _ | _ | items | _⟩
  case some.arr =>
    simp only [Option.map_some, Json.roundTrip_arr, boundedArray, List.length_map]
    split <;> rfl
  all_goals simp [boundedArray, Json.roundTrip_obj, map_fail]

omit [WebPlatform] in
theorem everyItem_reads (reads : ReadsClones check clone)
    (values : List Json) : everyItem check (values.map Json.roundTrip) = (everyItem check values).map (List.map clone) := by
  unfold everyItem
  induction values with
  | nil => rfl
  | cons value rest ih =>
    rw [List.map_cons, List.mapM_cons, List.mapM_cons, ih, show check (some value.roundTrip) = _ from reads.reads (some value)]
    simp only [map_bind_checked, bind_map_checked]
    rfl

omit [WebPlatform] in
theorem deduplicateByIdentity_clone (identity fingerprint : α → JsString) (clone : α → α) (kind : String)
    (same : ∀ a, identity (clone a) = identity a) (alike : ∀ a, fingerprint (clone a) = fingerprint a)
    (retained records : List α) :
    deduplicateByIdentity identity fingerprint kind (retained.map clone) (records.map clone) =
      (deduplicateByIdentity identity fingerprint kind retained records).map (List.map clone) := by
  induction records generalizing retained with
  | nil => rfl
  | cons current rest ih =>
    have found : (retained.map clone).find? (fun existing => identity existing == identity (clone current)) =
        (retained.find? fun existing => identity existing == identity current).map clone := by
      rw [List.find?_map, same]
      simp only [Function.comp_def, same]
    simp only [List.map_cons, deduplicateByIdentity, found]
    cases retained.find? fun existing => identity existing == identity current with
    | none =>
      rw [Option.map_none]
      dsimp only
      rw [← ih, List.map_append]
      rfl
    | some existing =>
      simp only [Option.map_some, alike, same]
      split
      · rfl
      · exact ih retained

theorem deduplicateCitationRecords_clone (sources citations : Option Json) :
    deduplicateCitationRecords (sources.map Json.roundTrip) (citations.map Json.roundTrip) =
      (deduplicateCitationRecords sources citations).map (CitationRecordSet.codec.map .roundTrip) := by
  have eachSource (values : List Json) : everyItem normalizeCitationSource (values.map Json.roundTrip) =
      everyItem normalizeCitationSource values := by
    have reads : ReadsClones normalizeCitationSource id :=
      ⟨fun value => (normalizeCitationSource_clone.ignores value).trans (by cases normalizeCitationSource value <;> rfl)⟩
    rw [everyItem_reads reads]
    cases everyItem normalizeCitationSource values <;> simp [Except.map]
  unfold deduplicateCitationRecords
  rw [boundedArray_clone, boundedArray_clone, ← map_under, ← map_under]
  simp only [map_bind_checked, bind_map_checked, eachSource, everyItem_reads normalizeCitation_clone]
  refine bind_congr_checked fun _ _ => bind_congr_checked fun _ _ => bind_congr_checked fun _ _ =>
    bind_congr_checked fun sources _ => bind_congr_checked fun normalized _ => ?_
  have distinct := deduplicateByIdentity_clone Citation.citationId
    (fun citation => stringify (Citation.codec.encode citation)) (Citation.codec.map .roundTrip) "citations"
    (fun _ => rfl) (fun c => by rw [Citation.codec.encode_roundTrip, stringify_roundTrip]) [] normalized
  rw [List.map_nil] at distinct
  rw [distinct]
  simp only [bind_map_checked]
  refine bind_congr_checked fun citations _ => ?_
  have linked : (citations.map (Citation.codec.map .roundTrip)).find?
        (fun citation => !sources.any fun source => source.sourceId == citation.sourceId) =
      (citations.find? fun citation => !sources.any fun source => source.sourceId == citation.sourceId).map
        (Citation.codec.map .roundTrip) := List.find?_map ..
  have records : (⟨sources, citations.map (Citation.codec.map .roundTrip)⟩ : CitationRecordSet) =
      CitationRecordSet.codec.map .roundTrip ⟨sources, citations⟩ := by
    have same := Codec.Leafless.map_eq (c := CitationSource.codec.list) .roundTrip sources
    exact congrArg (CitationRecordSet.mk · _) same.symm
  rw [linked]
  cases citations.find? fun citation => !sources.any fun source => source.sourceId == citation.sourceId with
  | some citation => rfl
  | none =>
    rw [Option.map_none]
    dsimp only
    rw [records, CitationRecordSet.codec.encode_roundTrip, stringify_roundTrip]
    split <;> rfl

theorem normalizeCitationRecords_clone :
    ReadsClones normalizeCitationRecords (CitationRecordSet.codec.map .roundTrip) := by
  refine ⟨fun value => ?_⟩
  unfold normalizeCitationRecords
  have fields : (do
      let records ← record "must be a plain JSON object" (value.map Json.roundTrip)
      requiredKeys records ["sources", "citations"]
      allowedKeys records ["sources", "citations"]
      .ok records : Checked Fields) = Except.map clonedFields (do
      let records ← record "must be a plain JSON object" value
      requiredKeys records ["sources", "citations"]
      allowedKeys records ["sources", "citations"]
      .ok records) := by
    rw [record_clone, bind_map_checked, map_bind_checked]
    simp only [requiredKeys_clone, allowedKeys_clone, map_bind_checked, map_ok]
  rw [fields, ← map_under, bind_map_checked, map_bind_checked]
  simp only [get_clone, deduplicateCitationRecords_clone]

end

namespace Conversation

@[simp] theorem identifier_clone : IgnoresClones identifier := stringValue_clone ..

@[simp] theorem validateTimestamp_clone : IgnoresClones validateTimestamp := (stringValue_clone ..).bind _

@[simp] theorem readSafeInteger_clone (min : Nat) (x : JsNumber) : readSafeInteger min x.roundTrip = readSafeInteger min x := by
  refine Option.ext fun n => ?_
  rw [readSafeInteger_eq_some, readSafeInteger_eq_some, JsNumber.safeNat?_roundTrip]

@[simp] theorem safeInteger_clone (min : Nat) (message : String) : IgnoresClones (safeInteger min message) := by
  refine ⟨fun value => ?_⟩
  rcases value with _ | ⟨_ | _ | _ | _ | _ | _⟩ <;> simp [safeInteger, Json.roundTrip_obj]

@[simp] theorem positiveSafeInteger_clone : IgnoresClones positiveSafeInteger := safeInteger_clone ..

@[simp] theorem nonnegativeSafeInteger_clone : IgnoresClones nonnegativeSafeInteger := safeInteger_clone ..

@[simp] theorem booleanValue_clone : IgnoresClones booleanValue := by
  refine ⟨fun value => ?_⟩
  rcases value with _ | ⟨_ | _ | _ | _ | _ | _⟩ <;> simp [booleanValue, Json.roundTrip_obj]

@[simp] theorem identifierArray_clone (allowEmpty : Bool) : IgnoresClones (identifierArray allowEmpty) := by
  refine ⟨fun value => ?_⟩
  rcases value with _ | ⟨_ | _ | _ | _ | items | _⟩
  case some.arr =>
    simp only [Option.map_some, Json.roundTrip_arr, identifierArray, List.isEmpty_map, eachItem_clone identifier_clone]
  all_goals simp [identifierArray, Json.roundTrip_obj]

@[simp] theorem validateActor_clone : IgnoresClones validateActor := .record fun fields => by simp

@[simp] theorem validateSource_clone : IgnoresClones validateSource := .record fun fields => by simp

@[simp] theorem validateAttachmentId_clone : IgnoresClones validateAttachmentId := (stringValue_clone ..).bind _

@[simp] theorem validateFilename_clone : IgnoresClones validateFilename := (stringValue_clone ..).bind _

@[simp] theorem validateSizeBytes_clone (kind : Option AttachmentKind) : IgnoresClones (validateSizeBytes kind) := by
  refine ⟨fun value => ?_⟩
  rcases value with _ | ⟨_ | _ | _ | _ | _ | _⟩ <;> simp [validateSizeBytes, Json.roundTrip_obj]

@[simp] theorem validateAttachmentReference_clone : IgnoresClones validateAttachmentReference := .record fun fields => by simp

@[simp] theorem validateApprovalReason_clone : IgnoresClones validateApprovalReason := (stringValue_clone ..).bind _

@[simp] theorem validateArgumentReference_clone : IgnoresClones validateArgumentReference := (stringValue_clone ..).bind _

@[simp] theorem isLiteral_clone (value : Option Json) (text : String) :
    isLiteral (value.map Json.roundTrip) text = isLiteral value text := by
  rcases value with _ | ⟨_ | _ | _ | _ | _ | _⟩ <;> simp [isLiteral, Json.roundTrip_obj]

@[simp] theorem isNumber_clone (value : Option Json) (n : Nat) :
    isNumber (value.map Json.roundTrip) n = isNumber value n := by
  rcases value with _ | ⟨_ | _ | _ | _ | _ | _⟩ <;>
    simp [isNumber, Json.roundTrip_obj, JsNumber.strictEqual]

theorem validateObject_clone (limits : JsonLimits) : ReadsClones (validateObject limits) (JsonObject.map .roundTrip) :=
  .record fun fields => by
    have same : Json.obj (clonedFields fields) = (Json.obj fields).roundTrip := (Json.roundTrip_obj fields).symm
    rw [same, validateJson_roundTrip, map_bind_checked]
    rfl

theorem validateBoundedObject_clone (limits : JsonLimits) (bytes : Nat) :
    ReadsClones (validateBoundedObject limits bytes) (JsonObject.map .roundTrip) := ⟨fun value => by
  unfold validateBoundedObject
  rw [(validateObject_clone limits).reads, bind_map_checked, map_bind_checked]
  refine bind_congr_checked fun object _ => ?_
  have same : Json.obj (object.map .roundTrip).fields = (Json.obj object.fields).roundTrip :=
    (Json.roundTrip_obj object.fields).symm
  rw [same, stringify_roundTrip]
  split <;> rfl⟩

theorem validateMetadata_clone : ReadsClones validateMetadata (JsonObject.map .roundTrip) := validateBoundedObject_clone ..

theorem validateApprovalReviewedArguments_clone :
    ReadsClones validateApprovalReviewedArguments (ReviewedArguments.codec.map .roundTrip) :=
  .record fun fields => by
    rw [requiredKeys_clone, map_bind_checked]
    refine bind_congr_checked fun _ _ => ?_
    rw [get_clone]
    cases Json.get fields "type" with
    | none => rfl
    | some type =>
      cases type with
      | str text =>
        simp only [Option.map_some, Json.roundTrip_str]
        split
        · simp only [requiredKeys_clone, allowedKeys_clone, field_reads (validateBoundedObject_clone _ _), map_bind_checked,
            bind_map_checked]
          rfl
        · split
          · simp only [requiredKeys_clone, allowedKeys_clone, field_clone validateArgumentReference_clone, map_bind_checked]
            rfl
          · rfl
      | obj fields => simp only [Option.map_some, Json.roundTrip_obj]; rfl
      | arr items => simp only [Option.map_some, Json.roundTrip_arr]; rfl
      | null | bool | num => rfl

@[simp] theorem validateTextPart_clone : IgnoresClones validateTextPart := .record fun fields => by
  rw [requiredKeys_clone, allowedKeys_clone, get_clone, isLiteral_clone]
  refine bind_congr_checked fun _ _ => bind_congr_checked fun _ _ => ?_
  split
  · rfl
  · exact field_clone (stringValue_clone true 1000000) fields "text"

theorem validateToolResultPart_clone : ReadsClones validateToolResultPart (ToolResultPart.codec.map .roundTrip) := by
  refine ⟨fun value => ?_⟩
  unfold validateToolResultPart
  rw [record_clone, bind_map_checked, map_bind_checked]
  refine bind_congr_checked fun fields _ => ?_
  rw [get_clone, isLiteral_clone, isLiteral_clone, validateTextPart_clone.ignores]
  split
  · cases validateTextPart value <;> rfl
  · split
    · simp only [requiredKeys_clone, allowedKeys_clone, map_bind_checked]
      refine bind_congr_checked fun _ _ => bind_congr_checked fun _ _ => ?_
      refine field_reads ⟨fun value => ?_⟩ fields "value"
      have same : (value.map Json.roundTrip).getD .null = (value.getD .null).roundTrip := by cases value <;> rfl
      rw [same, validateJson_roundTrip, map_bind_checked]
      rfl
    · rfl

theorem contentArray_reads {part : Option Json → Checked α} (reads : ReadsClones part clone) :
    ReadsClones (contentArray part) (List.map clone) := by
  refine ⟨fun value => ?_⟩
  rcases value with _ | ⟨_ | _ | _ | _ | ⟨_ | ⟨item, rest⟩⟩ | fields⟩
  case some.arr.cons =>
    rw [Option.map_some, Json.roundTrip_arr]
    exact eachItem_reads reads 0 (item :: rest)
  all_goals simp [contentArray, Json.roundTrip_obj, map_fail]

theorem contentArray_clone {part : Option Json → Checked α} (ignores : IgnoresClones part) :
    IgnoresClones (contentArray part) := by
  refine ⟨fun value => ?_⟩
  rcases value with _ | ⟨_ | _ | _ | _ | ⟨_ | ⟨item, rest⟩⟩ | fields⟩
  case some.arr.cons =>
    rw [Option.map_some, Json.roundTrip_arr]
    exact eachItem_clone ignores 0 (item :: rest)
  all_goals simp [contentArray, Json.roundTrip_obj]

@[simp] theorem validateTurnError_clone : IgnoresClones validateTurnError := .record fun fields => by simp

@[simp] theorem textChunk_clone : IgnoresClones textChunk := (stringValue_clone ..).bind _

@[simp] theorem validateCitationTarget_clone : IgnoresClones validateCitationTarget := .record fun fields => by simp

/-! ### Payloads -/

theorem lookup_clone (fields : Fields) (key : JsString) :
    (clonedFields fields).lookup key = (fields.lookup key).map Json.roundTrip := by
  unfold clonedFields
  induction fields with
  | nil => rfl
  | cons field rest ih =>
    obtain ⟨name, value⟩ := field
    simp only [List.map_cons, List.lookup_cons]
    split
    · rfl
    · exact ih

theorem jsonValuesEqual_clone {left right : Json} (same : jsonValuesEqual left right = true) :
    jsonValuesEqual left.roundTrip right.roundTrip = true := by
  induction left using Json.induction generalizing right with
  | null | bool | num | str => cases right <;> simp_all [jsonValuesEqual]
  | arr items ih =>
    obtain ⟨others, rfl, each⟩ := jsonValuesEqual_arr same
    simp only [Json.roundTrip_arr, jsonValuesEqual, List.length_map, each.length_eq, beq_self_eq_true, Bool.true_and]
    clear same
    induction each with
    | nil => rfl
    | cons here _ tail =>
      simp only [List.forall_mem_cons] at ih
      simp only [List.map_cons, everyItemEqual, Bool.and_eq_true]
      exact ⟨ih.1 here, tail ih.2⟩
  | obj fields ih =>
    obtain ⟨others, rfl, perm, each⟩ := jsonValuesEqual_obj same
    rw [Json.roundTrip_obj, Json.roundTrip_obj]
    show jsonValuesEqual (.obj (clonedFields fields)) (.obj (clonedFields others)) = true
    simp only [jsonValuesEqual, keys_clone, Bool.and_eq_true, beq_iff_eq, sortStrings_eq_iff, everyFieldEqual_iff]
    refine ⟨perm, fun field inside => ?_⟩
    obtain ⟨original, member, rfl⟩ := List.mem_map.mp inside
    obtain ⟨value, found, equal⟩ := each original member
    exact ⟨value.roundTrip, by rw [lookup_clone, found]; rfl, ih original member equal⟩

theorem caught_map {f : α → β} {check : Checked α} : caught (Except.map f check) = Except.map f (caught check) := by
  cases check <;> rfl

section
variable [WebPlatform]

omit [WebPlatform] in
theorem written_clone {c : Codec α} {value : Option Json} {record : α}
    (same : value.any (jsonValuesEqual (c.encode record)) = true) :
    (value.map Json.roundTrip).any (jsonValuesEqual (c.encode (c.map .roundTrip record))) = true := by
  obtain ⟨given, rfl, same⟩ := (Option.any_eq_true ..).mp same
  rw [c.encode_roundTrip]
  exact (Option.any_eq_true ..).mpr ⟨_, rfl, jsonValuesEqual_clone same⟩

theorem linkedRecords_clone {fields : Fields} {target : CitationTarget} {records : CitationRecordSet}
    (accepted : linkedRecords fields target = .ok records) :
    linkedRecords (clonedFields fields) target = .ok (CitationRecordSet.codec.map .roundTrip records) := by
  unfold linkedRecords at accepted ⊢
  obtain ⟨found, deduplicated, accepted⟩ := bind_eq_ok.mp accepted
  rw [get_clone, get_clone, deduplicateCitationRecords_clone, caught_map, deduplicated, map_ok]
  split at accepted
  · cases accepted
  · rename_i linked
    split at accepted
    · cases accepted
    · rename_i written
      split at accepted
      · cases accepted
      · rename_i covered
        cases accepted
        simp only [Bool.or_eq_true, Bool.not_eq_true', not_or, Bool.not_eq_false] at written covered
        have sources := written_clone (c := CitationSource.codec.list) written.1
        have citations := written_clone (c := Citation.codec.list) written.2
        have targets : ((records.citations.map (Citation.codec.map .roundTrip)).all (target.covers ·.target)) = true := by
          rw [List.all_map, ← covered]
          exact congrArg (List.all _) (funext fun c => congrArg target.covers (Citation.map_target .roundTrip c))
        have nonempty : (records.citations.map (Citation.codec.map .roundTrip)).isEmpty = records.citations.isEmpty :=
          List.isEmpty_map
        show (if (records.citations.map (Citation.codec.map .roundTrip)).isEmpty then _ else _) = _
        rw [nonempty, if_neg linked]
        refine (if_neg ?_).trans ((if_neg ?_).trans rfl)
        · simp only [Bool.or_eq_true, Bool.not_eq_true', not_or, Bool.not_eq_false]
          exact ⟨sources, citations⟩
        · rw [Bool.not_eq_true', Bool.not_eq_false]
          exact targets

theorem resultRecords_clone {toolCallId : Identifier} {value : Option Json} {records : CitationRecordSet}
    (accepted : resultRecords toolCallId value = .ok records) :
    resultRecords toolCallId (value.map Json.roundTrip) = .ok (CitationRecordSet.codec.map .roundTrip records) := by
  unfold resultRecords at accepted ⊢
  obtain ⟨found, normalized, accepted⟩ := bind_eq_ok.mp accepted
  rw [normalizeCitationRecords_clone.reads, caught_map, normalized, map_ok]
  split at accepted
  · cases accepted
  · rename_i linked
    split at accepted
    · cases accepted
    · rename_i written
      split at accepted
      · cases accepted
      · rename_i covered
        cases accepted
        simp only [Bool.not_eq_true', Bool.not_eq_false] at written covered
        have targets : ((records.citations.map (Citation.codec.map .roundTrip)).all
            (·.target == .toolResult toolCallId.text)) = true := by
          rw [List.all_map, ← covered]
          exact congrArg (List.all _) (funext fun c => congrArg (· == _) (Citation.map_target .roundTrip c))
        have nonempty : (records.citations.map (Citation.codec.map .roundTrip)).isEmpty = records.citations.isEmpty :=
          List.isEmpty_map
        show (if (records.citations.map (Citation.codec.map .roundTrip)).isEmpty then _ else _) = _
        rw [nonempty, if_neg linked]
        refine (if_neg ?_).trans ((if_neg ?_).trans rfl)
        · rw [Bool.not_eq_true', Bool.not_eq_false]
          exact written_clone written
        · rw [Bool.not_eq_true', Bool.not_eq_false]
          exact targets

omit [WebPlatform] in
@[simp] theorem parseDecision_clone (fields : Fields) (status : DecisionStatus) :
    parseDecision (clonedFields fields) status = parseDecision fields status := by
  simp [parseDecision]

omit [WebPlatform] in
@[simp] theorem parseApprovalChange_clone (fields : Fields) (status : ApprovalProposalStatus) :
    parseApprovalChange (clonedFields fields) status = parseApprovalChange fields status := by
  cases status <;> simp [parseApprovalChange]

omit [WebPlatform] in
theorem parseApprovalProposal_clone (fields : Fields) :
    parseApprovalProposal (clonedFields fields) = (parseApprovalProposal fields).map fun proposal =>
      { proposal with reviewedArguments := ReviewedArguments.codec.map .roundTrip proposal.reviewedArguments } := by
  simp only [parseApprovalProposal, requiredKeys_clone, allowedKeys_clone, field_clone, optionalField_clone, get_clone,
    identifier_clone, isLiteral_clone, isNumber_clone, validateTimestamp_clone,
    field_reads validateApprovalReviewedArguments_clone, map_bind_checked, bind_map_checked]
  refine bind_congr_checked fun _ _ => bind_congr_checked fun _ _ => bind_congr_checked fun _ _ =>
    bind_congr_checked fun _ _ => bind_congr_checked fun _ _ => bind_congr_checked fun _ _ =>
    bind_congr_checked fun _ _ => ?_
  split
  · rfl
  · split
    · rfl
    · simp only [map_bind_checked]
      rfl

theorem parsePayloadFields_clone {fields : Fields} {type : ConversationEventType} {payload : ConversationEventPayload}
    (accepted : parsePayloadFields fields type = .ok payload) :
    parsePayloadFields (clonedFields fields) type = .ok (payload.map .roundTrip) := by
  cases type
  case citationRecordsLinked =>
    simp only [parsePayloadFields] at accepted ⊢
    obtain ⟨_, required, accepted⟩ := bind_eq_ok.mp accepted
    obtain ⟨_, allowed, accepted⟩ := bind_eq_ok.mp accepted
    rw [requiredKeys_clone, required, allowedKeys_clone]
    show (allowedKeys fields _ >>= _) = _
    rw [allowed, get_clone, isNumber_clone, field_clone validateCitationTarget_clone]
    split at accepted
    · cases accepted
    · rename_i versioned
      obtain ⟨target, read, accepted⟩ := bind_eq_ok.mp accepted
      obtain ⟨records, linked, accepted⟩ := bind_eq_ok.mp accepted
      cases accepted
      show (if _ then _ else field fields "target" validateCitationTarget >>= _) = _
      rw [if_neg versioned, read]
      show (linkedRecords (clonedFields fields) target >>= _) = _
      rw [linkedRecords_clone linked]
      rfl
  case toolCallResultRecorded =>
    simp only [parsePayloadFields] at accepted ⊢
    obtain ⟨_, required, accepted⟩ := bind_eq_ok.mp accepted
    obtain ⟨_, allowed, accepted⟩ := bind_eq_ok.mp accepted
    obtain ⟨turnId, turnRead, accepted⟩ := bind_eq_ok.mp accepted
    obtain ⟨toolCallId, toolCallRead, accepted⟩ := bind_eq_ok.mp accepted
    obtain ⟨content, contentRead, accepted⟩ := bind_eq_ok.mp accepted
    obtain ⟨isError, errorRead, accepted⟩ := bind_eq_ok.mp accepted
    obtain ⟨citationRecords, recordsRead, accepted⟩ := bind_eq_ok.mp accepted
    cases accepted
    have cloned : optionalField (clonedFields fields) "citation_records" (resultRecords toolCallId) =
        .ok (citationRecords.map (CitationRecordSet.codec.map .roundTrip)) := by
      rw [optionalField_eq_ok] at recordsRead ⊢
      rw [get_clone]
      rcases recordsRead with ⟨rfl, absent⟩ | ⟨value, records, present, read, rfl⟩
      · exact .inl ⟨rfl, by rw [absent]; rfl⟩
      · exact .inr ⟨value.roundTrip, _, by rw [present]; rfl, resultRecords_clone read, rfl⟩
    refine bind_eq_ok.mpr ⟨(), by rw [requiredKeys_clone, required], bind_eq_ok.mpr ⟨(), by rw [allowedKeys_clone, allowed],
      bind_eq_ok.mpr ⟨turnId, by rw [field_clone identifier_clone, turnRead],
      bind_eq_ok.mpr ⟨toolCallId, by rw [field_clone identifier_clone, toolCallRead],
      bind_eq_ok.mpr ⟨_, (field_reads (contentArray_reads validateToolResultPart_clone) ..).trans (by rw [contentRead]; rfl),
      bind_eq_ok.mpr ⟨isError, by rw [field_clone booleanValue_clone, errorRead],
      bind_eq_ok.mpr ⟨_, cloned, rfl⟩⟩⟩⟩⟩⟩⟩
  case toolCallRequested =>
    refine Eq.trans ?_ (congrArg (Except.map (ConversationEventPayload.map .roundTrip)) accepted)
    simp [parsePayloadFields, field_reads (validateObject_clone _), map_bind_checked, bind_map_checked, map_ok,
      ConversationEventPayload.map]
  case approvalProposalCreated =>
    obtain ⟨proposal, read, rfl⟩ := map_eq_ok.mp accepted
    simp only [parsePayloadFields, parseApprovalProposal_clone, read, map_ok]
    rfl
  case metadataUpdated =>
    refine Eq.trans ?_ (congrArg (Except.map (ConversationEventPayload.map .roundTrip)) accepted)
    simp [parsePayloadFields, field_reads validateMetadata_clone, map_bind_checked, bind_map_checked, map_ok,
      ConversationEventPayload.map]
  case titleUpdated =>
    refine Eq.trans ?_ (congrArg (Except.map (ConversationEventPayload.map .roundTrip)) accepted)
    simp only [parsePayloadFields, requiredKeys_clone, allowedKeys_clone, map_bind_checked, get_clone]
    refine bind_congr_checked fun _ _ => bind_congr_checked fun _ _ => ?_
    have blind := (stringValue_clone true eventLimits.titleLength).ignores (Json.get fields "title")
    rcases Json.get fields "title" with _ | ⟨_ | _ | _ | _ | _ | _⟩
    case some.null => rfl
    all_goals
      simp only [Option.map_some, Option.map_none, Json.roundTrip_obj, Json.roundTrip_arr] at blind ⊢
      first
        | rw [blind, map_bind_checked]
        | rw [map_bind_checked]
      rfl
  all_goals
    refine Eq.trans ?_ (congrArg (Except.map (ConversationEventPayload.map .roundTrip)) accepted)
    simp [parsePayloadFields, parseToolCallStage, parseTurnReason, contentArray_clone, map_bind_checked, map_ok,
      ConversationEventPayload.map]

theorem validatePayload_clone {value : Option Json} {payload : ConversationEventPayload}
    (accepted : validatePayload value = .ok payload) :
    validatePayload (value.map Json.roundTrip) = .ok (payload.map .roundTrip) := by
  unfold validatePayload at accepted ⊢
  obtain ⟨fields, object, accepted⟩ := bind_eq_ok.mp accepted
  obtain ⟨_, required, accepted⟩ := bind_eq_ok.mp accepted
  refine bind_eq_ok.mpr ⟨clonedFields fields, by rw [record_clone, object]; rfl, bind_eq_ok.mpr ⟨(), by
    rw [requiredKeys_clone, required], ?_⟩⟩
  rw [get_clone]
  generalize Json.get fields "type" = discriminator at accepted ⊢
  rcases discriminator with _ | ⟨_ | _ | _ | text | _ | _⟩
  case some.str =>
    simp only [Option.map_some, Json.roundTrip_str] at accepted ⊢
    cases known : ConversationEventType.ofText text with
    | none =>
      rw [known] at accepted
      cases accepted
    | some type =>
      rw [known] at accepted
      exact parsePayloadFields_clone accepted
  all_goals cases accepted

omit [WebPlatform] in
theorem checkApprovalLifecycle_clone (actor : Actor) (occurredAt : Timestamp) (payload : ConversationEventPayload) :
    checkApprovalLifecycle actor occurredAt (payload.map .roundTrip) = checkApprovalLifecycle actor occurredAt payload := by
  cases payload <;> rfl

omit [WebPlatform] in
@[simp] theorem parseMutationId_clone (fields : Fields) (source : Source) :
    parseMutationId (clonedFields fields) source = parseMutationId fields source := by
  simp [parseMutationId]

theorem parseConversationEvent_roundTrip {value : Json} {event : ConversationEvent}
    (accepted : parseConversationEvent value = .ok event) :
    parseConversationEvent value.roundTrip = .ok (event.map .roundTrip) := by
  unfold parseConversationEvent at accepted ⊢
  rw [under_eq_ok] at accepted ⊢
  obtain ⟨fields, object, accepted⟩ := bind_eq_ok.mp accepted
  obtain ⟨_, required, accepted⟩ := bind_eq_ok.mp accepted
  obtain ⟨_, allowed, accepted⟩ := bind_eq_ok.mp accepted
  refine bind_eq_ok.mpr ⟨clonedFields fields, (record_clone _ (some value)).trans (by rw [object]; rfl),
    bind_eq_ok.mpr ⟨(), by rw [requiredKeys_clone, required], bind_eq_ok.mpr ⟨(), by rw [allowedKeys_clone, allowed], ?_⟩⟩⟩
  rw [get_clone, isNumber_clone]
  split at accepted
  · cases accepted
  · rename_i versioned
    rw [if_neg versioned]
    obtain ⟨eventId, eventIdRead, accepted⟩ := bind_eq_ok.mp accepted
    obtain ⟨conversationId, conversationIdRead, accepted⟩ := bind_eq_ok.mp accepted
    obtain ⟨revision, revisionRead, accepted⟩ := bind_eq_ok.mp accepted
    obtain ⟨occurredAt, occurredAtRead, accepted⟩ := bind_eq_ok.mp accepted
    obtain ⟨actor, actorRead, accepted⟩ := bind_eq_ok.mp accepted
    obtain ⟨source, sourceRead, accepted⟩ := bind_eq_ok.mp accepted
    obtain ⟨mutationId, mutationIdRead, accepted⟩ := bind_eq_ok.mp accepted
    obtain ⟨metadata, metadataRead, accepted⟩ := bind_eq_ok.mp accepted
    obtain ⟨payload, payloadRead, accepted⟩ := bind_eq_ok.mp accepted
    obtain ⟨_, lifecycle, accepted⟩ := bind_eq_ok.mp accepted
    cases accepted
    have payloadCloned : field (clonedFields fields) "payload" validatePayload = .ok (payload.map .roundTrip) := by
      rw [field, get_clone]
      exact under_eq_ok.mpr (validatePayload_clone (under_eq_ok.mp payloadRead))
    refine bind_eq_ok.mpr ⟨eventId, by rw [field_clone identifier_clone, eventIdRead],
      bind_eq_ok.mpr ⟨conversationId, by rw [field_clone identifier_clone, conversationIdRead],
      bind_eq_ok.mpr ⟨revision, by rw [field_clone (safeInteger_clone ..), revisionRead],
      bind_eq_ok.mpr ⟨occurredAt, by rw [field_clone validateTimestamp_clone, occurredAtRead],
      bind_eq_ok.mpr ⟨actor, by rw [field_clone validateActor_clone, actorRead],
      bind_eq_ok.mpr ⟨source, by rw [field_clone validateSource_clone, sourceRead],
      bind_eq_ok.mpr ⟨mutationId, by rw [parseMutationId_clone, mutationIdRead],
      bind_eq_ok.mpr ⟨metadata.map (JsonObject.map .roundTrip),
        (optionalField_reads validateMetadata_clone ..).trans (by rw [metadataRead]; rfl),
      bind_eq_ok.mpr ⟨_, payloadCloned,
      bind_eq_ok.mpr ⟨(), by rw [checkApprovalLifecycle_clone, lifecycle], rfl⟩⟩⟩⟩⟩⟩⟩⟩⟩⟩

end

end Conversation

end Handrail

import Handrail.Conversation.StateValidation

/-!
# Folded states pass their validation

Every record that the reducer keeps passes the check of its kind. Two checks of the whole state can
fail on a state that accepted events lead to: the limits of one citation record set, which the
validation applies to all retained records together, and the order of the times of a proposal.
-/

namespace Handrail.Conversation
open Js

/-! ### Checks of written values -/

variable {α : Type}

theorem hasExactKeys_encode {s : Shape α} {a : α} {expected : List String}
    (names : (s.encode a).map Prod.fst = expected) : hasExactKeys (Json.fieldsOf (s.encode a)) expected = true := by
  subst names
  simp only [hasExactKeys, Json.keys, Json.fieldsOf, List.length_map, beq_self_eq_true, Bool.true_and,
    List.all_eq_true]
  intro key member
  rw [Json.hasOwn_iff, Json.keys, List.map_map]
  obtain ⟨field, inside, rfl⟩ := List.mem_map.mp member
  exact List.mem_map.mpr ⟨field, inside, rfl⟩

theorem nullOr_encode {c : Codec α} {notNull : ∀ a, c.encode a ≠ .null}
    {check : Option Json → StateCheck Unit} {a : Option α} (each : ∀ x ∈ a, check (some (c.encode x)) = .ok ()) :
    nullOr check (some ((c.nullable notNull).encode a)) = .ok () := by
  cases a with
  | none => rfl
  | some x =>
    unfold nullOr
    split
    · rfl
    · exact each x rfl

theorem includesText_encode [Enumeration α] {values : List α} {a : α} (member : a ∈ values) :
    includesText values (some (enumeration.encode a)) = .ok () := by
  have found : valueOf values (js (Enumeration.text a)) = some a := valueOf_eq_some.mpr ⟨member, rfl⟩
  simp [includesText, literal, stringOf, found]

theorem isOneOf_encode [Enumeration α] {values : List α} {a : α} (member : a ∈ values) :
    isOneOf values (some (enumeration.encode a)) = true := by
  have found : valueOf values (js (Enumeration.text a)) = some a := valueOf_eq_some.mpr ⟨member, rfl⟩
  simp [isOneOf, literal, found]

@[simp] theorem isIdentifier_encode (id : Identifier) : isIdentifier (some (identifierCodec.encode id)) = true := by
  have nonempty := id.nonempty
  simpa [isIdentifier, identifierCodec, boundedText, Codec.text] using nonempty

@[simp] theorem isString_timestamp (t : Timestamp) : isString (some (timestampCodec.encode t)) = true := rfl

@[simp] theorem conversationTime_encode (t : Timestamp) : conversationTime (some (timestampCodec.encode t)) = some t.time :=
  t.reads

@[simp] theorem isConversationTimestamp_encode (t : Timestamp) :
    isConversationTimestamp (some (timestampCodec.encode t)) = true := by
  simp [isConversationTimestamp]

theorem isSafeIntegerFrom_encode {min low : Nat} (n : SafeInteger min) (bound : low ≤ n.value) :
    isSafeIntegerFrom low (some ((safeIntegerCodec min).encode n)) = true := by
  simp [isSafeIntegerFrom, safeIntegerCodec, JsNumber.safeNat?_ofNat n.safe, bound]

theorem recordArray_encode {shape : Shape α} {predicate : Fields → StateCheck Unit} {values : List α}
    {out : List Fields} : recordArray predicate (some ((Codec.object shape).list.encode values)) = .ok out ↔
      (∀ a ∈ values, predicate (Json.fieldsOf (shape.encode a)) = .ok ()) ∧
        out = values.map fun a => Json.fieldsOf (shape.encode a) := by
  simp only [recordArray, Codec.list_encode]
  induction values generalizing out with
  | nil => simp [pure, Except.pure, eq_comm]
  | cons a rest ih =>
    rw [List.map_cons, List.mapM_cons, bind_eq_ok, List.forall_mem_cons, List.map_cons]
    constructor
    · rintro ⟨_, first, step⟩
      obtain ⟨_, passes, h⟩ := bind_eq_ok.mp first
      obtain rfl := Except.ok.inj h
      obtain ⟨_, others, h⟩ := bind_eq_ok.mp step
      obtain rfl := Except.ok.inj h
      obtain ⟨each, rfl⟩ := ih.mp others
      exact ⟨⟨passes, each⟩, rfl⟩
    · rintro ⟨⟨passes, each⟩, rfl⟩
      exact ⟨_, bind_eq_ok.mpr ⟨(), passes, rfl⟩, bind_eq_ok.mpr ⟨_, ih.mpr ⟨each, rfl⟩, rfl⟩⟩

theorem get_encode {s : Shape α} {a : α} {key : String} {j : Json}
    (found : (s.encode a).lookup key = some j) : Json.get (Json.fieldsOf (s.encode a)) key = some j := by
  rw [Json.get_fieldsOf, found]

theorem identifierTexts_encode (ids : List Identifier) :
    identifierTexts (some (identifierCodec.list.encode ids)) = .ok (ids.map BoundedText.text) := by
  simp only [identifierTexts, Codec.list_encode]
  induction ids with
  | nil => rfl
  | cons id rest ih =>
    have nonempty : 0 < id.text.length := by simpa using id.nonempty
    rw [List.map_cons, List.mapM_cons, ih]
    simp only [identifierCodec, boundedText, Codec.text, nonempty, ↓reduceIte]
    rfl

/-- A written source is an object with the source's type, and the identity of a client. -/
theorem source_encode (source : Source) : ∃ fields, Source.codec.encode source = .obj fields ∧
    includesText (Enumeration.values (α := SourceType)) (Json.get fields "type") = .ok () ∧
      (!isLiteral (Json.get fields "type") "client" || isIdentifier (Json.get fields "client_id")) = true := by
  have tagged (type : SourceType) :
      includesText (Enumeration.values (α := SourceType)) (some (.str (js (Enumeration.text type)))) = .ok () :=
    includesText_encode (Enumeration.mem_values type)
  cases source with
  | client clientId deviceId =>
    refine ⟨_, rfl, ?_, ?_⟩
    · rw [Json.get_fieldsOf, Shape.lookup_tag]
      exact tagged .client
    · simp [Json.get_fieldsOf]
  | runtime =>
    refine ⟨_, rfl, ?_, ?_⟩
    · rw [Json.get_fieldsOf, Shape.lookup_tag]
      exact tagged .runtime
    · rw [Json.get_fieldsOf, Shape.lookup_tag]
      simp [isLiteral]
  | sync =>
    refine ⟨_, rfl, ?_, ?_⟩
    · rw [Json.get_fieldsOf, Shape.lookup_tag]
      exact tagged .sync
    · rw [Json.get_fieldsOf, Shape.lookup_tag]
      simp [isLiteral]
  | «import» =>
    refine ⟨_, rfl, ?_, ?_⟩
    · rw [Json.get_fieldsOf, Shape.lookup_tag]
      exact tagged .import
    · rw [Json.get_fieldsOf, Shape.lookup_tag]
      simp [isLiteral]

theorem isAttribution_encode (a : Attribution) : isAttribution (some (Attribution.codec.encode a)) = .ok () := by
  obtain ⟨source, written, type, client⟩ := source_encode a.source
  have actor : Json.get (Json.fieldsOf (Attribution.shape.encode a)) "actor" =
      some (.obj (Json.fieldsOf (Actor.shape.encode a.actor))) := by
    rw [Json.get_fieldsOf]
    simp [Attribution.shape, Actor.codec, Codec.object, Json.object]
  have gotSource : Json.get (Json.fieldsOf (Attribution.shape.encode a)) "source" = some (.obj source) := by
    rw [Json.get_fieldsOf, ← written]
    simp [Attribution.shape]
  have actorType : includesText (Enumeration.values (α := ActorType))
      (Json.get (Json.fieldsOf (Actor.shape.encode a.actor)) "type") = .ok () := by
    rw [Json.get_fieldsOf, Actor.shape, Shape.encode_equiv, Shape.lookup_required]
    exact includesText_encode (Enumeration.mem_values _)
  have actorId : (!Json.hasOwn (Json.fieldsOf (Actor.shape.encode a.actor)) "id" ||
      isIdentifier (Json.get (Json.fieldsOf (Actor.shape.encode a.actor)) "id")) = true := by
    rw [Json.hasOwn, Json.get_fieldsOf, Actor.shape, Shape.encode_equiv, Shape.lookup_required_ne (by decide),
      Shape.lookup_optional]
    cases a.actor.id <;> simp
  simp only [isAttribution, Attribution.codec, Codec.object, Json.object, actor, gotSource, bind_eq_ok, ensure_eq_ok]
  exact ⟨(), actorType, (), actorId, (), type, client⟩

theorem isNullableAttribution_encode (a : Option Attribution) :
    isNullableAttribution (some ((Attribution.codec.nullable Attribution.encode_ne_null).encode a)) = .ok () :=
  nullOr_encode fun x _ => isAttribution_encode x

/-! ### Messages and attachments -/

theorem isTextPart_encode (text : JsString) : isTextPart (textPartCodec.encode text) = true := by
  have keys : hasExactKeys (Json.fieldsOf [("type", .str (js "text")), ("text", .str text)]) ["type", "text"] = true :=
    hasExactKeys_encode (s := Shape.tag "type" "text" (Shape.required "text" Codec.string Shape.nil)) (a := (text, ()))
      rfl
  have written : textPartCodec.encode text = .obj (Json.fieldsOf [("type", .str (js "text")), ("text", .str text)]) :=
    rfl
  rw [written]
  simp only [isTextPart, keys, Json.get_fieldsOf]
  simp [isLiteral, isString, List.lookup_cons]

theorem everyPart_list {c : Codec α} {check : Json → Bool} {values : List α}
    (each : ∀ a ∈ values, check (c.encode a) = true) : everyPart check (some (c.list.encode values)) = true := by
  simpa [everyPart] using each

theorem attachmentIdOf_encode (a : AttachmentReference) :
    attachmentIdOf (AttachmentReference.codec.encode a) = some a.attachmentId := by
  simp [attachmentIdOf, AttachmentReference.codec, Codec.object, Json.object, textOf, Json.get_fieldsOf,
    AttachmentReference.shape]

section
variable (m : MessageRecord)

theorem message_attachments :
    itemsOf (Json.fieldsOf (MessageRecord.shape.encode m)) "attachments" =
      m.attachments.map AttachmentReference.codec.encode := by
  simp [itemsOf, Json.get_fieldsOf, MessageRecord.shape]

theorem message_id :
    textOf (Json.fieldsOf (MessageRecord.shape.encode m)) "message_id" = some m.messageId.text := by
  simp [textOf, Json.get_fieldsOf, MessageRecord.shape, identifierCodec, boundedText, Codec.text]

theorem isMessage_encode
    (valid : ∀ a ∈ m.attachments, validateAttachmentReference (some (AttachmentReference.codec.encode a)) = .ok a)
    (distinct : (m.attachments.map AttachmentReference.attachmentId).Nodup) :
    isMessage (Json.fieldsOf (MessageRecord.shape.encode m)) = .ok () := by
  have own : Json.hasOwn (Json.fieldsOf (MessageRecord.shape.encode m)) "turn_id" = m.turnId.isSome := by
    simp [Json.hasOwn, Json.get_fieldsOf, MessageRecord.shape]
  have keys : hasExactKeys (Json.fieldsOf (MessageRecord.shape.encode m)) (if m.turnId.isSome then
      ["message_id", "turn_id", "role", "content", "attachments", "created_at", "attribution"]
    else ["message_id", "role", "content", "attachments", "created_at", "attribution"]) = true := by
    apply hasExactKeys_encode
    obtain ⟨messageId, turnId, role, content, attachments, createdAt, attribution⟩ := m
    cases turnId <;> rfl
  simp only [isMessage, bind_eq_ok, ensure_eq_ok, own]
  refine ⟨(), keys, (), ?_, (), ?_, (), ?_, (), ?_, (), ?_, (), ?_, (), ?_, ?_⟩
  · simp [Json.get_fieldsOf, MessageRecord.shape]
  · rw [ownOr, own]
    cases given : m.turnId with
    | none => rfl
    | some turnId =>
      have got : Json.get (Json.fieldsOf (MessageRecord.shape.encode m)) "turn_id" =
          some ((identifierCodec.nullable identifier_ne_null).encode turnId) := by
        simp [Json.get_fieldsOf, MessageRecord.shape, given]
      rw [Option.isSome_some, if_pos rfl, got]
      exact nullOr_encode fun x _ => by simp
  · have got : Json.get (Json.fieldsOf (MessageRecord.shape.encode m)) "role" =
        some (((enumeration (α := MessageRole)).nullable enumeration_ne_null).encode m.role) := by
      simp [Json.get_fieldsOf, MessageRecord.shape]
    rw [got]
    exact nullOr_encode fun x _ => includesText_encode (Enumeration.mem_values x)
  · have got : Json.get (Json.fieldsOf (MessageRecord.shape.encode m)) "content" =
        some (textPartCodec.list.encode m.content) := by
      simp [Json.get_fieldsOf, MessageRecord.shape]
    rw [got]
    exact everyPart_list fun text _ => isTextPart_encode text
  · have got : Json.get (Json.fieldsOf (MessageRecord.shape.encode m)) "attachments" =
        some (AttachmentReference.codec.list.encode m.attachments) := by
      simp [Json.get_fieldsOf, MessageRecord.shape]
    rw [got]
    refine everyPart_list fun a member => ?_
    rw [isConversationAttachmentReference, valid a member]
    rfl
  · rw [message_attachments, List.map_map, decide_eq_true_eq]
    have ids : m.attachments.map (attachmentIdOf ∘ AttachmentReference.codec.encode) =
        (m.attachments.map AttachmentReference.attachmentId).map some := by
      rw [List.map_map]
      exact List.map_congr_left fun a _ => attachmentIdOf_encode a
    rw [ids]
    exact distinct.map (Option.some_injective _)
  · have got : Json.get (Json.fieldsOf (MessageRecord.shape.encode m)) "created_at" =
        some ((timestampCodec.nullable timestamp_ne_null).encode m.createdAt) := by
      simp [Json.get_fieldsOf, MessageRecord.shape]
    rw [got]
    exact nullOr_encode fun x _ => by simp
  · have got : Json.get (Json.fieldsOf (MessageRecord.shape.encode m)) "attribution" =
        some ((Attribution.codec.nullable Attribution.encode_ne_null).encode m.attribution) := by
      simp [Json.get_fieldsOf, MessageRecord.shape]
    rw [got]
    exact isNullableAttribution_encode _

end

section
variable (r : AttachmentRecord)

theorem attachment_messageId :
    textOf (Json.fieldsOf (AttachmentRecord.shape.encode r)) "message_id" = some r.messageId.text := by
  simp [textOf, Json.get_fieldsOf, AttachmentRecord.shape, identifierCodec, boundedText, Codec.text]

theorem attachment_id :
    textOf (Json.fieldsOf (AttachmentRecord.shape.encode r)) "attachment_id" = some r.attachmentId := by
  simp [textOf, Json.get_fieldsOf, AttachmentRecord.shape]

theorem attachment_reference : Json.get (Json.fieldsOf (AttachmentRecord.shape.encode r)) "reference" =
    some (AttachmentReference.codec.encode r.reference) := by
  simp [Json.get_fieldsOf, AttachmentRecord.shape]

theorem isAttachmentRecord_encode (identified : r.attachmentId = r.reference.attachmentId)
    (valid : validateAttachmentReference (some (AttachmentReference.codec.encode r.reference)) = .ok r.reference) :
    isAttachmentRecord (Json.fieldsOf (AttachmentRecord.shape.encode r)) = .ok () := by
  simp only [isAttachmentRecord, bind_eq_ok, ensure_eq_ok]
  refine ⟨(), hasExactKeys_encode rfl, (), ?_, (), ?_, (), ?_, (), ?_, ?_⟩
  · simp [Json.get_fieldsOf, AttachmentRecord.shape]
  · rw [attachment_reference, isConversationAttachmentReference, valid]
    rfl
  · rw [attachment_reference, attachment_id, Option.bind_some, attachmentIdOf_encode, identified]
    simp [isString, Json.get_fieldsOf, AttachmentRecord.shape]
  · simp [Json.get_fieldsOf, AttachmentRecord.shape]
  · have got : Json.get (Json.fieldsOf (AttachmentRecord.shape.encode r)) "attribution" =
        some (Attribution.codec.encode r.attribution) := by
      simp [Json.get_fieldsOf, AttachmentRecord.shape]
    rw [got]
    exact isAttribution_encode _

end

theorem split_at_last {separator : α} {a b a' b' : List α} (absent : separator ∉ b)
    (absent' : separator ∉ b') (same : a ++ separator :: b = a' ++ separator :: b') : a = a' ∧ b = b' := by
  rcases List.append_eq_append_iff.mp same with ⟨c, rfl, rest⟩ | ⟨c, rfl, rest⟩
  · cases c with
    | nil => exact ⟨by simp, (List.cons.inj rest).2⟩
    | cons x c => exact (absent (by rw [(List.cons.inj rest).2]; simp)).elim
  · cases c with
    | nil => exact ⟨by simp, (List.cons.inj rest).2.symm⟩
    | cons x c => exact (absent' (by rw [(List.cons.inj rest).2]; simp)).elim

theorem recordKey_injective {r r' : AttachmentRecord} (units : ∀ c ∈ r.attachmentId.units, c ≠ 0)
    (units' : ∀ c ∈ r'.attachmentId.units, c ≠ 0)
    (same : recordKey (Json.fieldsOf (AttachmentRecord.shape.encode r)) =
      recordKey (Json.fieldsOf (AttachmentRecord.shape.encode r'))) : r.key = r'.key := by
  simp only [recordKey, attachment_messageId, attachment_id, Option.getD_some] at same
  have null : (js "\x00").units = [0] := by decide
  have texts : r.messageId.text.units ++ 0 :: r.attachmentId.units =
      r'.messageId.text.units ++ 0 :: r'.attachmentId.units := by
    have concatenated : (r.messageId.text.units ++ (js "\x00").units) ++ r.attachmentId.units =
        (r'.messageId.text.units ++ (js "\x00").units) ++ r'.attachmentId.units := congrArg JsString.units same
    simpa [null] using concatenated
  obtain ⟨messageIds, attachmentIds⟩ := split_at_last (fun member => units 0 member rfl)
    (fun member => units' 0 member rfl) texts
  exact Prod.ext (BoundedText.ext (JsString.ext messageIds)) (JsString.ext attachmentIds)

theorem sameAttachmentReference_encode {a b : AttachmentReference}
    (left : validateAttachmentReference (some (AttachmentReference.codec.encode a)) = .ok a)
    (right : validateAttachmentReference (some (AttachmentReference.codec.encode b)) = .ok b) :
    sameAttachmentReference (some (AttachmentReference.codec.encode a)) (some (AttachmentReference.codec.encode b)) =
      decide (a = b) := by
  simp only [sameAttachmentReference, left, right]

theorem attachmentId_of_valid {a : AttachmentReference}
    (valid : validateAttachmentReference (some (AttachmentReference.codec.encode a)) = .ok a) :
    ∀ c ∈ a.attachmentId.units, c ≠ 0 := by
  simp only [validateAttachmentReference, bind_eq_ok, field_eq_ok] at valid
  obtain ⟨_, _, _, _, _, _, attachmentId, accepted, kind, _, mediaType, _, filename, _, rest⟩ := valid
  split at rest
  · cases rest
  · obtain ⟨sizeBytes, _, h⟩ := bind_eq_ok.mp rest
    obtain rfl := Except.ok.inj h
    exact attachmentId_units accepted

variable {messages : List MessageRecord}

theorem hasConsistentAttachmentProjection_encode {attachments : List AttachmentRecord}
    (agree : AttachmentsAgree (messages.map MessageRecord.holder) attachments) :
    hasConsistentAttachmentProjection (messages.map fun m => Json.fieldsOf (MessageRecord.shape.encode m))
      (attachments.map fun r => Json.fieldsOf (AttachmentRecord.shape.encode r)) = true := by
  have messageTexts : (messages.map fun m => some m.messageId.text).Nodup := by
    have distinct := agree.messageIds
    rw [List.map_map] at distinct
    have injective : Function.Injective fun id : Identifier => some id.text :=
      fun _ _ same => BoundedText.ext (Option.some.inj same)
    simpa [List.map_map, Function.comp_def, MessageRecord.holder] using distinct.map injective
  have units (r : AttachmentRecord) (member : r ∈ attachments) : ∀ c ∈ r.attachmentId.units, c ≠ 0 := by
    rw [agree.identified r member]
    exact attachmentId_of_valid (agree.valid r member)
  simp only [hasConsistentAttachmentProjection, Bool.and_eq_true, decide_eq_true_eq, List.map_map, Function.comp_def,
    message_id, List.all_map, List.all_eq_true, message_attachments, List.find?_map, Option.any_map]
  refine ⟨⟨⟨messageTexts, ?_⟩, fun m member a attached => ?_⟩, fun r member => ?_⟩
  · refine (List.nodup_map_iff_inj_on (List.Nodup.of_map _ agree.keys)).mpr fun r left r' right same => ?_
    have key := recordKey_injective (units r left) (units r' right) same
    exact List.inj_on_of_nodup_map agree.keys left right key
  · obtain ⟨r, recorded, here, same⟩ := agree.recorded m.holder (List.mem_map_of_mem member) a attached
    subst same
    have found : attachments.find? (fun other => textOf (Json.fieldsOf (AttachmentRecord.shape.encode other))
        "message_id" == some m.messageId.text &&
        textOf (Json.fieldsOf (AttachmentRecord.shape.encode other)) "attachment_id" ==
          attachmentIdOf (AttachmentReference.codec.encode r.reference)) = some r := by
      have messageIds : r.messageId = m.messageId := here
      refine find?_eq_some_of_unique recorded ?_ fun other inside matched => ?_
      · simp [attachment_messageId, attachment_id, attachmentIdOf_encode, messageIds, agree.identified r recorded]
      · simp only [attachment_messageId, attachment_id, attachmentIdOf_encode, Bool.and_eq_true, beq_iff_eq,
          Option.some.injEq] at matched
        refine List.inj_on_of_nodup_map agree.keys inside recorded (Prod.ext ?_ ?_)
        · exact (BoundedText.ext matched.1).trans messageIds.symm
        · exact matched.2.trans (agree.identified r recorded).symm
    rw [found]
    simp only [Option.any_some, attachment_reference]
    rw [sameAttachmentReference_encode (agree.valid r recorded) (agree.valid r recorded), decide_eq_true rfl]
  · obtain ⟨h, inside, here, attached⟩ := agree.attached r member
    obtain ⟨m, known, rfl⟩ := List.mem_map.mp inside
    have messageIds : m.messageId = r.messageId := here
    have found : messages.find? (fun other => some other.messageId.text ==
        textOf (Json.fieldsOf (AttachmentRecord.shape.encode r)) "message_id") = some m := by
      refine find?_eq_some_of_unique known ?_ fun other inside matched => ?_
      · simp [attachment_messageId, messageIds]
      · rw [attachment_messageId, beq_iff_eq] at matched
        exact List.inj_on_of_nodup_map messageTexts inside known (matched.trans (by rw [messageIds]))
    rw [found]
    simp only [Option.any_some, Function.comp_def, List.any_map, List.any_eq_true,
      attachment_reference]
    refine ⟨r.reference, attached, ?_⟩
    rw [sameAttachmentReference_encode (agree.valid r member) (agree.valid r member), decide_eq_true rfl]

/-! ### Turns -/

theorem isTurnError_encode (e : TurnError) : isTurnError (some (TurnError.codec.encode e)) = true := by
  simp [isTurnError, TurnError.codec, Codec.object, Json.object, Json.get_fieldsOf, TurnError.shape, isString,
    isBoolean, identifierCodec, boundedText, Codec.text]

theorem isTurnRetryRecord_encode (r : TurnRetryRecord) : isTurnRetryRecord (TurnRetryRecord.codec.encode r) = .ok () := by
  cases r with
  | attemptStarted attempt operation occurredAt attribution =>
    show isTurnRetryRecord (.obj (Json.fieldsOf _)) = .ok ()
    simp only [isTurnRetryRecord, bind_eq_ok, ensure_eq_ok, Json.get_fieldsOf]
    refine ⟨(), ?_, (), ?_, (), ?_, ?_⟩
    · simpa using isSafeIntegerFrom_encode attempt attempt.bounded
    · simp
    · simpa using isAttribution_encode attribution
    · have tag : isLiteral (some (.str (js "turn.attempt_started"))) "turn.attempt_started" = true := by
        simp [isLiteral]
      rw [Shape.lookup_tag, if_pos tag, ensure_eq_ok, Bool.and_eq_true]
      exact ⟨hasExactKeys_encode rfl, by simpa using isOneOf_encode (Enumeration.mem_values operation)⟩
  | retryScheduled attempt reasonCategory delayMs occurredAt attribution =>
    show isTurnRetryRecord (.obj (Json.fieldsOf _)) = .ok ()
    simp only [isTurnRetryRecord, bind_eq_ok, ensure_eq_ok, Json.get_fieldsOf]
    refine ⟨(), ?_, (), ?_, (), ?_, ?_⟩
    · simpa using isSafeIntegerFrom_encode attempt attempt.bounded
    · simp
    · simpa using isAttribution_encode attribution
    · have other : ¬isLiteral (some (.str (js "turn.retry_scheduled"))) "turn.attempt_started" = true := by
        simp [isLiteral]
      have tag : isLiteral (some (.str (js "turn.retry_scheduled"))) "turn.retry_scheduled" = true := by
        simp [isLiteral]
      rw [Shape.lookup_tag, if_neg other, if_pos tag, ensure_eq_ok, Bool.and_eq_true, Bool.and_eq_true]
      exact ⟨⟨hasExactKeys_encode rfl, by simpa using isOneOf_encode (Enumeration.mem_values reasonCategory)⟩,
        by simpa using isSafeIntegerFrom_encode delayMs delayMs.bounded⟩
  | retryExhausted attempt reasonCategory exhaustionReason occurredAt attribution =>
    show isTurnRetryRecord (.obj (Json.fieldsOf _)) = .ok ()
    simp only [isTurnRetryRecord, bind_eq_ok, ensure_eq_ok, Json.get_fieldsOf]
    refine ⟨(), ?_, (), ?_, (), ?_, ?_⟩
    · simpa using isSafeIntegerFrom_encode attempt attempt.bounded
    · simp
    · simpa using isAttribution_encode attribution
    · have other : ¬isLiteral (some (.str (js "turn.retry_exhausted"))) "turn.attempt_started" = true := by
        simp [isLiteral]
      have other' : ¬isLiteral (some (.str (js "turn.retry_exhausted"))) "turn.retry_scheduled" = true := by
        simp [isLiteral]
      have tag : isLiteral (some (.str (js "turn.retry_exhausted"))) "turn.retry_exhausted" = true := by
        simp [isLiteral]
      rw [Shape.lookup_tag, if_neg other, if_neg other', if_pos tag, ensure_eq_ok, Bool.and_eq_true, Bool.and_eq_true]
      exact ⟨⟨hasExactKeys_encode rfl, by simpa using isOneOf_encode (Enumeration.mem_values reasonCategory)⟩,
        by simpa using isOneOf_encode (Enumeration.mem_values exhaustionReason)⟩

theorem everyValue_list {c : Codec α} {check : Json → StateCheck Unit} {values : List α}
    (each : ∀ a ∈ values, check (c.encode a) = .ok ()) : everyValue check (some (c.list.encode values)) = .ok () := by
  simp only [everyValue, Codec.list_encode]
  induction values with
  | nil => rfl
  | cons a rest ih =>
    rw [List.forall_mem_cons] at each
    show (check (c.encode a) >>= fun _ => (rest.map c.encode).forM check) = .ok ()
    rw [each.1]
    exact ih each.2

theorem isTurn_encode (t : TurnRecord) : isTurn (Json.fieldsOf (TurnRecord.shape.encode t)) = .ok () := by
  have texts (ids : List Identifier) := identifierTexts_encode ids
  simp only [isTurn, bind_eq_ok, ensure_eq_ok]
  refine ⟨(), ?_, (), ?_, (), ?_, t.inputMessageIds.map BoundedText.text, ?_, t.outputMessageIds.map BoundedText.text,
    ?_, (), ?_, (), ?_, (), ?_, (), ?_, (), ?_, (), ?_, (), ?_, (), ?_, (), ?_, ?_⟩
  · rw [get_encode (j := identifierCodec.encode t.turnId) (by simp [TurnRecord.shape]), isIdentifier_encode]
  · rw [get_encode (j := (identifierCodec.nullable identifier_ne_null).encode t.continuationOfTurnId)
      (by simp [TurnRecord.shape])]
    exact nullOr_encode fun x _ => by simp
  · rw [get_encode (j := enumeration.encode t.status) (by simp [TurnRecord.shape])]
    exact includesText_encode (Enumeration.mem_values _)
  · rw [get_encode (j := identifierCodec.list.encode t.inputMessageIds) (by simp [TurnRecord.shape]), texts]
  · rw [get_encode (j := identifierCodec.list.encode t.outputMessageIds) (by simp [TurnRecord.shape]), texts]
  · rw [get_encode (j := ((enumeration (α := TurnCompletionOutcome)).nullable enumeration_ne_null).encode t.outcome)
      (by simp [TurnRecord.shape])]
    exact nullOr_encode fun x _ => includesText_encode (Enumeration.mem_values x)
  · rw [get_encode (j := ((enumeration (α := TurnCancellationReason)).nullable enumeration_ne_null).encode t.cancellationReason)
      (by simp [TurnRecord.shape])]
    exact nullOr_encode fun x _ => includesText_encode (Enumeration.mem_values x)
  · rw [get_encode (j := ((enumeration (α := TurnCancellationStatus)).nullable enumeration_ne_null).encode t.cancellationStatus)
      (by simp [TurnRecord.shape])]
    exact nullOr_encode fun x _ => ensure_eq_ok.mpr (isOneOf_encode (Enumeration.mem_values x))
  · rw [get_encode
      (j := ((enumeration (α := TurnCancellationReason)).nullable enumeration_ne_null).encode t.cancellationRequestedReason)
      (by simp [TurnRecord.shape])]
    exact nullOr_encode fun x _ => ensure_eq_ok.mpr (isOneOf_encode (Enumeration.mem_values x))
  · rw [get_encode (j := .bool t.remoteMayStillBeRunning) (by simp [TurnRecord.shape])]
    rfl
  · rw [get_encode (j := (TurnError.codec.nullable TurnError.encode_ne_null).encode t.error)
      (by simp [TurnRecord.shape])]
    exact nullOr_encode fun x _ => ensure_eq_ok.mpr (isTurnError_encode x)
  · rw [get_encode (j := TurnRetryRecord.codec.list.encode t.retryHistory) (by simp [TurnRecord.shape])]
    exact everyValue_list fun r _ => isTurnRetryRecord_encode r
  · rw [get_encode (j := (timestampCodec.nullable timestamp_ne_null).encode t.startedAt) (by simp [TurnRecord.shape])]
    exact nullOr_encode fun x _ => by simp
  · rw [get_encode (j := (timestampCodec.nullable timestamp_ne_null).encode t.terminalAt)
      (by simp [TurnRecord.shape])]
    exact nullOr_encode fun x _ => by simp
  · rw [get_encode (j := (Attribution.codec.nullable Attribution.encode_ne_null).encode t.attribution)
      (by simp [TurnRecord.shape])]
    exact isNullableAttribution_encode _

/-! ### Tool calls -/

theorem isToolResultPart_encode (part : ToolResultPart) :
    (isTextPart (ToolResultPart.codec.encode part) || isJsonPart (ToolResultPart.codec.encode part)) = true := by
  cases part with
  | text content =>
    rw [Bool.or_eq_true]
    exact .inl (isTextPart_encode content)
  | json value =>
    have written : ToolResultPart.codec.encode (.json value) =
        .obj (Json.fieldsOf [("type", .str (js "json")), ("value", value)]) := rfl
    rw [written, Bool.or_eq_true]
    right
    simp [isJsonPart, Json.get_fieldsOf, Json.hasOwn, isLiteral, List.lookup_cons]

section
variable [WebPlatform]

theorem areResultRecords_encode {toolCallId : Identifier} {records : CitationRecordSet}
    (valid : ResultRecords toolCallId records) :
    areResultRecords (some toolCallId.text) (some (CitationRecordSet.codec.encode records)) = true := by
  have linked : records.citations.isEmpty = false := by simpa using valid.linked
  have same : jsonValuesEqual (CitationRecordSet.codec.encode records) (CitationRecordSet.codec.encode records) = true :=
    jsonValuesEqual_self (CitationRecordSet.codec.encode_wellFormed (citationRecordSet_intact records))
  simp only [areResultRecords, (normalizeCitationRecords_encode valid.normal).mpr ⟨rfl, valid.limits⟩, linked,
    Bool.not_false, Option.any_some, same, Bool.true_and, List.all_eq_true]
  intro c member
  rw [valid.targets c member]
  simp

theorem isToolResult_encode {toolCallId : Identifier} (r : ToolResultRecord)
    (valid : ∀ records ∈ r.citationRecords, ResultRecords toolCallId records) :
    isToolResult (some toolCallId.text) (some (ToolResultRecord.codec.encode r)) = .ok () := by
  have own : Json.hasOwn (Json.fieldsOf (ToolResultRecord.shape.encode r)) "citation_records" =
      r.citationRecords.isSome := by
    simp [Json.hasOwn, Json.get_fieldsOf, ToolResultRecord.shape]
  have keys : hasExactKeys (Json.fieldsOf (ToolResultRecord.shape.encode r)) (if r.citationRecords.isSome then
      ["content", "is_error", "citation_records", "recorded_at", "attribution"]
    else ["content", "is_error", "recorded_at", "attribution"]) = true := by
    apply hasExactKeys_encode
    obtain ⟨content, isError, citationRecords, recordedAt, attribution⟩ := r
    cases citationRecords <;> rfl
  simp only [isToolResult, ToolResultRecord.codec, Codec.object, Json.object, bind_eq_ok, ensure_eq_ok, own]
  refine ⟨(), keys, (), ?_, (), ?_, (), ?_, (), ?_, ?_⟩
  · rw [get_encode (j := ToolResultPart.codec.list.encode r.content) (by simp [ToolResultRecord.shape])]
    exact everyPart_list fun part _ => isToolResultPart_encode part
  · rw [get_encode (j := .bool r.isError) (by simp [ToolResultRecord.shape])]
    rfl
  · rw [get_encode (j := timestampCodec.encode r.recordedAt) (by simp [ToolResultRecord.shape]), isString_timestamp]
  · rw [get_encode (j := Attribution.codec.encode r.attribution) (by simp [ToolResultRecord.shape])]
    exact isAttribution_encode _
  · cases given : r.citationRecords with
    | none => rfl
    | some records =>
      rw [get_encode (j := CitationRecordSet.codec.encode records) (by simp [ToolResultRecord.shape, given])]
      simpa using areResultRecords_encode (valid records given)

theorem isToolCall_encode {t : ToolCallRecord} (sound : t.Sound) :
    isToolCall (Json.fieldsOf (ToolCallRecord.shape.encode t)) = .ok () := by
  have toolCallId : textOf (Json.fieldsOf (ToolCallRecord.shape.encode t)) "tool_call_id" = some t.toolCallId.text := by
    simp [textOf, Json.get_fieldsOf, ToolCallRecord.shape, identifierCodec, boundedText, Codec.text]
  have time {key : String} {time : Option Timestamp}
      (found : (ToolCallRecord.shape.encode t).lookup key = some ((timestampCodec.nullable timestamp_ne_null).encode time)) :
      nullOr (fun time => ensure (isString time)) (Json.get (Json.fieldsOf (ToolCallRecord.shape.encode t)) key) =
        .ok () := by
    rw [get_encode found]
    exact nullOr_encode fun x _ => by simp
  simp only [isToolCall, bind_eq_ok, ensure_eq_ok]
  refine ⟨(), ?_, (), ?_, (), ?_, (), ?_, (), time (by simp [ToolCallRecord.shape]; rfl),
    (), time (by simp [ToolCallRecord.shape]; rfl), (), time (by simp [ToolCallRecord.shape]; rfl),
    (), time (by simp [ToolCallRecord.shape]; rfl), (), ?_, ?_⟩
  · rw [get_encode (j := identifierCodec.encode t.toolCallId) (by simp [ToolCallRecord.shape]), isIdentifier_encode]
  · rw [get_encode (j := identifierCodec.encode t.turnId) (by simp [ToolCallRecord.shape]), isIdentifier_encode]
  · rw [get_encode (j := (identifierCodec.nullable identifier_ne_null).encode t.name)
      (by simp [ToolCallRecord.shape])]
    exact nullOr_encode fun x _ => rfl
  · rw [get_encode (j := (Codec.jsonObject.nullable Codec.jsonObject_ne_null).encode t.arguments)
      (by simp [ToolCallRecord.shape])]
    exact nullOr_encode fun x _ => rfl
  · rw [get_encode (j := (Attribution.codec.nullable Attribution.encode_ne_null).encode t.attribution)
      (by simp [ToolCallRecord.shape])]
    exact isNullableAttribution_encode _
  · rw [get_encode (j := (ToolResultRecord.codec.nullable ToolResultRecord.encode_ne_null).encode t.result)
      (by simp [ToolCallRecord.shape]),
      toolCallId]
    exact nullOr_encode fun r given => isToolResult_encode r (sound.records r given)

end

/-! ### Approvals -/

theorem isConversationApprovalReason_encode {r : JsString} (valid : validateApprovalReason (some (.str r)) = .ok r) :
    isConversationApprovalReason (some (.str r)) = true := by
  rw [isConversationApprovalReason, valid]
  rfl

theorem actorTypeOf_encode (a : Attribution) :
    actorTypeOf (some (Attribution.codec.encode a)) = some (literal a.actor.type) := by
  have actor : Json.get (Json.fieldsOf (Attribution.shape.encode a)) "actor" =
      some (.obj (Json.fieldsOf (Actor.shape.encode a.actor))) := by
    rw [Json.get_fieldsOf]
    simp [Attribution.shape, Actor.codec, Codec.object, Json.object]
  simp only [actorTypeOf, Attribution.codec, Codec.object, Json.object, actor, Json.get_fieldsOf]
  rw [Actor.shape, Shape.encode_equiv, Shape.lookup_required, enumeration_encode]

theorem isNull_encode {α β : Type} {s : Shape α} {a : α} {key : String} {w : β → Json} {b : Option β}
    (notNull : ∀ b, w b ≠ .null) (found : (s.encode a).lookup key = some (b.elim .null w)) :
    isNull (Json.fieldsOf (s.encode a)) key = b.isNone := by
  rw [isNull, get_encode found]
  cases b with
  | none => rfl
  | some x =>
    simp only [Option.elim_some, Option.isNone_some]
    split
    · rename_i null
      exact (notNull x (Option.some.inj null)).elim
    · rfl

theorem comparesTimes_encode {s : Shape α} {a : α} {left right : String} {order : Int → Int → Bool}
    {x y : Timestamp} (first : (s.encode a).lookup left = some (timestampCodec.encode x))
    (second : (s.encode a).lookup right = some (timestampCodec.encode y)) :
    comparesTimes order (Json.fieldsOf (s.encode a)) left right = order x.time y.time := by
  simp only [comparesTimes, get_encode first, get_encode second, conversationTime_encode]

section
variable {p : ApprovalProposalRecord}

theorem isProposalStatus_encode (sound : p.Sound) :
    isProposalStatus (Json.fieldsOf (ApprovalProposalRecord.shape.encode p)) = .ok () := by
  have status : Json.get (Json.fieldsOf (ApprovalProposalRecord.shape.encode p)) "status" = some (literal p.status) :=
    get_encode (by simp [ApprovalProposalRecord.shape])
  have version : Json.get (Json.fieldsOf (ApprovalProposalRecord.shape.encode p)) "proposal_version" =
      some ((safeIntegerCodec 1).encode p.proposalVersion) := get_encode (by simp [ApprovalProposalRecord.shape])
  have attribution : Json.get (Json.fieldsOf (ApprovalProposalRecord.shape.encode p)) "decision_attribution" =
      some ((Attribution.codec.nullable Attribution.encode_ne_null).encode p.decisionAttribution) :=
    get_encode (by simp [ApprovalProposalRecord.shape])
  have decisionAt : isNull (Json.fieldsOf (ApprovalProposalRecord.shape.encode p)) "decision_at" =
      p.decisionAt.isNone := isNull_encode (w := timestampCodec.encode) timestamp_ne_null (by simp [ApprovalProposalRecord.shape])
  have decisionAttribution : isNull (Json.fieldsOf (ApprovalProposalRecord.shape.encode p)) "decision_attribution" =
      p.decisionAttribution.isNone := by rw [isNull, attribution]; cases p.decisionAttribution <;> rfl
  have decisionReason : isNull (Json.fieldsOf (ApprovalProposalRecord.shape.encode p)) "decision_reason" =
      p.decisionReason.isNone :=
        isNull_encode (w := Codec.string.encode) Codec.string_ne_null (by simp [ApprovalProposalRecord.shape])
  have failureReason : isNull (Json.fieldsOf (ApprovalProposalRecord.shape.encode p)) "failure_reason" =
      p.failureReason.isNone :=
        isNull_encode (w := Codec.string.encode) Codec.string_ne_null (by simp [ApprovalProposalRecord.shape])
  simp only [isProposalStatus, status, decisionAt, decisionAttribution, decisionReason, failureReason, version]
  by_cases pending : p.status = .pending
  · obtain ⟨first, noTime, noActor, noReason⟩ := sound.pending pending
    have unfailed : p.failureReason = none := by
      have failed := sound.failed
      rw [pending] at failed
      simpa using failed
    have literal : isLiteral (some (literal p.status)) "pending" = true := by
      rw [pending]
      rfl
    have one : isNumber (some ((safeIntegerCodec 1).encode p.proposalVersion)) 1 = true := by
      simp [isNumber, safeIntegerCodec, first, JsNumber.strictEqual]
    rw [if_pos literal, noTime, noActor, noReason, unfailed, one]
    rfl
  · obtain ⟨later, someTime, actor, someActor, allowed⟩ := sound.decided pending
    have other : ¬isLiteral (some (literal p.status)) "pending" = true := by
      cases h : p.status <;> simp_all [isLiteral, literal, Enumeration.text]
    have decider : includesText [ActorType.user, ActorType.system]
        (actorTypeOf (some ((Attribution.codec.nullable Attribution.encode_ne_null).encode p.decisionAttribution))) = .ok () := by
      rw [someActor, Codec.nullable_encode, Option.elim_some, actorTypeOf_encode]
      exact includesText_encode (by simpa using allowed)
    have timed : p.decisionAt.isNone = false := by simpa using someTime
    rw [if_neg other]
    simp only [bind_eq_ok, ensure_eq_ok]
    refine ⟨(), ?_, (), attribution ▸ decider, ?_⟩
    · rw [isSafeIntegerFrom_encode _ later, timed, someActor]
      rfl
    · have failed := sound.failed
      have isFailed : (isOneOf [ApprovalProposalStatus.confirmed, .rejected, .expired, .executing, .executed]
          (some (literal p.status)) = true ∧ p.status ≠ .failed) ∨
          (isOneOf [ApprovalProposalStatus.confirmed, .rejected, .expired, .executing, .executed]
            (some (literal p.status)) = false ∧ p.status = .failed) := by
        cases h : p.status <;> simp_all [isOneOf, literal, valueOf, Enumeration.text]
      rcases isFailed with ⟨one, unfailed⟩ | ⟨none, failedStatus⟩
      · rw [if_pos one, ensure_eq_ok, Option.isNone_iff_eq_none, ← Option.not_isSome_iff_eq_none, failed]
        exact unfailed
      · have given := failed.mpr failedStatus
        rw [if_neg (by simp [none]), ensure_eq_ok, Bool.or_eq_true]
        right
        simpa using given

theorem isApprovalProposal_encode (sound : p.Sound) :
    isApprovalProposal (Json.fieldsOf (ApprovalProposalRecord.shape.encode p)) = .ok () ↔
      p.createdAt.time ≤ p.updatedAt.time := by
  have identifier {key : String} {id : Identifier}
      (found : (ApprovalProposalRecord.shape.encode p).lookup key = some (identifierCodec.encode id)) :
      isIdentifier (Json.get (Json.fieldsOf (ApprovalProposalRecord.shape.encode p)) key) = true := by
    rw [get_encode found, isIdentifier_encode]
  have time {key : String} {time : Timestamp}
      (found : (ApprovalProposalRecord.shape.encode p).lookup key = some (timestampCodec.encode time)) :
      isConversationTimestamp (Json.get (Json.fieldsOf (ApprovalProposalRecord.shape.encode p)) key) = true := by
    rw [get_encode found, isConversationTimestamp_encode]
  have created : (ApprovalProposalRecord.shape.encode p).lookup "created_at" =
      some (timestampCodec.encode p.createdAt) := by simp [ApprovalProposalRecord.shape]
  have expires : (ApprovalProposalRecord.shape.encode p).lookup "expires_at" =
      some (timestampCodec.encode p.expiresAt) := by simp [ApprovalProposalRecord.shape]
  have updated : (ApprovalProposalRecord.shape.encode p).lookup "updated_at" =
      some (timestampCodec.encode p.updatedAt) := by simp [ApprovalProposalRecord.shape]
  have order : (!comparesTimes (· < ·) (Json.fieldsOf (ApprovalProposalRecord.shape.encode p)) "updated_at"
      "created_at") = true ↔ p.createdAt.time ≤ p.updatedAt.time := by
    rw [comparesTimes_encode updated created]
    simp
  simp only [isApprovalProposal, bind_eq_ok, ensure_eq_ok]
  constructor
  · rintro ⟨_, _, _, _, _, _, _, _, _, _, _, _, _, _, _, _, _, _, _, _, _, _, _, _, _, _, _, times, _⟩
    exact order.mp times
  · intro times
    refine ⟨(), hasExactKeys_encode rfl, (), identifier (by simp [ApprovalProposalRecord.shape]; rfl), (), ?_,
      (), identifier (by simp [ApprovalProposalRecord.shape]; rfl),
      (), identifier (by simp [ApprovalProposalRecord.shape]; rfl),
      (), identifier (by simp [ApprovalProposalRecord.shape]; rfl), (), ?_, (), ?_, (), ?_, (), time expires,
      (), time created, (), time updated, (), ?_, (), order.mpr times, (), ?_, (), ?_, (), ?_, (), ?_, (), ?_, (), ?_,
      (), ?_, isProposalStatus_encode sound⟩
    · rw [get_encode (j := (identifierCodec.nullable identifier_ne_null).encode p.groupId)
      (by simp [ApprovalProposalRecord.shape])]
      exact nullOr_encode fun x _ => by simp
    · rw [get_encode (j := ReviewedArguments.codec.encode p.reviewedArguments)
      (by simp [ApprovalProposalRecord.shape]),
        isConversationApprovalReviewedArguments, sound.reviewed.encode]
      rfl
    · rw [get_encode (j := enumeration.encode p.status) (by simp [ApprovalProposalRecord.shape])]
      exact isOneOf_encode (Enumeration.mem_values _)
    · rw [get_encode (j := (safeIntegerCodec 1).encode p.proposalVersion) (by simp [ApprovalProposalRecord.shape])]
      exact isSafeIntegerFrom_encode _ p.proposalVersion.bounded
    · rw [comparesTimes_encode expires created]
      simpa using sound.expires
    · rw [get_encode (j := Attribution.codec.encode p.createdAttribution) (by simp [ApprovalProposalRecord.shape])]
      exact isAttribution_encode _
    · rw [get_encode (j := Attribution.codec.encode p.createdAttribution) (by simp [ApprovalProposalRecord.shape]),
        actorTypeOf_encode, sound.creator]
      rfl
    · rw [get_encode (j := Attribution.codec.encode p.latestAttribution) (by simp [ApprovalProposalRecord.shape])]
      exact isAttribution_encode _
    · rw [get_encode (j := (timestampCodec.nullable timestamp_ne_null).encode p.decisionAt)
        (by simp [ApprovalProposalRecord.shape])]
      exact nullOr_encode fun x _ => by simp
    · rw [get_encode (j := (Attribution.codec.nullable Attribution.encode_ne_null).encode p.decisionAttribution)
        (by simp [ApprovalProposalRecord.shape])]
      exact isNullableAttribution_encode _
    · rw [get_encode (j := (Codec.string.nullable Codec.string_ne_null).encode p.decisionReason)
        (by simp [ApprovalProposalRecord.shape])]
      exact nullOr_encode fun r given => ensure_eq_ok.mpr (isConversationApprovalReason_encode (sound.decisionReason r given))
    · rw [get_encode (j := (Codec.string.nullable Codec.string_ne_null).encode p.failureReason)
        (by simp [ApprovalProposalRecord.shape])]
      exact nullOr_encode fun r given => ensure_eq_ok.mpr (isConversationApprovalReason_encode (sound.failureReason r given))

theorem isRequestedIn_encode {toolCalls : List ToolCallRecord} (requested : p.Requested toolCalls) :
    isRequestedIn (toolCalls.map fun t => Json.fieldsOf (ToolCallRecord.shape.encode t))
      (Json.fieldsOf (ApprovalProposalRecord.shape.encode p)) = true := by
  obtain ⟨t, member, toolCallId, turnId, name, required⟩ := requested
  have marked : isNull (Json.fieldsOf (ToolCallRecord.shape.encode t)) "approval_required_at" =
      t.approvalRequiredAt.isNone :=
    isNull_encode (w := timestampCodec.encode) timestamp_ne_null (by simp [ToolCallRecord.shape])
  rw [isRequestedIn, List.any_map, List.any_eq_true]
  refine ⟨t, member, ?_⟩
  simp only [Function.comp_def, marked, Option.isNone_eq_false_iff.mpr required]
  simp [textOf, Json.get_fieldsOf, ToolCallRecord.shape, ApprovalProposalRecord.shape, name, toolCallId, turnId]

end

/-! ### Budgets and links -/

theorem isToolLoopBudgetExhaustion_encode (x : ToolLoopBudgetExhaustion) :
    isToolLoopBudgetExhaustion (Json.fieldsOf (ToolLoopBudgetExhaustion.shape.encode x)) = .ok () := by
  simp only [isToolLoopBudgetExhaustion, bind_eq_ok, ensure_eq_ok]
  refine ⟨(), ?_, (), ?_, (), ?_, (), ?_, ?_⟩
  · rw [get_encode (j := identifierCodec.encode x.turnId) (by simp [ToolLoopBudgetExhaustion.shape]),
      isIdentifier_encode]
  · rw [get_encode (j := enumeration.encode x.budget) (by simp [ToolLoopBudgetExhaustion.shape])]
    exact includesText_encode (Enumeration.mem_values _)
  · rw [get_encode (j := (safeIntegerCodec 1).encode x.limit) (by simp [ToolLoopBudgetExhaustion.shape])]
    exact isSafeIntegerFrom_encode _ x.limit.bounded
  · rw [get_encode (j := timestampCodec.encode x.exhaustedAt) (by simp [ToolLoopBudgetExhaustion.shape]),
      isString_timestamp]
  · rw [get_encode (j := Attribution.codec.encode x.attribution) (by simp [ToolLoopBudgetExhaustion.shape])]
    exact isAttribution_encode _

theorem isUsageLink_encode (x : UsageReceiptLink) :
    isUsageLink (Json.fieldsOf (UsageReceiptLink.shape.encode x)) = .ok () := by
  simp only [isUsageLink, bind_eq_ok, ensure_eq_ok]
  refine ⟨(), ?_, (), ?_, (), ?_, ?_⟩
  · rw [get_encode (j := identifierCodec.encode x.usageReceiptId) (by simp [UsageReceiptLink.shape]),
      isIdentifier_encode]
  · rw [get_encode (j := identifierCodec.encode x.turnId) (by simp [UsageReceiptLink.shape]), isIdentifier_encode]
  · rw [get_encode (j := timestampCodec.encode x.linkedAt) (by simp [UsageReceiptLink.shape]), isString_timestamp]
  · rw [get_encode (j := Attribution.codec.encode x.attribution) (by simp [UsageReceiptLink.shape])]
    exact isAttribution_encode _

/-! ### Citations -/

theorem isCited_encode {toolCalls : List ToolCallRecord}
    {target : CitationAttachmentTarget} (distinct : (messages.map fun m => m.messageId.text).Nodup)
    (cited : Cited messages toolCalls target) :
    isCited (messages.map fun m => Json.fieldsOf (MessageRecord.shape.encode m))
      (toolCalls.map fun t => Json.fieldsOf (ToolCallRecord.shape.encode t)) target = true := by
  cases target with
  | assistantMessage messageId =>
    obtain ⟨m, member, rfl, role⟩ := cited
    have found : messages.find? (fun other => textOf (Json.fieldsOf (MessageRecord.shape.encode other)) "message_id" ==
        some m.messageId.text) = some m := by
      refine find?_eq_some_of_unique member (by simp [message_id]) fun other inside matched => ?_
      rw [message_id, beq_iff_eq, Option.some.injEq] at matched
      exact List.inj_on_of_nodup_map distinct inside member matched
    have got : (MessageRecord.shape.encode m).lookup "role" = some (m.role.elim .null literal) := by
      simp [MessageRecord.shape]
      rfl
    rw [isCited, List.find?_map]
    simp only [Function.comp_def, found, Option.map_some, Option.any_some]
    rw [isNull_encode (w := literal) enumeration_ne_null got, get_encode got]
    rcases role with none | assistant
    · simp [none]
    · simp [assistant, isLiteral, literal, Enumeration.text]
  | toolResult toolCallId =>
    obtain ⟨t, member, rfl⟩ := cited
    rw [isCited, List.any_map, List.any_eq_true]
    exact ⟨t, member, by simp [textOf, Json.get_fieldsOf, ToolCallRecord.shape, identifierCodec, boundedText, Codec.text]⟩

section
variable [WebPlatform]

/-- The retained citations of a sound state pass within the limits of one record set. -/
theorem hasValidCitationProjection_encode {toolCalls : List ToolCallRecord}
    {sources : List RetainedSource} {citations : List RetainedCitation}
    (distinct : (messages.map fun m => m.messageId.text).Nodup)
    (sound : CitationsSound messages toolCalls sources citations) :
    hasValidCitationProjection
        (((CitationSource.codec.retained CitationSource.plain).list).encode sources)
        (((Citation.codec.retained Citation.plain).list).encode citations)
        (messages.map fun m => Json.fieldsOf (MessageRecord.shape.encode m))
        (toolCalls.map fun t => Json.fieldsOf (ToolCallRecord.shape.encode t)) = true ↔
      (retainedRecords sources citations).WithinLimits := by
  have writtenSources : ((CitationSource.codec.retained CitationSource.plain).list).encode sources =
      .arr ((retainedRecords sources citations).sources.map CitationSource.codec.encode) := by
    rw [Codec.list_encode, retainedRecords, List.map_map]
    exact congrArg Json.arr (List.map_congr_left fun x member => sound.sourcesWritten x member)
  have writtenCitations : ((Citation.codec.retained Citation.plain).list).encode citations =
      .arr ((retainedRecords sources citations).citations.map Citation.codec.encode) := by
    rw [Codec.list_encode, retainedRecords, List.map_map]
    exact congrArg Json.arr (List.map_congr_left fun x member => sound.citationsWritten x member)
  have written : Json.object [("sources", .arr ((retainedRecords sources citations).sources.map
      CitationSource.codec.encode)), ("citations", .arr ((retainedRecords sources citations).citations.map
        Citation.codec.encode))] = CitationRecordSet.codec.encode (retainedRecords sources citations) := rfl
  have sameSources := jsonValuesEqual_self (CitationSource.codec.list.encode_wellFormed
    fun s (_ : s ∈ (retainedRecords sources citations).sources) => Codec.Leafless.intact (c := CitationSource.codec) s)
  have sameCitations := jsonValuesEqual_self (Citation.codec.list.encode_wellFormed
    fun c (_ : c ∈ (retainedRecords sources citations).citations) => citation_intact c)
  rw [Codec.list_encode] at sameSources sameCitations
  rw [writtenSources, writtenCitations, hasValidCitationProjection, written]
  constructor
  · intro accepted
    split at accepted
    · cases accepted
    · rename_i normalized same
      exact ((normalizeCitationRecords_encode sound.normal).mp same).2
  · intro limits
    simp only [(normalizeCitationRecords_encode sound.normal).mpr ⟨rfl, limits⟩, sameSources, sameCitations,
      Bool.true_and, List.all_eq_true]
    intro c member
    obtain ⟨x, inside, rfl⟩ := List.mem_map.mp member
    exact isCited_encode distinct (sound.cited x inside)

/-! ### States -/

structure ConversationState.Fits (s : ConversationState) : Prop where
  records : (retainedRecords s.citationSources s.citations).WithinLimits
  times : ∀ p ∈ s.approvalProposals, p.createdAt.time ≤ p.updatedAt.time

omit [WebPlatform] in
theorem isActiveIn_encode {turns : List TurnRecord} {active : Option Identifier} (sound : TurnsSound turns active) :
    isActiveIn (turns.map fun t => Json.fieldsOf (TurnRecord.shape.encode t))
      (some ((identifierCodec.nullable identifier_ne_null).encode active)) = true := by
  cases active with
  | none => rfl
  | some id =>
    obtain ⟨turn, member, rfl, running⟩ := sound.active _ rfl
    have status : Json.get (Json.fieldsOf (TurnRecord.shape.encode turn)) "status" =
        some (literal turn.status) := get_encode (by simp [TurnRecord.shape])
    have text : textOf (Json.fieldsOf (TurnRecord.shape.encode turn)) "turn_id" = some turn.turnId.text := by
      simp [textOf, Json.get_fieldsOf, TurnRecord.shape, identifierCodec, boundedText, Codec.text]
    have current : ∃ status ∈ [TurnStateStatus.queued, .running, .waitingForToolResult], turn.status = status := by
      cases h : turn.status <;> simp_all [TurnRecord.isTerminal]
    obtain ⟨known, inside, same⟩ := current
    have found : valueOf [TurnStateStatus.queued, .running, .waitingForToolResult]
        (js (Enumeration.text turn.status)) = some known := valueOf_eq_some.mpr ⟨inside, by rw [same]⟩
    simp only [Codec.nullable_encode, Option.elim_some, isActiveIn, identifierCodec, boundedText, Codec.text,
      List.any_map, List.any_eq_true, Function.comp_def]
    refine ⟨turn, member, ?_⟩
    rw [text, status]
    simp [literal, stringOf, found]

omit [WebPlatform] in
theorem isMessage_of_agree {attachments : List AttachmentRecord}
    (agree : AttachmentsAgree (messages.map MessageRecord.holder) attachments) :
    ∀ m ∈ messages, isMessage (Json.fieldsOf (MessageRecord.shape.encode m)) = .ok () := by
  intro m member
  have held := List.mem_map_of_mem (f := MessageRecord.holder) member
  refine isMessage_encode m (fun a attached => ?_) (agree.attachmentIds _ held)
  obtain ⟨r, recorded, _, rfl⟩ := agree.recorded _ held a attached
  exact agree.valid r recorded

variable {s : ConversationState} {conversationId : Identifier} {log : List ConversationEvent}

theorem isConversationState_encode (contiguous : Contiguous conversationId log) (sound : s.Sound)
    (envelope : s.envelope = logEnvelope conversationId log) :
    isConversationState s.toJson (some conversationId.text) (log.getLast?.map ConversationEvent.revision) = .ok () ↔
      s.Fits := by
  have ids : s.processedEventIds = log.map ConversationEvent.eventId := congrArg Envelope.processedEventIds envelope
  have mutations : s.processedMutationIds = log.filterMap ConversationEvent.mutationId :=
    congrArg Envelope.processedMutationIds envelope
  have conversation : s.conversationId = some conversationId := congrArg Envelope.conversationId envelope
  have revision : s.revision = log.getLast?.map ConversationEvent.revision := congrArg Envelope.revision envelope
  have last : s.lastEventId = log.getLast?.map ConversationEvent.eventId := congrArg Envelope.lastEventId envelope
  have faultless : s.replayError = none := congrArg Envelope.replayError envelope
  have texts : Function.Injective (fun id : Identifier => id.text) := fun _ _ => BoundedText.ext
  have distinct : (s.messages.map fun m => m.messageId.text).Nodup := by
    have messageIds := sound.attachments.messageIds
    rw [List.map_map] at messageIds
    simpa [List.map_map, Function.comp_def, MessageRecord.holder] using messageIds.map texts
  have title : isNull (Json.fieldsOf (ConversationState.shape.encode s)) "title" = s.title.isNone :=
    isNull_encode (w := Codec.string.encode) Codec.string_ne_null (by simp [ConversationState.shape])
  have error : isNull (Json.fieldsOf (ConversationState.shape.encode s)) "replay_error" = s.replayError.isNone :=
    isNull_encode (w := ReplayError.codec.encode) ReplayError.encode_ne_null (by simp [ConversationState.shape])
  have lastEvent : isNull (Json.fieldsOf (ConversationState.shape.encode s)) "last_event_id" = s.lastEventId.isNone :=
    isNull_encode (w := identifierCodec.encode) identifier_ne_null (by simp [ConversationState.shape])
  have active : isNull (Json.fieldsOf (ConversationState.shape.encode s)) "active_turn_id" = s.activeTurnId.isNone :=
    isNull_encode (w := identifierCodec.encode) identifier_ne_null (by simp [ConversationState.shape])
  have messages : Json.get (Json.fieldsOf (ConversationState.shape.encode s)) "messages" =
      some ((Codec.object MessageRecord.shape).list.encode s.messages) :=
    get_encode (j := MessageRecord.codec.list.encode s.messages) (by simp [ConversationState.shape])
  have attachments : Json.get (Json.fieldsOf (ConversationState.shape.encode s)) "attachments" =
      some ((Codec.object AttachmentRecord.shape).list.encode s.attachments) :=
    get_encode (j := AttachmentRecord.codec.list.encode s.attachments) (by simp [ConversationState.shape])
  have toolCalls : Json.get (Json.fieldsOf (ConversationState.shape.encode s)) "tool_calls" =
      some ((Codec.object ToolCallRecord.shape).list.encode s.toolCalls) :=
    get_encode (j := ToolCallRecord.codec.list.encode s.toolCalls) (by simp [ConversationState.shape])
  have turns : Json.get (Json.fieldsOf (ConversationState.shape.encode s)) "turns" =
      some ((Codec.object TurnRecord.shape).list.encode s.turns) :=
    get_encode (j := TurnRecord.codec.list.encode s.turns) (by simp [ConversationState.shape])
  have proposals : Json.get (Json.fieldsOf (ConversationState.shape.encode s)) "approval_proposals" =
      some ((Codec.object ApprovalProposalRecord.shape).list.encode s.approvalProposals) :=
    get_encode (j := ApprovalProposalRecord.codec.list.encode s.approvalProposals) (by simp [ConversationState.shape])
  have sources : Json.get (Json.fieldsOf (ConversationState.shape.encode s)) "citation_sources" =
      some ((CitationSource.codec.retained CitationSource.plain).list.encode s.citationSources) :=
    get_encode (by simp [ConversationState.shape])
  have citations : Json.get (Json.fieldsOf (ConversationState.shape.encode s)) "citations" =
      some ((Citation.codec.retained Citation.plain).list.encode s.citations) :=
    get_encode (by simp [ConversationState.shape])
  have activeTurn : Json.get (Json.fieldsOf (ConversationState.shape.encode s)) "active_turn_id" =
      some ((identifierCodec.nullable identifier_ne_null).encode s.activeTurnId) := get_encode (by simp [ConversationState.shape])
  simp only [ConversationState.toJson, ConversationState.codec, Codec.object, Json.object, isConversationState,
    bind_eq_ok, ensure_eq_ok]
  constructor
  · rintro ⟨_, _, _, _, _, _, _, _, _, _, _, _, _, _, _, _, _, _, _, _, _, _, _, _, _, _, _, readMessages, _, _, _, _, _,
      _, _, readToolCalls, _, projection, _, readProposals, _⟩
    rw [messages, recordArray_encode] at readMessages
    rw [toolCalls, recordArray_encode] at readToolCalls
    rw [proposals, recordArray_encode] at readProposals
    rw [sources, citations, Option.getD_some, Option.getD_some, readMessages.2, readToolCalls.2,
      hasValidCitationProjection_encode distinct sound.citations] at projection
    exact ⟨projection, fun p member =>
      (isApprovalProposal_encode (sound.approvals.each p member)).mp (readProposals.1 p member)⟩
  · intro fits
    have head := contiguous.lastRevision
    have readMessages := recordArray_encode.mpr ⟨isMessage_of_agree sound.attachments, rfl⟩
    have readAttachments := recordArray_encode.mpr ⟨fun r member => isAttachmentRecord_encode r
      (sound.attachments.identified r member) (sound.attachments.valid r member), rfl⟩
    have readTurns := recordArray_encode.mpr ⟨fun t (_ : t ∈ s.turns) => isTurn_encode t, rfl⟩
    have readToolCalls := recordArray_encode.mpr ⟨fun t member => isToolCall_encode (sound.toolCalls t member), rfl⟩
    have readProposals := recordArray_encode.mpr ⟨fun p member =>
      (isApprovalProposal_encode (sound.approvals.each p member)).mpr (fits.times p member), rfl⟩
    have readBudgets := recordArray_encode.mpr
      ⟨fun x (_ : x ∈ s.toolLoopBudgetExhaustions) => isToolLoopBudgetExhaustion_encode x, rfl⟩
    have readLinks := recordArray_encode.mpr ⟨fun x (_ : x ∈ s.usageReceiptLinks) => isUsageLink_encode x, rfl⟩
    have budgets : Json.get (Json.fieldsOf (ConversationState.shape.encode s)) "tool_loop_budget_exhaustions" =
        some ((Codec.object ToolLoopBudgetExhaustion.shape).list.encode s.toolLoopBudgetExhaustions) :=
      get_encode (j := ToolLoopBudgetExhaustion.codec.list.encode s.toolLoopBudgetExhaustions)
        (by simp [ConversationState.shape])
    have links : Json.get (Json.fieldsOf (ConversationState.shape.encode s)) "usage_receipt_links" =
        some ((Codec.object UsageReceiptLink.shape).list.encode s.usageReceiptLinks) :=
      get_encode (j := UsageReceiptLink.codec.list.encode s.usageReceiptLinks) (by simp [ConversationState.shape])
    rw [messages, attachments, turns, toolCalls, proposals, sources, citations, budgets, links]
    refine ⟨(), hasExactKeys_encode rfl, (), ?_, (), ?_, (), ?_, (), by rw [error, faultless]; rfl, (), ?_, (), ?_,
      s.processedEventIds.map BoundedText.text, ?_, s.processedMutationIds.map BoundedText.text, ?_, (), ?_, (), ?_,
      (), ?_, (), ?_, _, readMessages, _, readAttachments, (), hasConsistentAttachmentProjection_encode sound.attachments,
      _, readTurns, _, readToolCalls, (), (hasValidCitationProjection_encode distinct sound.citations).mpr fits.records,
      _, readProposals, (), ?_, (), ?_, _, readBudgets, _, readLinks, (), ?_, ?_⟩
    · rw [get_encode (j := (identifierCodec.nullable identifier_ne_null).encode s.conversationId)
        (by simp [ConversationState.shape]), conversation]
      simp [equalsText, identifierCodec, boundedText, Codec.text]
    · rw [get_encode (j := (Codec.natural.nullable Codec.natural_ne_null).encode s.revision)
      (by simp [ConversationState.shape]),
        revision]
      cases log.getLast?.map ConversationEvent.revision with
      | none => rfl
      | some revision => simp [equalsRevision, isNumber, JsNumber.strictEqual]
    · rw [lastEvent, last, get_encode (j := (identifierCodec.nullable identifier_ne_null).encode s.lastEventId)
        (by simp [ConversationState.shape]), last]
      cases log.getLast? <;> simp
    · rw [title, get_encode (j := (Codec.string.nullable Codec.string_ne_null).encode s.title)
        (by simp [ConversationState.shape])]
      cases s.title <;> rfl
    · rw [get_encode (j := Codec.jsonObject.encode s.metadata) (by simp [ConversationState.shape])]
      rfl
    · rw [get_encode (j := identifierCodec.list.encode s.processedEventIds) (by simp [ConversationState.shape]),
        identifierTexts_encode]
    · rw [get_encode (j := identifierCodec.list.encode s.processedMutationIds) (by simp [ConversationState.shape]),
        identifierTexts_encode]
    · rw [head, ids]
      simp
    · rw [decide_eq_true_eq, ids]
      exact contiguous.eventIds.map texts
    · rw [decide_eq_true_eq, mutations]
      exact contiguous.mutationIds.map texts
    · have lastText : textOf (Json.fieldsOf (ConversationState.shape.encode s)) "last_event_id" =
          s.lastEventId.map BoundedText.text := by
        rw [textOf, get_encode (j := (identifierCodec.nullable identifier_ne_null).encode s.lastEventId)
          (by simp [ConversationState.shape])]
        cases s.lastEventId <;> rfl
      rw [lastText, ids, last, List.map_map, List.getLast?_map]
      cases log.getLast? <;> simp
    · have proposalTexts : (s.approvalProposals.map fun p => some p.proposalId.text).Nodup := by
        have injective : Function.Injective fun id : Identifier => some id.text :=
          fun _ _ same => BoundedText.ext (Option.some.inj same)
        simpa [List.map_map, Function.comp_def] using sound.approvals.proposalIds.map injective
      have proposalId (p : ApprovalProposalRecord) :
          textOf (Json.fieldsOf (ApprovalProposalRecord.shape.encode p)) "proposal_id" = some p.proposalId.text := by
        simp [textOf, Json.get_fieldsOf, ApprovalProposalRecord.shape, identifierCodec, boundedText, Codec.text]
      simpa [List.map_map, Function.comp_def, proposalId] using proposalTexts
    · rw [List.all_map, List.all_eq_true]
      exact fun p member => isRequestedIn_encode (sound.approvals.requested p member)
    · rw [active, activeTurn]
      cases s.activeTurnId <;> simp
    · rw [activeTurn]
      exact isActiveIn_encode sound.turns

end

end Handrail.Conversation

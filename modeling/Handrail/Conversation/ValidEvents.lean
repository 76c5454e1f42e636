import Handrail.Conversation.Reducer

/-!
# Accepted events

What the parser guarantees of an accepted event: every part of its payload passes its own check
again when it is written back as JSON.
-/

namespace Handrail.Conversation
open Js

/-! ### Checks that keep the text they accept -/

section
variable {value : Option Json} {text : JsString}

theorem validateAttachmentId_text (accepted : validateAttachmentId value = .ok text) :
    value = some (.str text) := by
  simp only [validateAttachmentId, bind_eq_ok, stringValue_eq_ok] at accepted
  obtain ⟨t, rfl, accepted⟩ := accepted
  split at accepted
  · obtain rfl := Except.ok.inj accepted
    rfl
  · cases accepted

theorem attachmentId_units (accepted : validateAttachmentId value = .ok text) : ∀ c ∈ text.units, c ≠ 0 := by
  simp only [validateAttachmentId, bind_eq_ok, stringValue_eq_ok] at accepted
  obtain ⟨t, rfl, accepted⟩ := accepted
  split at accepted
  · rename_i matched
    obtain rfl := Except.ok.inj accepted
    have literal : (js "att_").units = [97, 116, 116, 95] := by decide
    let patterns : List Pattern := [.all ((js "att_").units.map fun u => .unit (· == u)),
      .unit Pattern.isAlphanumeric, .repeats (alphanumericOr "._-") 0 (some 251)]
    have within : Pattern.Within (· ≠ 0) (.all (patterns ++ [.finish])) := by
      simp only [patterns, literal]
      refine ⟨⟨?_, ?_, ?_, ?_, trivial⟩, ?_, ?_, trivial, trivial⟩
      all_goals
        rintro c accepted rfl
        revert accepted
        decide
    exact Pattern.test_whole patterns within matched
  · cases accepted

theorem validateFilename_text (accepted : validateFilename value = .ok text) : value = some (.str text) := by
  simp only [validateFilename, bind_eq_ok, stringValue_eq_ok] at accepted
  obtain ⟨t, rfl, accepted⟩ := accepted
  split at accepted
  · cases accepted
  · obtain rfl := Except.ok.inj accepted
    rfl

theorem validateApprovalReason_text (accepted : validateApprovalReason value = .ok text) :
    value = some (.str text) := by
  simp only [validateApprovalReason, bind_eq_ok, stringValue_eq_ok] at accepted
  obtain ⟨t, rfl, accepted⟩ := accepted
  split at accepted
  · cases accepted
  · obtain rfl := Except.ok.inj accepted
    rfl

theorem validateArgumentReference_text (accepted : validateArgumentReference value = .ok text) :
    value = some (.str text) := by
  simp only [validateArgumentReference, bind_eq_ok, stringValue_eq_ok] at accepted
  obtain ⟨t, rfl, accepted⟩ := accepted
  split at accepted
  · cases accepted
  · obtain rfl := Except.ok.inj accepted
    rfl

end

theorem safeNat?_bound {x : JsNumber} {n : Nat} (found : x.safeNat? = some n) : n ≤ JsNumber.maxSafeInteger := by
  simp only [JsNumber.safeNat?, Option.filter_eq_some_iff, decide_eq_true_eq] at found
  exact found.2

variable {value : Option Json}

theorem validateSizeBytes_encode {kind : Option AttachmentKind} {n : Nat}
    (accepted : validateSizeBytes kind value = .ok n) :
    validateSizeBytes kind (some (Codec.natural.encode n)) = .ok n := by
  unfold validateSizeBytes at accepted ⊢
  simp only at accepted
  split at accepted
  · split at accepted
    · rename_i x size found
      split at accepted
      · rename_i inside
        obtain rfl := Except.ok.inj accepted
        simp only [Codec.natural, JsNumber.safeNat?_ofNat (safeNat?_bound found)]
        rw [if_pos inside]
      · cases accepted
    · cases accepted
  · cases accepted

theorem validateAttachmentReference_encode {a : AttachmentReference}
    (accepted : validateAttachmentReference value = .ok a) :
    validateAttachmentReference (some (AttachmentReference.codec.encode a)) = .ok a := by
  simp only [validateAttachmentReference, bind_eq_ok, field_eq_ok] at accepted
  obtain ⟨object, _, _, _, _, _, attachmentId, idOk, kind, kindOk, mediaType, mediaOk, filename, nameOk,
    rest⟩ := accepted
  rw [validateAttachmentId_text idOk] at idOk
  rw [(enumValue_eq_ok.mp mediaOk).2] at mediaOk
  split at rest
  · cases rest
  · rename_i sized
    obtain ⟨sizeBytes, sizeOk, h⟩ := bind_eq_ok.mp rest
    obtain rfl := Except.ok.inj h
    have named : ∀ name ∈ filename, validateFilename (some (.str name)) = .ok name := by
      intro name given
      obtain rfl := Option.mem_def.mp given
      rcases optionalField_eq_ok.mp nameOk with ⟨h, _⟩ | ⟨j, _, _, parsed, h⟩
      · cases h
      · obtain rfl := Option.some.inj h
        rwa [validateFilename_text parsed] at parsed
    have measured : ∀ n ∈ sizeBytes, validateSizeBytes kind (some (Codec.natural.encode n)) = .ok n := by
      intro n given
      obtain rfl := Option.mem_def.mp given
      rcases optionalField_eq_ok.mp sizeOk with ⟨h, _⟩ | ⟨j, _, _, parsed, h⟩
      · cases h
      · obtain rfl := Option.some.inj h
        exact validateSizeBytes_encode parsed
    -- A reference with a kind has its size.
    have present : kind.isSome = true → sizeBytes.isSome = true := by
      intro given
      rcases optionalField_eq_ok.mp sizeOk with ⟨_, missing⟩ | ⟨_, n, _, _, rfl⟩
      · simp [given, Json.hasOwn, missing] at sized
      · rfl
    simp only [validateAttachmentReference, bind_eq_ok]
    refine ⟨_, record_encode _ _ _, (), requiredKeys_encode _ _ ?_, (), allowedKeys_encode _ _ fun _ known => known,
      attachmentId, field_encode _ _ idOk, kind, optionalField_encode (w := literal) _ _ ?_ ?_, mediaType,
      field_encode _ _ ?_, filename, optionalField_encode (w := .str) _ _ ?_ named, ?_⟩
    · simp [AttachmentReference.shape]
    · simp [AttachmentReference.shape]
      rfl
    · exact fun b _ => enumValue_literal (Enumeration.mem_values b)
    · simpa [AttachmentReference.shape] using mediaOk
    · simp [AttachmentReference.shape]
      rfl
    · have measuredSize : Json.hasOwn (Json.fieldsOf (AttachmentReference.shape.encode
          ⟨attachmentId, kind, mediaType, filename, sizeBytes⟩)) "size_bytes" = sizeBytes.isSome := by
        simp [Json.hasOwn, Json.get_fieldsOf, AttachmentReference.shape]
      have given : ¬(kind.isSome && !sizeBytes.isSome) = true := by
        cases kindly : kind.isSome with
        | false => simp
        | true => simp [present kindly]
      rw [measuredSize, if_neg given]
      refine bind_eq_ok.mpr ⟨sizeBytes, optionalField_encode (w := Codec.natural.encode) _ _ ?_ measured, rfl⟩
      simp [AttachmentReference.shape]

/-! ### Reviewed arguments -/

def ReviewedArguments.Valid : ReviewedArguments → Prop
  | redactedJson value => validateBoundedObject approvalSnapshotLimits eventLimits.approvalSnapshotSerializedBytes
      (some (.obj value.fields)) = .ok value
  | opaqueReference argumentRef => validateArgumentReference (some (.str argumentRef)) = .ok argumentRef

theorem validateApprovalReviewedArguments_valid {a : ReviewedArguments}
    (accepted : validateApprovalReviewedArguments value = .ok a) : a.Valid := by
  simp only [validateApprovalReviewedArguments, bind_eq_ok] at accepted
  obtain ⟨object, _, _, _, rest⟩ := accepted
  split at rest
  · split at rest
    · simp only [bind_eq_ok, field_eq_ok] at rest
      obtain ⟨_, _, _, _, o, snapshot, h⟩ := rest
      obtain rfl := Except.ok.inj h
      obtain ⟨plain, _⟩ := validateBoundedObject_eq_ok.mp snapshot
      rwa [(validateObject_eq_ok.mp plain).1] at snapshot
    · split at rest
      · simp only [bind_eq_ok, field_eq_ok] at rest
        obtain ⟨_, _, _, _, argumentRef, reference, h⟩ := rest
        obtain rfl := Except.ok.inj h
        rwa [validateArgumentReference_text reference] at reference
      · cases rest
  · cases rest

namespace ReviewedArguments.Valid
variable {a : ReviewedArguments}

theorem encode (valid : a.Valid) :
    validateApprovalReviewedArguments (some (ReviewedArguments.codec.encode a)) = .ok a := by
  cases a with
  | redactedJson value =>
    refine bind_eq_ok.mpr ⟨_, record_encode _ (value, ()) _, ?_⟩
    refine bind_eq_ok.mpr ⟨(), requiredKeys_encode _ _ (by simp), ?_⟩
    rw [Json.get_fieldsOf, Shape.lookup_tag]
    simp only [↓reduceIte, bind_eq_ok]
    exact ⟨(), requiredKeys_encode _ _ (by simp), (), allowedKeys_encode _ _ fun _ known => known, value,
      field_encode _ _ valid, rfl⟩
  | opaqueReference argumentRef =>
    refine bind_eq_ok.mpr ⟨_, record_encode _ (argumentRef, ()) _, ?_⟩
    refine bind_eq_ok.mpr ⟨(), requiredKeys_encode _ _ (by simp), ?_⟩
    rw [Json.get_fieldsOf, Shape.lookup_tag]
    simp only [js_inj, String.reduceEq, ↓reduceIte, bind_eq_ok]
    exact ⟨(), requiredKeys_encode _ _ (by simp), (), allowedKeys_encode _ _ fun _ known => known, argumentRef,
      field_encode _ _ valid, rfl⟩

theorem intact (valid : a.Valid) : ReviewedArguments.codec.Intact a := by
  cases a with
  | redactedJson value => exact ⟨validateObject_wellFormed (validateBoundedObject_eq_ok.mp valid).1, trivial⟩
  | opaqueReference argumentRef => exact ⟨trivial, trivial⟩

end ReviewedArguments.Valid

/-! ### Valid payloads -/

def ApprovalChange.Valid : ApprovalChange → Prop
  | decision _ reason => ∀ r ∈ reason, validateApprovalReason (some (.str r)) = .ok r
  | failed reason => validateApprovalReason (some (.str reason)) = .ok reason
  | executing => True
  | executed => True

section
variable [WebPlatform]

structure ResultRecords (toolCallId : Identifier) (records : CitationRecordSet) : Prop where
  normal : records.Normal
  limits : records.WithinLimits
  linked : records.citations ≠ []
  targets : ∀ c ∈ records.citations, c.target = .toolResult toolCallId.text

namespace ConversationEventPayload

def Valid : ConversationEventPayload → Prop
  | messageAttachmentReferenced _ attachment =>
    validateAttachmentReference (some (AttachmentReference.codec.encode attachment)) = .ok attachment
  | citationRecordsLinked target records =>
    records.Normal ∧ ∀ c ∈ records.citations, target.covers c.target = true
  | toolCallRequested _ _ _ arguments => Codec.jsonObject.Intact arguments
  | approvalProposalCreated proposal => proposal.reviewedArguments.Valid
  | approvalProposalStatusChanged _ _ change => change.Valid
  | toolCallResultRecorded _ toolCallId content _ citationRecords =>
    ToolResultPart.codec.list.Intact content ∧ ∀ records ∈ citationRecords, ResultRecords toolCallId records
  | metadataUpdated metadata => Codec.jsonObject.Intact metadata
  | _ => True

end ConversationEventPayload

theorem linkedRecords_valid {object : Fields} {target : CitationTarget} {records : CitationRecordSet}
    (accepted : linkedRecords object target = .ok records) :
    records.Normal ∧ ∀ c ∈ records.citations, target.covers c.target = true := by
  obtain ⟨_, deduplicated, rest⟩ := bind_eq_ok.mp accepted
  split at rest
  · cases rest
  · split at rest
    · cases rest
    · rename_i same
      split at rest
      · cases rest
      · rename_i covered
        have h := Except.ok.inj rest
        subst h
        simp only [Bool.or_eq_true, Bool.not_eq_true', not_or, Bool.not_eq_false, Option.any_eq_true] at same
        obtain ⟨⟨sources, gotSources, sameSources⟩, citations, gotCitations, sameCitations⟩ := same
        rw [gotSources, gotCitations, caught_eq_ok] at deduplicated
        refine ⟨(CitationRecordSet.normal_of_equal deduplicated sameSources sameCitations).1, ?_⟩
        simpa using covered

theorem resultRecords_valid {toolCallId : Identifier} {records : CitationRecordSet}
    (accepted : resultRecords toolCallId value = .ok records) : ResultRecords toolCallId records := by
  obtain ⟨_, normalized, rest⟩ := bind_eq_ok.mp accepted
  split at rest
  · cases rest
  · rename_i linked
    split at rest
    · cases rest
    · rename_i same
      split at rest
      · cases rest
      · rename_i targets
        have h := Except.ok.inj rest
        subst h
        simp only [Bool.not_eq_true', Bool.not_eq_false, Option.any_eq_true] at same
        obtain ⟨given, rfl, same⟩ := same
        rw [caught_eq_ok] at normalized
        simp only [normalizeCitationRecords, bind_eq_ok, under_eq_ok] at normalized
        obtain ⟨fields, ⟨_, plain, _, _, _, _, h⟩, deduplicated⟩ := normalized
        obtain rfl := Except.ok.inj h
        obtain rfl := Option.some.inj (record_eq_ok.mp plain).1
        obtain ⟨_, h, _, each⟩ := jsonValuesEqual_obj same
        obtain rfl := Json.obj.inj h
        obtain ⟨sources, gotSources, sameSources⟩ := each (js "sources", _) (List.mem_cons_self ..)
        obtain ⟨citations, gotCitations, sameCitations⟩ :=
          each (js "citations", _) (List.mem_cons_of_mem _ (List.mem_cons_self ..))
        have first : Json.get _ "sources" = some sources := gotSources
        have second : Json.get _ "citations" = some citations := gotCitations
        rw [first, second] at deduplicated
        obtain ⟨normal, limits⟩ := CitationRecordSet.normal_of_equal deduplicated sameSources sameCitations
        exact ⟨normal, limits, by simpa using linked, by simpa using targets⟩

omit [WebPlatform] in
theorem parseApprovalChange_valid {object : Fields} {status : ApprovalProposalStatus} {change : ApprovalChange}
    (accepted : parseApprovalChange object status = .ok change) : change.Valid := by
  have decided {status : DecisionStatus} (accepted : parseDecision object status = .ok change) : change.Valid := by
    simp only [parseDecision, bind_eq_ok] at accepted
    obtain ⟨_, _, reason, reasonOk, h⟩ := accepted
    obtain rfl := Except.ok.inj h
    intro r given
    obtain rfl := Option.mem_def.mp given
    rcases optionalField_eq_ok.mp reasonOk with ⟨h, _⟩ | ⟨_, _, _, parsed, h⟩
    · cases h
    · obtain rfl := Option.some.inj h
      rwa [validateApprovalReason_text parsed] at parsed
  cases status with
  | confirmed | rejected | expired => exact decided accepted
  | failed =>
    simp only [parseApprovalChange, bind_eq_ok, field_eq_ok] at accepted
    obtain ⟨_, _, _, _, reason, parsed, h⟩ := accepted
    obtain rfl := Except.ok.inj h
    rwa [validateApprovalReason_text parsed] at parsed
  | executing | executed | pending =>
    obtain ⟨_, _, h⟩ := bind_eq_ok.mp accepted
    obtain rfl := Except.ok.inj h
    trivial

omit [WebPlatform] in
theorem validateToolResultPart_intact {part : ToolResultPart}
    (accepted : validateToolResultPart value = .ok part) : ToolResultPart.codec.Intact part := by
  obtain ⟨object, _, rest⟩ := bind_eq_ok.mp accepted
  split at rest
  · obtain ⟨_, _, rfl⟩ := map_eq_ok.mp rest
    exact ⟨trivial, trivial⟩
  · split at rest
    · simp only [bind_eq_ok, field_eq_ok] at rest
      obtain ⟨_, _, _, _, _, checked, h⟩ := rest
      obtain rfl := Except.ok.inj h
      exact ⟨validateJson_wellFormed checked, trivial⟩
    · cases rest

omit [WebPlatform] in
theorem contentArray_intact {content : List ToolResultPart}
    (accepted : contentArray validateToolResultPart value = .ok content) :
    ToolResultPart.codec.list.Intact content := by
  unfold contentArray at accepted
  split at accepted
  · intro part member
    obtain ⟨item, parsed⟩ := eachItem_mem accepted member
    exact validateToolResultPart_intact parsed
  · cases accepted

omit [WebPlatform] in
theorem validateMetadata_wellFormed {metadata : JsonObject}
    (accepted : validateMetadata value = .ok metadata) : Codec.jsonObject.Intact metadata :=
  validateObject_wellFormed (validateBoundedObject_eq_ok.mp accepted).1

theorem parsePayloadFields_valid {object : Fields} {type : ConversationEventType}
    {payload : ConversationEventPayload} (accepted : parsePayloadFields object type = .ok payload) :
    payload.Valid := by
  cases type with
  | messageCreated =>
    simp only [parsePayloadFields, bind_eq_ok, field_eq_ok] at accepted
    obtain ⟨_, _, _, _, _, _, _, _, _, _, h⟩ := accepted
    obtain rfl := Except.ok.inj h
    trivial
  | messageTextAppended =>
    simp only [parsePayloadFields, bind_eq_ok, field_eq_ok] at accepted
    obtain ⟨_, _, _, _, _, _, _, _, _, _, h⟩ := accepted
    obtain rfl := Except.ok.inj h
    trivial
  | messageAttachmentReferenced =>
    simp only [parsePayloadFields, bind_eq_ok, field_eq_ok] at accepted
    obtain ⟨_, _, _, _, _, _, attachment, attachmentOk, h⟩ := accepted
    obtain rfl := Except.ok.inj h
    exact validateAttachmentReference_encode attachmentOk
  | citationRecordsLinked =>
    simp only [parsePayloadFields, bind_eq_ok] at accepted
    obtain ⟨_, _, _, _, rest⟩ := accepted
    split at rest
    · cases rest
    · simp only [bind_eq_ok, field_eq_ok] at rest
      obtain ⟨_, _, _, recordsOk, h⟩ := rest
      obtain rfl := Except.ok.inj h
      exact linkedRecords_valid recordsOk
  | turnStarted =>
    simp only [parsePayloadFields, bind_eq_ok, field_eq_ok] at accepted
    obtain ⟨_, _, _, _, _, _, _, _, _, _, h⟩ := accepted
    obtain rfl := Except.ok.inj h
    trivial
  | turnStatusChanged =>
    simp only [parsePayloadFields, bind_eq_ok, field_eq_ok] at accepted
    obtain ⟨_, _, _, _, _, _, _, _, h⟩ := accepted
    obtain rfl := Except.ok.inj h
    trivial
  | turnAttemptStarted =>
    simp only [parsePayloadFields, bind_eq_ok, field_eq_ok] at accepted
    obtain ⟨_, _, _, _, _, _, _, _, _, _, h⟩ := accepted
    obtain rfl := Except.ok.inj h
    trivial
  | turnRetryScheduled =>
    simp only [parsePayloadFields, bind_eq_ok, field_eq_ok] at accepted
    obtain ⟨_, _, _, _, _, _, _, _, _, _, _, _, h⟩ := accepted
    obtain rfl := Except.ok.inj h
    trivial
  | turnRetryExhausted =>
    simp only [parsePayloadFields, bind_eq_ok, field_eq_ok] at accepted
    obtain ⟨_, _, _, _, _, _, _, _, _, _, _, _, h⟩ := accepted
    obtain rfl := Except.ok.inj h
    trivial
  | turnCancellationRequested | turnCancellationUnsupported | turnCancelled =>
    simp only [parsePayloadFields, parseTurnReason, bind_eq_ok, field_eq_ok] at accepted
    obtain ⟨_, _, _, _, _, _, _, _, h⟩ := accepted
    obtain rfl := Except.ok.inj h
    trivial
  | turnCompleted =>
    simp only [parsePayloadFields, bind_eq_ok, field_eq_ok] at accepted
    obtain ⟨_, _, _, _, _, _, _, _, _, _, h⟩ := accepted
    obtain rfl := Except.ok.inj h
    trivial
  | turnFailed =>
    simp only [parsePayloadFields, bind_eq_ok, field_eq_ok] at accepted
    obtain ⟨_, _, _, _, _, _, _, _, h⟩ := accepted
    obtain rfl := Except.ok.inj h
    trivial
  | toolCallRequested =>
    simp only [parsePayloadFields, bind_eq_ok, field_eq_ok] at accepted
    obtain ⟨_, _, _, _, _, _, _, _, _, _, _, argumentsOk, h⟩ := accepted
    obtain rfl := Except.ok.inj h
    exact validateObject_wellFormed argumentsOk
  | toolCallDiscovered | toolCallStarted | toolCallApprovalRequired =>
    simp only [parsePayloadFields, parseToolCallStage, bind_eq_ok, field_eq_ok] at accepted
    obtain ⟨_, _, _, _, _, _, _, _, h⟩ := accepted
    obtain rfl := Except.ok.inj h
    trivial
  | approvalProposalCreated =>
    simp only [parsePayloadFields] at accepted
    obtain ⟨proposal, parsed, rfl⟩ := map_eq_ok.mp accepted
    simp only [parseApprovalProposal, bind_eq_ok, field_eq_ok] at parsed
    obtain ⟨_, _, _, _, _, _, _, _, _, _, _, _, _, _, rest⟩ := parsed
    split at rest
    · cases rest
    · split at rest
      · cases rest
      · simp only [bind_eq_ok, field_eq_ok] at rest
        obtain ⟨_, _, _, reviewed, h⟩ := rest
        obtain rfl := Except.ok.inj h
        exact validateApprovalReviewedArguments_valid reviewed
  | approvalProposalStatusChanged =>
    simp only [parsePayloadFields, bind_eq_ok, field_eq_ok] at accepted
    obtain ⟨_, _, _, _, _, _, _, _, _, changeOk, h⟩ := accepted
    obtain rfl := Except.ok.inj h
    exact parseApprovalChange_valid changeOk
  | toolCallResultRecorded =>
    simp only [parsePayloadFields, bind_eq_ok, field_eq_ok] at accepted
    obtain ⟨_, _, _, _, _, _, toolCallId, _, content, contentOk, _, _, citationRecords, recordsOk, h⟩ := accepted
    obtain rfl := Except.ok.inj h
    refine ⟨contentArray_intact contentOk, fun records given => ?_⟩
    obtain rfl := Option.mem_def.mp given
    rcases optionalField_eq_ok.mp recordsOk with ⟨h, _⟩ | ⟨_, _, _, parsed, h⟩
    · cases h
    · obtain rfl := Option.some.inj h
      exact resultRecords_valid parsed
  | toolLoopBudgetExhausted =>
    simp only [parsePayloadFields, bind_eq_ok, field_eq_ok] at accepted
    obtain ⟨_, _, _, _, _, _, _, _, _, _, h⟩ := accepted
    obtain rfl := Except.ok.inj h
    trivial
  | usageReceiptLinked =>
    simp only [parsePayloadFields, bind_eq_ok, field_eq_ok] at accepted
    obtain ⟨_, _, _, _, _, _, _, _, h⟩ := accepted
    obtain rfl := Except.ok.inj h
    trivial
  | metadataUpdated =>
    simp only [parsePayloadFields, bind_eq_ok, field_eq_ok] at accepted
    obtain ⟨_, _, _, _, metadata, metadataOk, h⟩ := accepted
    obtain rfl := Except.ok.inj h
    exact validateMetadata_wellFormed metadataOk
  | titleUpdated =>
    simp only [parsePayloadFields, bind_eq_ok] at accepted
    obtain ⟨_, _, _, _, rest⟩ := accepted
    split at rest
    · obtain rfl := Except.ok.inj rest
      trivial
    · obtain ⟨_, _, h⟩ := bind_eq_ok.mp rest
      obtain rfl := Except.ok.inj h
      trivial

theorem validatePayload_valid {payload : ConversationEventPayload}
    (accepted : validatePayload value = .ok payload) : payload.Valid := by
  simp only [validatePayload, bind_eq_ok] at accepted
  obtain ⟨_, _, _, _, rest⟩ := accepted
  split at rest
  · cases rest
  · exact parsePayloadFields_valid rest

/-! ### Valid events -/

structure ConversationEvent.Valid (e : ConversationEvent) : Prop where
  payload : e.payload.Valid
  lifecycle : checkApprovalLifecycle e.actor e.occurredAt e.payload = .ok ()
  positive : 1 ≤ e.revision
  safe : e.revision ≤ JsNumber.maxSafeInteger
  metadata : ∀ o ∈ e.metadata, Codec.jsonObject.Intact o
  imported : e.source = .import → e.mutationId = none

theorem parseConversationEvent_valid {value : Json} {e : ConversationEvent}
    (accepted : parseConversationEvent value = .ok e) : e.Valid := by
  simp only [parseConversationEvent, under_eq_ok, bind_eq_ok] at accepted
  obtain ⟨_, _, _, _, _, _, rest⟩ := accepted
  split at rest
  · cases rest
  · simp only [bind_eq_ok, field_eq_ok] at rest
    obtain ⟨_, _, _, _, revision, _, _, _, _, _, _, _, _, mutationOk, _, metadataOk, _, payloadOk, _, lifecycle, h⟩ :=
      rest
    obtain rfl := Except.ok.inj h
    refine ⟨validatePayload_valid payloadOk, lifecycle, revision.bounded, revision.safe, fun o given => ?_,
      fun imported => ?_⟩
    · obtain rfl := Option.mem_def.mp given
      rcases optionalField_eq_ok.mp metadataOk with ⟨h, _⟩ | ⟨_, _, _, parsed, h⟩
      · cases h
      · obtain rfl := Option.some.inj h
        exact validateMetadata_wellFormed parsed
    · obtain ⟨mutationId, _, rest⟩ := bind_eq_ok.mp mutationOk
      split at rest
      · cases rest
      · rename_i allowed
        obtain rfl := Except.ok.inj rest
        cases mutationId with
        | none => rfl
        | some id => exact (allowed ⟨rfl, imported⟩).elim

end

end Handrail.Conversation

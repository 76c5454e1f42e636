import Handrail.Conversation.Rewriting
import Handrail.Conversation.SoundStates

/-!
# States restored from JSON

A checkpoint comes back as a JSON value that is equal to the one written, with the fields of its
objects in any order. The tail of the log is folded into the state that this value describes.
-/

namespace Handrail.Conversation
open Js

/-! ### Sound states as JSON -/

theorem ApprovalProposalRecord.intact_iff {p : ApprovalProposalRecord} :
    ApprovalProposalRecord.codec.Intact p ↔ ReviewedArguments.codec.Intact p.reviewedArguments := by
  have names (a : Option Identifier) := Codec.Leafless.intact (c := identifierCodec.nullable identifier_ne_null) a
  have times (a : Option Timestamp) := Codec.Leafless.intact (c := timestampCodec.nullable timestamp_ne_null) a
  have actor (a : Attribution) := Codec.Leafless.intact (c := Attribution.codec) a
  have actors (a : Option Attribution) := Codec.Leafless.intact (c := Attribution.codec.nullable Attribution.encode_ne_null) a
  have texts (a : Option JsString) := Codec.Leafless.intact (c := Codec.string.nullable Codec.string_ne_null) a
  constructor
  · rintro ⟨_, _, _, _, _, reviewed, _⟩
    exact reviewed
  · intro reviewed
    exact ⟨trivial, names _, trivial, trivial, trivial, reviewed, trivial, trivial, trivial, trivial, trivial,
      actor _, actor _, times _, actors _, texts _, texts _, trivial⟩

section
variable [WebPlatform] {s : ConversationState}

theorem ConversationState.Sound.intact (sound : s.Sound) : ConversationState.codec.Intact s := by
  have names (a : Option Identifier) := Codec.Leafless.intact (c := identifierCodec.nullable identifier_ne_null) a
  have ids (a : List Identifier) := Codec.Leafless.intact (c := identifierCodec.list) a
  have messages := Codec.Leafless.intact (c := MessageRecord.codec.list) s.messages
  have attachments := Codec.Leafless.intact (c := AttachmentRecord.codec.list) s.attachments
  have turns := Codec.Leafless.intact (c := TurnRecord.codec.list) s.turns
  have budgets := Codec.Leafless.intact (c := ToolLoopBudgetExhaustion.codec.list) s.toolLoopBudgetExhaustions
  have links := Codec.Leafless.intact (c := UsageReceiptLink.codec.list) s.usageReceiptLinks
  have revision := Codec.Leafless.intact (c := Codec.natural.nullable Codec.natural_ne_null) s.revision
  have title := Codec.Leafless.intact (c := Codec.string.nullable Codec.string_ne_null) s.title
  have error := Codec.Leafless.intact (c := ReplayError.codec.nullable ReplayError.encode_ne_null) s.replayError
  have sources : (CitationSource.codec.retained CitationSource.plain).list.Intact s.citationSources := by
    intro x member
    have written : x.json.wellFormed = true := by
      rw [sound.citations.sourcesWritten x member]
      exact CitationSource.codec.encode_wellFormed (Codec.Leafless.intact x.record)
    exact written
  have citations : (Citation.codec.retained Citation.plain).list.Intact s.citations := by
    intro x member
    have written : x.json.wellFormed = true := by
      rw [sound.citations.citationsWritten x member]
      exact Citation.codec.encode_wellFormed (citation_intact x.record)
    exact written
  have toolCalls : ToolCallRecord.codec.list.Intact s.toolCalls := fun t member =>
    ToolCallRecord.intact_iff.mpr ⟨(sound.toolCalls t member).arguments, (sound.toolCalls t member).content⟩
  have proposals : ApprovalProposalRecord.codec.list.Intact s.approvalProposals := fun p member =>
    ApprovalProposalRecord.intact_iff.mpr (sound.approvals.each p member).reviewed.intact
  exact ⟨names _, revision, names _, ids _, ids _, messages, attachments, sources, citations, turns, names _,
    toolCalls, proposals, budgets, links, sound.metadata, title, error, trivial⟩

theorem ConversationState.Sound.wellFormed (sound : s.Sound) : s.toJson.wellFormed = true :=
  ConversationState.codec.encode_wellFormed sound.intact

/-- Two sound states that differ in the field order of their JSON parts are written as equal values. -/
theorem toJson_equal {t : ConversationState} (sound : s.Sound) (same : s.map .sorted = t.map .sorted) :
    jsonValuesEqual s.toJson t.toJson = true ∧ jsonValuesEqual t.toJson s.toJson = true := by
  have canonical : s.toJson.canonical = t.toJson.canonical := ConversationState.codec.encode_congr same
  have wellFormed : t.toJson.wellFormed = true := by
    rw [← Json.wellFormed_congr canonical]
    exact sound.wellFormed
  exact ⟨(jsonValuesEqual_iff sound.wellFormed wellFormed).mpr canonical,
    (jsonValuesEqual_iff wellFormed sound.wellFormed).mpr canonical.symm⟩

/-! ### The state that a JSON value describes -/

theorem ofJson_of_equal (sound : s.Sound) {stored : Json} (wellFormed : stored.wellFormed = true)
    (same : jsonValuesEqual stored s.toJson = true) :
    ∃ restored, ConversationState.ofJson stored = some restored ∧ restored.map .sorted = s.map .sorted :=
  ConversationState.codec.decode_reordered ((jsonValuesEqual_iff wellFormed sound.wellFormed).mp same)

/-! ### The tail -/

/-- In the fold of the log from `s`, every textual comparison of a citation link with retained
records has the outcome of comparing what they contain, written in one field order. -/
def LinksCompareContents : ConversationState → List ConversationEvent → Prop
  | _, [] => True
  | s, event :: rest =>
    MergeAgrees .sorted s event.payload ∧ LinksCompareContents (reduceConversationEvent s event) rest

theorem distinctRecords_of_valid {payload : ConversationEventPayload} (valid : payload.Valid) :
    payload.DistinctRecords := by
  cases payload with
  | citationRecordsLinked target records => exact ⟨valid.1.sourceIds, valid.1.citationIds⟩
  | _ => trivial

theorem ConversationState.Sound.mergeAgrees (sound : s.Sound) (payload : ConversationEventPayload) :
    MergeAgrees .sorted s payload := by
  cases payload with
  | citationRecordsLinked target records =>
    exact ⟨textAgrees_of_written CitationSource.plain sound.citations.sourcesWritten,
      textAgrees_of_written Citation.plain sound.citations.citationsWritten⟩
  | _ => trivial

theorem reduce_reordered {restored : ConversationState} (sound : s.Sound)
    (same : restored.map .sorted = s.map .sorted) {event : ConversationEvent} (valid : event.Valid)
    (agrees : MergeAgrees .sorted restored event.payload) :
    (reduceConversationEvent restored event).map .sorted = (reduceConversationEvent s event).map .sorted := by
  have distinct := distinctRecords_of_valid valid.payload
  calc (reduceConversationEvent restored event).map .sorted
      = reduceConversationEvent (restored.map .sorted) (event.map .sorted) :=
        reduceConversationEvent_map distinct agrees
    _ = reduceConversationEvent (s.map .sorted) (event.map .sorted) := by rw [same]
    _ = (reduceConversationEvent s event).map .sorted :=
        (reduceConversationEvent_map distinct (sound.mergeAgrees event.payload)).symm

theorem fold_reordered {restored : ConversationState} (sound : s.Sound)
    (same : restored.map .sorted = s.map .sorted) {tail : List ConversationEvent}
    (valid : ∀ event ∈ tail, event.Valid) (compares : LinksCompareContents restored tail) :
    (foldEvents restored tail).map .sorted = (foldEvents s tail).map .sorted := by
  induction tail generalizing s restored with
  | nil => exact same
  | cons event rest ih =>
    rw [List.forall_mem_cons] at valid
    have next := reduce_reordered sound same valid.1 compares.1
    exact ih (reduceConversationEvent_sound sound valid.1) next valid.2 compares.2

def Accepted (event : ConversationEvent) : Prop := ∃ value, parseConversationEvent value = .ok event

theorem valid_of_accepted {log : List ConversationEvent} (accepted : ∀ event ∈ log, Accepted event) :
    ∀ event ∈ log, event.Valid := by
  intro event member
  obtain ⟨value, parsed⟩ := accepted event member
  exact parseConversationEvent_valid parsed

/-- A checkpoint and the tail of the log give the state of the whole log, as long as the citation
links of the tail compare contents. -/
theorem checkpoint_plus_tail {conversationId : Identifier} {log : List ConversationEvent}
    (accepted : ∀ event ∈ log, Accepted event) (k : Nat) {stored : Json} (wellFormed : stored.wellFormed = true)
    (same : jsonValuesEqual stored
      (foldEvents (createInitialConversationState (some conversationId)) (log.take k)).toJson = true) :
    ∃ restored, ConversationState.ofJson stored = some restored ∧
      (LinksCompareContents restored (log.drop k) →
        jsonValuesEqual (foldEvents restored (log.drop k)).toJson
          (foldEvents (createInitialConversationState (some conversationId)) log).toJson = true) := by
  have valid := valid_of_accepted accepted
  have head : ∀ event ∈ log.take k, event.Valid := fun event member => valid event (List.mem_of_mem_take member)
  have sound := foldEvents_sound (initial_sound (some conversationId)) head
  obtain ⟨restored, read, reordered⟩ := ofJson_of_equal sound wellFormed same
  refine ⟨restored, read, fun compares => ?_⟩
  have whole : foldEvents (createInitialConversationState (some conversationId)) log =
      foldEvents (foldEvents (createInitialConversationState (some conversationId)) (log.take k)) (log.drop k) := by
    rw [← foldEvents_append, List.take_append_drop]
  have tail : ∀ event ∈ log.drop k, event.Valid := fun event member => valid event (List.mem_of_mem_drop member)
  have folded := fold_reordered sound reordered tail compares
  rw [whole]
  exact (toJson_equal (foldEvents_sound sound tail) folded.symm).2

instance {α : Type} {c : Codec α} {plain : c.Plain} {identity : α → JsString} {r : Rewriting}
    {retained : List (Retained c)} {records : List α} : Decidable (TextAgrees c plain identity r retained records) :=
  inferInstanceAs (Decidable (∀ x ∈ retained, ∀ a ∈ records, _ → (_ ↔ _)))

instance (r : Rewriting) (s : ConversationState) (payload : ConversationEventPayload) : Decidable (MergeAgrees r s payload) := by
  cases payload <;> first | exact .isTrue trivial | exact inferInstanceAs (Decidable (_ ∧ _))

instance LinksCompareContents.decidable : (s : ConversationState) → (tail : List ConversationEvent) →
    Decidable (LinksCompareContents s tail)
  | _, [] => .isTrue trivial
  | s, event :: rest =>
    have := LinksCompareContents.decidable (reduceConversationEvent s event) rest
    inferInstanceAs (Decidable (_ ∧ _))

/-! ### Sample logs -/

theorem accepted_of_check (values : List Json) (check : List ConversationEvent → Bool)
    (checked : (values.mapM parseConversationEvent).toOption.any check = true) :
    ∃ log, (∀ event ∈ log, Accepted event) ∧ check log = true := by
  obtain ⟨log, parsed, holds⟩ := (Option.any_eq_true ..).mp checked
  refine ⟨log, fun event member => ?_, holds⟩
  have each : everyItem (fun value => parseConversationEvent (value.getD .null)) values = .ok log := by
    cases h : values.mapM parseConversationEvent with
    | error => simp [h, Except.toOption] at parsed
    | ok events =>
      simp only [h, Except.toOption, Option.some.injEq] at parsed
      exact h.trans (congrArg Except.ok parsed)
  obtain ⟨value, parsed⟩ := everyItem_mem each member
  exact ⟨_, parsed⟩

end

instance (conversationId : Identifier) (log : List ConversationEvent) : Decidable (Contiguous conversationId log) :=
  decidable_of_iff ((∀ event ∈ log, event.conversationId = conversationId) ∧
      log.map ConversationEvent.revision = List.range' 1 log.length ∧
      (log.map ConversationEvent.eventId).Nodup ∧ (log.filterMap ConversationEvent.mutationId).Nodup)
    ⟨fun ⟨a, b, c, d⟩ => ⟨a, b, c, d⟩, fun ⟨a, b, c, d⟩ => ⟨a, b, c, d⟩⟩

@[reducible] def withoutUrls : WebPlatform := ⟨fun _ => none, fun _ => []⟩

theorem sampleText_nonempty : false = true ∨ 0 < (js "conversation").length := by decide

theorem sampleText_bounded : (js "conversation").length ≤ 256 := by decide

def sampleConversationId : Identifier := ⟨js "conversation", sampleText_nonempty, sampleText_bounded⟩

def sampleEvent (revision : Nat) (payload : List (String × Json)) : Json :=
  Json.object [("version", .num (.ofNat 1)),
    ("event_id", .str (js "event-" ++ decimal revision)), ("conversation_id", .str (js "conversation")),
    ("revision", .num (.ofNat revision)), ("occurred_at", .str (js "2024-01-01T00:00:00Z")),
    ("actor", Json.object [("type", .str (js "system"))]),
    ("source", Json.object [("type", .str (js "runtime"))]),
    ("payload", Json.object payload)]

def sampleTitle (revision : Nat) : Json :=
  sampleEvent revision [("type", .str (js "conversation.title_updated")), ("title", .null)]

def sampleLinkOf (revision : Nat) (sourceId citationId : String) : Json :=
  let target := Json.object [("type", .str (js "assistant_message")), ("message_id", .str (js "message"))]
  sampleEvent revision [("type", .str (js "citation.records_linked")),
    ("citation_records_version", .num (.ofNat 1)), ("target", target),
    ("sources", .arr [Json.object [("source_id", .str (js sourceId)), ("type", .str (js "document")),
      ("label", .str (js "Handbook"))]]),
    ("citations", .arr [Json.object [("citation_id", .str (js citationId)), ("source_id", .str (js sourceId)),
      ("order", .num (.ofNat 0)), ("target", target)]])]

def sampleLink (revision : Nat) : String → Json := sampleLinkOf revision "source"

/-- The sorted checkpoint of a linked citation, with a tail that links another source. -/
theorem checkpoint_plus_tail_link : ∃ _ : WebPlatform, ∃ log restored,
    (foldEvents (createInitialConversationState (some sampleConversationId)) log).citations.length = 2 ∧
    ConversationState.ofJson (foldEvents (createInitialConversationState (some sampleConversationId))
      (log.take 1)).toJson.canonical = some restored ∧
    jsonValuesEqual (foldEvents restored (log.drop 1)).toJson
      (foldEvents (createInitialConversationState (some sampleConversationId)) log).toJson = true := by
  let _ := withoutUrls
  obtain ⟨log, accepted, checked⟩ := accepted_of_check [sampleLinkOf 1 "source" "first", sampleLinkOf 2 "other" "second"]
    (fun log =>
      let stored := (foldEvents (createInitialConversationState (some sampleConversationId)) (log.take 1)).toJson
      (foldEvents (createInitialConversationState (some sampleConversationId)) log).citations.length == 2 &&
      stored.canonical.wellFormed && jsonValuesEqual stored.canonical stored &&
        (ConversationState.ofJson stored.canonical).all fun restored =>
          decide (LinksCompareContents restored (log.drop 1))) (by decide +kernel)
  simp only [Bool.and_eq_true, beq_iff_eq] at checked
  obtain ⟨⟨⟨linked, wellFormed⟩, same⟩, compared⟩ := checked
  obtain ⟨restored, read, compares⟩ := checkpoint_plus_tail accepted 1 wellFormed same
  rw [read] at compared
  exact ⟨withoutUrls, log, restored, linked, read, compares (of_decide_eq_true compared)⟩

/-- A checkpoint whose fields came back sorted: the second link of the same source conflicts with the
retained one, and its citation is lost. -/
theorem sorted_checkpoint_diverges : ∃ _ : WebPlatform, ∃ log written stored restored,
    (∀ event ∈ log, Accepted event) ∧ Contiguous sampleConversationId log ∧
    (foldEvents (createInitialConversationState (some sampleConversationId)) (log.take 1)).toJson = written ∧
    stored.wellFormed = true ∧ jsonValuesEqual stored written = true ∧
    ConversationState.ofJson stored = some restored ∧
    jsonValuesEqual (foldEvents restored (log.drop 1)).toJson
      (foldEvents (createInitialConversationState (some sampleConversationId)) log).toJson = false := by
  let _ := withoutUrls
  obtain ⟨log, accepted, checked⟩ := accepted_of_check [sampleLink 1 "first", sampleLink 2 "second"]
    (fun log =>
      let stored := (foldEvents (createInitialConversationState (some sampleConversationId)) (log.take 1)).toJson
      decide (Contiguous sampleConversationId log) && stored.canonical.wellFormed &&
        jsonValuesEqual stored.canonical stored &&
        (ConversationState.ofJson stored.canonical).any fun restored =>
          !jsonValuesEqual (foldEvents restored (log.drop 1)).toJson
            (foldEvents (createInitialConversationState (some sampleConversationId)) log).toJson) (by decide +kernel)
  simp only [Bool.and_eq_true, decide_eq_true_eq, Option.any_eq_true, Bool.not_eq_true'] at checked
  obtain ⟨⟨⟨contiguous, wellFormed⟩, same⟩, restored, read, differs⟩ := checked
  exact ⟨withoutUrls, log, _, _, restored, accepted, contiguous, rfl, wellFormed, same, read, differs⟩

end Handrail.Conversation

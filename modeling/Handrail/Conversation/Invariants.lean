import Handrail.Conversation.ValidEvents

/-!
# Invariants of folded states

What holds between the records of every state that accepted events lead to, one group of records at
a time. Each group comes with the ways in which the reducer changes its records.
-/

namespace Handrail.Conversation
open Js

/-! ### Attachments -/

def MessageRecord.holder (m : MessageRecord) : Identifier × List AttachmentReference :=
  (m.messageId, m.attachments)

def AttachmentRecord.key (r : AttachmentRecord) : Identifier × JsString := (r.messageId, r.attachmentId)

structure AttachmentsAgree (holders : List (Identifier × List AttachmentReference))
    (attachments : List AttachmentRecord) : Prop where
  messageIds : (holders.map Prod.fst).Nodup
  attachmentIds : ∀ h ∈ holders, (h.2.map AttachmentReference.attachmentId).Nodup
  keys : (attachments.map AttachmentRecord.key).Nodup
  identified : ∀ r ∈ attachments, r.attachmentId = r.reference.attachmentId
  valid : ∀ r ∈ attachments,
    validateAttachmentReference (some (AttachmentReference.codec.encode r.reference)) = .ok r.reference
  recorded : ∀ h ∈ holders, ∀ a ∈ h.2, ∃ r ∈ attachments, r.messageId = h.1 ∧ r.reference = a
  attached : ∀ r ∈ attachments, ∃ h ∈ holders, h.1 = r.messageId ∧ r.reference ∈ h.2

namespace AttachmentsAgree
variable {holders : List (Identifier × List AttachmentReference)} {attachments : List AttachmentRecord}

variable {messageId : Identifier}

theorem add_message (agree : AttachmentsAgree holders attachments)
    (fresh : messageId ∉ holders.map Prod.fst) : AttachmentsAgree (holders ++ [(messageId, [])]) attachments where
  messageIds := by
    rw [List.map_append, List.nodup_append]
    refine ⟨agree.messageIds, by simp, ?_⟩
    rintro id member _ last rfl
    obtain rfl : id = messageId := by simpa using last
    exact fresh member
  attachmentIds h member := by
    rcases List.mem_append.mp member with old | new
    · exact agree.attachmentIds h old
    · obtain rfl := List.mem_singleton.mp new
      exact List.nodup_nil
  keys := agree.keys
  identified := agree.identified
  valid := agree.valid
  recorded h member a inside := by
    rcases List.mem_append.mp member with old | new
    · exact agree.recorded h old a inside
    · obtain rfl := List.mem_singleton.mp new
      cases inside
  attached r member := by
    obtain ⟨h, inside, same⟩ := agree.attached r member
    exact ⟨h, List.mem_append_left _ inside, same⟩

/-- A recorded attachment is one of its message's attachments, and the other way round. -/
theorem known_iff (agree : AttachmentsAgree holders attachments) {h : Identifier × List AttachmentReference}
    (member : h ∈ holders) (attachmentId : JsString) :
    (h.1, attachmentId) ∈ attachments.map AttachmentRecord.key ↔
      attachmentId ∈ h.2.map AttachmentReference.attachmentId := by
  constructor
  · intro known
    obtain ⟨r, inside, same⟩ := List.mem_map.mp known
    obtain ⟨other, otherMember, here, attached⟩ := agree.attached r inside
    have messageIds : r.messageId = h.1 := congrArg Prod.fst same
    obtain rfl := List.inj_on_of_nodup_map agree.messageIds otherMember member (here.trans messageIds)
    have attachmentIds : r.attachmentId = attachmentId := congrArg Prod.snd same
    rw [← attachmentIds, agree.identified r inside]
    exact List.mem_map_of_mem attached
  · intro known
    obtain ⟨a, inside, rfl⟩ := List.mem_map.mp known
    obtain ⟨r, recorded, here, rfl⟩ := agree.recorded h member a inside
    refine List.mem_map.mpr ⟨r, recorded, ?_⟩
    rw [AttachmentRecord.key, here, agree.identified r recorded]

def attach (messageId : Identifier) (reference : AttachmentReference) (h : Identifier × List AttachmentReference) :
    Identifier × List AttachmentReference :=
  if h.1 = messageId then (h.1, h.2 ++ [reference]) else h

theorem attach_fst (messageId : Identifier) (reference : AttachmentReference)
    (h : Identifier × List AttachmentReference) : (attach messageId reference h).1 = h.1 := by
  unfold attach
  split <;> rfl

theorem mem_attach {reference a : AttachmentReference}
    {h : Identifier × List AttachmentReference} :
    a ∈ (attach messageId reference h).2 ↔ a ∈ h.2 ∨ h.1 = messageId ∧ a = reference := by
  unfold attach
  split
  · rename_i same
    simp [same]
  · rename_i different
    simp [different]

theorem add_reference (agree : AttachmentsAgree holders attachments) {r : AttachmentRecord}
    (known : r.messageId ∈ holders.map Prod.fst) (fresh : r.key ∉ attachments.map AttachmentRecord.key)
    (identified : r.attachmentId = r.reference.attachmentId)
    (valid : validateAttachmentReference (some (AttachmentReference.codec.encode r.reference)) = .ok r.reference) :
    AttachmentsAgree (holders.map (attach r.messageId r.reference)) (attachments ++ [r]) where
  messageIds := by
    have same : (holders.map (attach r.messageId r.reference)).map Prod.fst = holders.map Prod.fst := by
      rw [List.map_map]
      exact List.map_congr_left fun h _ => attach_fst _ _ h
    rw [same]
    exact agree.messageIds
  attachmentIds h member := by
    obtain ⟨before, inside, rfl⟩ := List.mem_map.mp member
    unfold attach
    split
    · rename_i same
      rw [List.map_append, List.map_singleton, List.nodup_append]
      refine ⟨agree.attachmentIds before inside, by simp, ?_⟩
      rintro id attached _ last rfl
      obtain rfl : id = r.reference.attachmentId := by simpa using last
      have recorded := (agree.known_iff inside r.reference.attachmentId).mpr attached
      rw [same, ← identified] at recorded
      exact fresh recorded
    · exact agree.attachmentIds before inside
  keys := by
    rw [List.map_append, List.map_singleton, List.nodup_append]
    refine ⟨agree.keys, by simp, ?_⟩
    rintro key member _ last rfl
    rw [List.mem_singleton.mp last] at member
    exact fresh member
  identified other member := by
    rcases List.mem_append.mp member with old | new
    · exact agree.identified other old
    · rw [List.mem_singleton.mp new, identified]
  valid other member := by
    rcases List.mem_append.mp member with old | new
    · exact agree.valid other old
    · rwa [List.mem_singleton.mp new]
  recorded h member a inside := by
    obtain ⟨before, old, rfl⟩ := List.mem_map.mp member
    rw [attach_fst]
    rcases mem_attach.mp inside with attached | ⟨here, rfl⟩
    · obtain ⟨other, recorded, same⟩ := agree.recorded before old a attached
      exact ⟨other, List.mem_append_left _ recorded, same⟩
    · exact ⟨r, List.mem_append_right _ (List.mem_singleton.mpr rfl), here.symm, rfl⟩
  attached other member := by
    rcases List.mem_append.mp member with old | new
    · obtain ⟨h, inside, here, attached⟩ := agree.attached other old
      exact ⟨_, List.mem_map_of_mem inside, by rw [attach_fst, here], mem_attach.mpr (.inl attached)⟩
    · obtain rfl := List.mem_singleton.mp new
      obtain ⟨h, inside, here⟩ := List.mem_map.mp known
      exact ⟨_, List.mem_map_of_mem inside, by rw [attach_fst, here], mem_attach.mpr (.inr ⟨here, rfl⟩)⟩

end AttachmentsAgree

theorem linkAttachment_known {attachments : List AttachmentRecord} {r : AttachmentRecord}
    (known : r.key ∈ attachments.map AttachmentRecord.key) : linkAttachment attachments r = attachments := by
  obtain ⟨linked, member, same⟩ := List.mem_map.mp known
  have messageIds : linked.messageId = r.messageId := congrArg Prod.fst same
  have attachmentIds : linked.attachmentId = r.attachmentId := congrArg Prod.snd same
  unfold linkAttachment
  rw [if_pos]
  exact List.any_eq_true.mpr ⟨linked, member, by simp [messageIds, attachmentIds]⟩

theorem linkAttachment_fresh {attachments : List AttachmentRecord} {r : AttachmentRecord}
    (fresh : r.key ∉ attachments.map AttachmentRecord.key) : linkAttachment attachments r = attachments ++ [r] := by
  unfold linkAttachment
  rw [if_neg]
  intro known
  obtain ⟨linked, member, same⟩ := List.any_eq_true.mp known
  simp only [Bool.and_eq_true, beq_iff_eq] at same
  exact fresh (List.mem_map.mpr ⟨linked, member, Prod.ext same.1 same.2⟩)

variable {messages : List MessageRecord}

theorem holders_attach {message : MessageRecord}
    (distinct : ((messages.map MessageRecord.holder).map Prod.fst).Nodup)
    (found : messages.find? (fun m => m.messageId.text == message.messageId.text) = some message)
    (reference : AttachmentReference) :
    (replaceFirst (fun m => m.messageId.text == message.messageId.text)
      { message with attachments := message.attachments ++ [reference] } messages).map MessageRecord.holder =
      (messages.map MessageRecord.holder).map (AttachmentsAgree.attach message.messageId reference) := by
  have texts : (messages.map fun m => m.messageId.text).Nodup := by
    rw [List.map_map] at distinct
    have injective : Function.Injective fun id : Identifier => id.text := fun _ _ => BoundedText.ext
    simpa [List.map_map, Function.comp_def, MessageRecord.holder] using distinct.map injective
  rw [replaceFirst_eq_map texts, List.map_map, List.map_map]
  refine List.map_congr_left fun m member => ?_
  simp only [Function.comp_def]
  split
  · rename_i same
    obtain rfl : m = message := eq_of_find? texts found member same
    simp [MessageRecord.holder, AttachmentsAgree.attach]
  · rename_i different
    have other : ¬m.messageId = message.messageId := fun same => different (congrArg BoundedText.text same)
    simp [MessageRecord.holder, AttachmentsAgree.attach, other]

/-! ### Turns -/

structure TurnsSound (turns : List TurnRecord) (active : Option Identifier) : Prop where
  turnIds : (turns.map TurnRecord.turnId).Nodup
  active : ∀ t ∈ active, ∃ turn ∈ turns, turn.turnId = t ∧ turn.isTerminal = false

namespace TurnsSound
variable {turns : List TurnRecord} {active : Option Identifier}

theorem append (sound : TurnsSound turns active) {turn : TurnRecord} {now : Option Identifier}
    (fresh : turns.find? (fun t => t.turnId == turn.turnId) = none)
    (still : now = active ∨ now = some turn.turnId ∧ turn.isTerminal = false) :
    TurnsSound (turns ++ [turn]) now where
  turnIds := by
    rw [List.map_append, List.map_singleton, List.nodup_append]
    refine ⟨sound.turnIds, by simp, ?_⟩
    rintro id member _ last rfl
    rw [List.mem_singleton.mp last] at member
    obtain ⟨other, inside, same⟩ := List.mem_map.mp member
    have different := List.find?_eq_none.mp fresh other inside
    exact different (beq_iff_eq.mpr same)
  active t given := by
    rcases still with rfl | ⟨rfl, running⟩
    · obtain ⟨other, inside, same⟩ := sound.active t given
      exact ⟨other, List.mem_append_left _ inside, same⟩
    · exact ⟨turn, List.mem_append_right _ (List.mem_singleton.mpr rfl), Option.mem_some.mp given, running⟩

theorem replace (sound : TurnsSound turns active) {current turn : TurnRecord} {now : Option Identifier}
    (found : turns.find? (fun t => t.turnId == turn.turnId) = some current)
    (still : ∀ t ∈ now, t = turn.turnId ∧ turn.isTerminal = false ∨ t ≠ turn.turnId ∧ t ∈ active) :
    TurnsSound (replaceFirst (fun t => t.turnId == turn.turnId) turn turns) now where
  turnIds := by
    have same : current.turnId = turn.turnId := by simpa using List.find?_some found
    rw [map_replaceFirst found same.symm]
    exact sound.turnIds
  active t given := by
    rcases still t given with ⟨rfl, running⟩ | ⟨other, active⟩
    · exact ⟨turn, mem_replaceFirst_self found, rfl, running⟩
    · obtain ⟨kept, inside, rfl, running⟩ := sound.active t active
      have same : current.turnId = turn.turnId := by simpa using List.find?_some found
      refine ⟨kept, mem_replaceFirst_of_mem found inside ?_, rfl, running⟩
      rintro rfl
      exact other same

end TurnsSound

/-! ### Tool calls -/

theorem ToolResultRecord.intact_iff {r : ToolResultRecord} :
    ToolResultRecord.codec.Intact r ↔ ToolResultPart.codec.list.Intact r.content := by
  refine ⟨fun intact => intact.1, fun content => ?_⟩
  exact ⟨content, trivial, fun records _ => citationRecordSet_intact records, trivial,
    Codec.Leafless.intact (c := Attribution.codec) r.attribution, trivial⟩

theorem ToolCallRecord.intact_iff {t : ToolCallRecord} : ToolCallRecord.codec.Intact t ↔
    (∀ a ∈ t.arguments, Codec.jsonObject.Intact a) ∧
      ∀ r ∈ t.result, ToolResultPart.codec.list.Intact r.content := by
  have names (a : Option Identifier) := Codec.Leafless.intact (c := identifierCodec.nullable identifier_ne_null) a
  have times (a : Option Timestamp) := Codec.Leafless.intact (c := timestampCodec.nullable timestamp_ne_null) a
  have actors (a : Option Attribution) := Codec.Leafless.intact (c := Attribution.codec.nullable Attribution.encode_ne_null) a
  constructor
  · rintro ⟨_, _, _, arguments, _, _, _, _, _, result, _⟩
    exact ⟨arguments, fun r given => ToolResultRecord.intact_iff.mp (result r given)⟩
  · rintro ⟨arguments, result⟩
    exact ⟨trivial, trivial, names _, arguments, times _, times _, times _, times _, actors _,
      fun r given => ToolResultRecord.intact_iff.mpr (result r given), trivial⟩

section
variable [WebPlatform]

structure ToolCallRecord.Sound (t : ToolCallRecord) : Prop where
  arguments : ∀ a ∈ t.arguments, Codec.jsonObject.Intact a
  content : ∀ r ∈ t.result, ToolResultPart.codec.list.Intact r.content
  records : ∀ r ∈ t.result, ∀ records ∈ r.citationRecords, ResultRecords t.toolCallId records

end

structure ToolCallRecord.Continues (before after : ToolCallRecord) : Prop where
  toolCallId : after.toolCallId = before.toolCallId
  turnId : after.turnId = before.turnId
  name : ∀ name ∈ before.name, after.name = some name
  approvalRequiredAt : before.approvalRequiredAt.isSome = true → after.approvalRequiredAt.isSome = true

theorem ToolCallRecord.Continues.refl (t : ToolCallRecord) : t.Continues t := ⟨rfl, rfl, fun _ given => given, id⟩

def Extends (before after : List ToolCallRecord) : Prop := ∀ t ∈ before, ∃ later ∈ after, t.Continues later

theorem extends_append (toolCalls added : List ToolCallRecord) : Extends toolCalls (toolCalls ++ added) :=
  fun t member => ⟨t, List.mem_append_left _ member, .refl t⟩

theorem extends_replace {toolCalls : List ToolCallRecord} {p : ToolCallRecord → Bool}
    {current value : ToolCallRecord} (found : toolCalls.find? p = some current)
    (continues : current.Continues value) : Extends toolCalls (replaceFirst p value toolCalls) := by
  intro t member
  by_cases same : t = current
  · exact ⟨value, mem_replaceFirst_self found, same ▸ continues⟩
  · exact ⟨t, mem_replaceFirst_of_mem found member same, .refl t⟩

/-! ### Citations -/

def Cited (messages : List MessageRecord) (toolCalls : List ToolCallRecord) : CitationAttachmentTarget → Prop
  | .assistantMessage messageId =>
    ∃ m ∈ messages, m.messageId.text = messageId ∧ (m.role = none ∨ m.role = some .assistant)
  | .toolResult toolCallId => ∃ t ∈ toolCalls, t.toolCallId.text = toolCallId

theorem Cited.extend {before after : List ToolCallRecord}
    {target : CitationAttachmentTarget} (cited : Cited messages before target)
    (extended : Extends before after) : Cited messages after target := by
  cases target with
  | assistantMessage messageId => exact cited
  | toolResult toolCallId =>
    obtain ⟨t, member, rfl⟩ := cited
    obtain ⟨later, inside, continues⟩ := extended t member
    exact ⟨later, inside, by rw [continues.toolCallId]⟩

theorem identifier_of_find {current : MessageRecord}
    (found : messages.find? (fun m => m.messageId.text == messageId.text) = some current) :
    current.messageId = messageId :=
  BoundedText.ext (by simpa using List.find?_some found)

theorem fresh_of_find
    (none : messages.find? (fun m => m.messageId.text == messageId.text) = none) :
    messageId ∉ (messages.map MessageRecord.holder).map Prod.fst := by
  rw [List.map_map]
  intro member
  obtain ⟨m, inside, rfl⟩ := List.mem_map.mp member
  exact List.find?_eq_none.mp none m inside (beq_self_eq_true _)

theorem cited_replace {toolCalls : List ToolCallRecord}
    {current message : MessageRecord} {target : CitationAttachmentTarget}
    (found : messages.find? (fun m => m.messageId.text == messageId.text) = some current)
    (same : message.messageId = messageId) (cited : Cited messages toolCalls target)
    (still : target = .assistantMessage messageId.text → (current.role = none ∨ current.role = some .assistant) →
      message.role = none ∨ message.role = some .assistant) :
    Cited (replaceFirst (fun m => m.messageId.text == messageId.text) message messages) toolCalls target := by
  cases target with
  | toolResult toolCallId => exact cited
  | assistantMessage cited_id =>
    obtain ⟨m, member, rfl, role⟩ := cited
    by_cases replaced : m = current
    · subst replaced
      have id := identifier_of_find found
      exact ⟨message, mem_replaceFirst_self found, by rw [same, id], still (by rw [id]) role⟩
    · exact ⟨m, mem_replaceFirst_of_mem found member replaced, rfl, role⟩

theorem Cited.append {messages added : List MessageRecord} {toolCalls : List ToolCallRecord}
    {target : CitationAttachmentTarget} (cited : Cited messages toolCalls target) :
    Cited (messages ++ added) toolCalls target := by
  cases target with
  | toolResult toolCallId => exact cited
  | assistantMessage messageId =>
    obtain ⟨m, member, same⟩ := cited
    exact ⟨m, List.mem_append_left _ member, same⟩

def retainedRecords (sources : List RetainedSource) (citations : List RetainedCitation) : CitationRecordSet where
  sources := sources.map Retained.record
  citations := citations.map Retained.record

section
variable [WebPlatform]

structure CitationsSound (messages : List MessageRecord) (toolCalls : List ToolCallRecord)
    (sources : List RetainedSource) (citations : List RetainedCitation) : Prop where
  sourcesWritten : ∀ x ∈ sources, x.json = CitationSource.codec.encode x.record
  citationsWritten : ∀ x ∈ citations, x.json = Citation.codec.encode x.record
  normal : (retainedRecords sources citations).Normal
  cited : ∀ x ∈ citations, Cited messages toolCalls x.record.target

end

section
variable {α : Type} {c : Codec α} {identity : α → JsString}

theorem mergeRecords_eq_some {retained out : List (Retained c)} {records : List α}
    (merges : mergeRecords c identity retained records = some out) :
    ∃ added : List α, out = retained ++ added.map (Retained.write c) ∧ added.Sublist records ∧
      ((retained.map fun x => identity x.record).Nodup → (out.map fun x => identity x.record).Nodup) ∧
      ∀ a ∈ records, ∃ x ∈ out, identity x.record = identity a := by
  induction records generalizing retained with
  | nil =>
    obtain rfl := Option.some.inj merges
    exact ⟨[], by simp, List.Sublist.slnil, id, by simp⟩
  | cons current rest ih =>
    unfold mergeRecords at merges
    split at merges
    · rename_i existing found
      split at merges
      · cases merges
      · obtain ⟨added, rfl, sub, distinct, known⟩ := ih merges
        refine ⟨added, rfl, sub.cons current, distinct, ?_⟩
        rw [List.forall_mem_cons]
        have same : identity existing.record = identity current := by simpa using List.find?_some found
        exact ⟨⟨existing, List.mem_append_left _ (List.mem_of_find?_eq_some found), same⟩, known⟩
    · rename_i fresh
      obtain ⟨added, rfl, sub, distinct, known⟩ := ih merges
      refine ⟨current :: added, by simp, sub.cons_cons current, fun before => distinct ?_, ?_⟩
      · rw [List.map_append, List.nodup_append]
        refine ⟨before, by simp, ?_⟩
        intro id member id' last same
        obtain ⟨existing, kept, rfl⟩ := List.mem_map.mp member
        have different := List.find?_eq_none.mp fresh existing kept
        rw [same, List.mem_singleton.mp last] at different
        exact different (beq_self_eq_true _)
      · rw [List.forall_mem_cons]
        exact ⟨⟨Retained.write c current, by simp, rfl⟩, known⟩

end

namespace CitationsSound
variable [WebPlatform] {messages later : List MessageRecord} {toolCalls after : List ToolCallRecord}
  {sources : List RetainedSource} {citations : List RetainedCitation}

theorem transfer (sound : CitationsSound messages toolCalls sources citations)
    (cited : ∀ x ∈ citations, Cited messages toolCalls x.record.target → Cited later after x.record.target) :
    CitationsSound later after sources citations :=
  ⟨sound.sourcesWritten, sound.citationsWritten, sound.normal, fun x member => cited x member (sound.cited x member)⟩

theorem extend (sound : CitationsSound messages toolCalls sources citations) (extended : Extends toolCalls after) :
    CitationsSound messages after sources citations :=
  sound.transfer fun _ _ cited => cited.extend extended

theorem filter (sound : CitationsSound messages toolCalls sources citations) (keep : RetainedCitation → Bool) :
    CitationsSound messages toolCalls sources (citations.filter keep) where
  sourcesWritten := sound.sourcesWritten
  citationsWritten x member := sound.citationsWritten x (List.mem_filter.mp member).1
  normal := by
    have sub : ((citations.filter keep).map Retained.record).Sublist (citations.map Retained.record) :=
      List.filter_sublist.map _
    exact {
      sources := sound.normal.sources
      citations := fun c member => sound.normal.citations c (sub.subset member)
      sourceIds := sound.normal.sourceIds
      citationIds := (sub.map Citation.citationId).nodup sound.normal.citationIds
      linked := fun c member => sound.normal.linked c (sub.subset member) }
  cited x member := sound.cited x (List.mem_filter.mp member).1

theorem merge (later : List MessageRecord) (after : List ToolCallRecord) {s merged : ConversationState}
    {records : CitationRecordSet}
    (sound : CitationsSound s.messages s.toolCalls s.citationSources s.citations) (normal : records.Normal)
    (merges : mergeCitationRecords s records = some merged)
    (cited : ∀ c ∈ records.citations, Cited later after c.target)
    (kept : ∀ x ∈ s.citations, Cited s.messages s.toolCalls x.record.target → Cited later after x.record.target) :
    CitationsSound later after merged.citationSources merged.citations := by
  simp only [mergeCitationRecords, Option.bind_eq_bind, Option.bind_eq_some_iff, Option.some.injEq] at merges
  obtain ⟨sources, mergedSources, citations, mergedCitations, rfl⟩ := merges
  obtain ⟨newSources, rfl, subSources, sourceIds, knownSources⟩ := mergeRecords_eq_some mergedSources
  obtain ⟨newCitations, rfl, subCitations, citationIds, _⟩ := mergeRecords_eq_some mergedCitations
  have written {α : Type} {c : Codec α} {old : List (Retained c)} {added : List α}
      (before : ∀ x ∈ old, x.json = c.encode x.record) :
      ∀ x ∈ old ++ added.map (Retained.write c), x.json = c.encode x.record := by
    intro x member
    rcases List.mem_append.mp member with kept | new
    · exact before x kept
    · obtain ⟨a, _, rfl⟩ := List.mem_map.mp new
      rfl
  refine ⟨written sound.sourcesWritten, written sound.citationsWritten, ?_, fun x member => ?_⟩
  · have records {α : Type} {c : Codec α} (old : List (Retained c)) (added : List α) :
        (old ++ added.map (Retained.write c)).map Retained.record = old.map Retained.record ++ added := by
      simp [Function.comp_def, Retained.write]
    have sourceIdsBefore := sound.normal.sourceIds
    have citationIdsBefore := sound.normal.citationIds
    simp only [retainedRecords, List.map_map, Function.comp_def] at sourceIdsBefore citationIdsBefore
    refine {
      sources := fun source member => ?_
      citations := fun citation member => ?_
      sourceIds := by
        simpa only [retainedRecords, List.map_map, Function.comp_def] using sourceIds sourceIdsBefore
      citationIds := by
        simpa only [retainedRecords, List.map_map, Function.comp_def] using citationIds citationIdsBefore
      linked := fun citation member => ?_ }
    · simp only [retainedRecords, records, List.mem_append] at member
      rcases member with old | new
      · exact sound.normal.sources source old
      · exact normal.sources source (subSources.subset new)
    · simp only [retainedRecords, records, List.mem_append] at member
      rcases member with old | new
      · exact sound.normal.citations citation old
      · exact normal.citations citation (subCitations.subset new)
    · simp only [retainedRecords, records, List.mem_append] at member ⊢
      rcases member with old | new
      · obtain ⟨source, inside, same⟩ := sound.normal.linked citation old
        exact ⟨source, .inl inside, same⟩
      · obtain ⟨source, inside, same⟩ := normal.linked citation (subCitations.subset new)
        obtain ⟨x, retained, same'⟩ := knownSources source inside
        have member := List.mem_map_of_mem (f := Retained.record) retained
        rw [records, List.mem_append] at member
        exact ⟨x.record, member, same'.trans same⟩
  · rcases List.mem_append.mp member with old | new
    · exact kept x old (sound.cited x old)
    · obtain ⟨c, inside, rfl⟩ := List.mem_map.mp new
      exact cited c (subCitations.subset inside)

end CitationsSound

/-! ### Approvals -/

structure ApprovalProposalRecord.Sound (p : ApprovalProposalRecord) : Prop where
  reviewed : p.reviewedArguments.Valid
  expires : p.createdAt.time < p.expiresAt.time
  creator : p.createdAttribution.actor.type = .system
  pending : p.status = .pending →
    p.proposalVersion.value = 1 ∧ p.decisionAt = none ∧ p.decisionAttribution = none ∧ p.decisionReason = none
  decided : p.status ≠ .pending → 2 ≤ p.proposalVersion.value ∧ p.decisionAt.isSome = true ∧
    ∃ a, p.decisionAttribution = some a ∧ (a.actor.type = .user ∨ a.actor.type = .system)
  decisionReason : ∀ r ∈ p.decisionReason, validateApprovalReason (some (.str r)) = .ok r
  failureReason : ∀ r ∈ p.failureReason, validateApprovalReason (some (.str r)) = .ok r
  failed : p.failureReason.isSome = true ↔ p.status = .failed

def ApprovalProposalRecord.Requested (toolCalls : List ToolCallRecord) (p : ApprovalProposalRecord) : Prop :=
  ∃ t ∈ toolCalls, t.toolCallId = p.toolCallId ∧ t.turnId = p.turnId ∧ t.name = some p.toolName ∧
    t.approvalRequiredAt.isSome = true

structure ApprovalsSound (toolCalls : List ToolCallRecord) (proposals : List ApprovalProposalRecord) : Prop where
  proposalIds : (proposals.map ApprovalProposalRecord.proposalId).Nodup
  each : ∀ p ∈ proposals, p.Sound
  requested : ∀ p ∈ proposals, p.Requested toolCalls

theorem ApprovalProposalRecord.Requested.extend {before after : List ToolCallRecord} {p : ApprovalProposalRecord}
    (requested : p.Requested before) (extended : Extends before after) : p.Requested after := by
  obtain ⟨t, member, toolCallId, turnId, name, required⟩ := requested
  obtain ⟨later, inside, continues⟩ := extended t member
  exact ⟨later, inside, continues.toolCallId.trans toolCallId, continues.turnId.trans turnId,
    continues.name _ name, continues.approvalRequiredAt required⟩

/-- A legal change, by an actor that the parser lets make it, keeps a proposal sound. -/
theorem changedProposal_sound {current : ApprovalProposalRecord} (sound : current.Sound) {occurredAt : Timestamp}
    {attribution : Attribution} {proposalId : Identifier} {proposalVersion : PositiveSafeInteger}
    {change : ApprovalChange} (next : proposalVersion.value = current.proposalVersion.value + 1)
    (legal : isLegalApprovalProposalTransition current.status change.status = true) (valid : change.Valid)
    (lifecycle : checkApprovalLifecycle attribution.actor occurredAt
      (.approvalProposalStatusChanged proposalId proposalVersion change) = .ok ()) :
    (changedProposal current occurredAt attribution proposalVersion change).Sound := by
  have positive := current.proposalVersion.bounded
  have later : 2 ≤ proposalVersion.value := by omega
  cases change with
  | decision status reason =>
    have actor : attribution.actor.type = .user ∨ attribution.actor.type = .system := by
      simp only [checkApprovalLifecycle] at lifecycle
      split at lifecycle
      · cases lifecycle
      · rename_i allowed
        exact Decidable.or_iff_not_not_and_not.mpr allowed
    -- Only a pending proposal can be decided, so no failure is on record.
    have pending : current.status = .pending := by
      cases status <;> cases h : current.status <;> simp [h, isLegalApprovalProposalTransition,
        approvalProposalTransitions, ApprovalChange.status, DecisionStatus.status] at legal ⊢
    have unfailed : current.failureReason = none := by
      have failed := sound.failed
      rw [pending] at failed
      simpa using failed
    exact {
      reviewed := sound.reviewed
      expires := sound.expires
      creator := sound.creator
      pending := fun still => by cases status <;> cases still
      decided := fun _ => ⟨later, rfl, attribution, rfl, actor⟩
      decisionReason := fun r given => by
        simp only [changedProposal, (sound.pending pending).2.2.2, Option.or_none] at given
        exact valid r given
      failureReason := fun r given => by
        simp only [changedProposal, unfailed] at given
        cases given
      failed := by
        simp only [changedProposal, unfailed, ApprovalChange.status]
        cases status <;> simp [DecisionStatus.status] }
  | executing =>
    have decided := sound.decided fun pending => by
      simp [pending, isLegalApprovalProposalTransition, approvalProposalTransitions, ApprovalChange.status] at legal
    exact {
      reviewed := sound.reviewed
      expires := sound.expires
      creator := sound.creator
      pending := by simp [changedProposal, ApprovalChange.status]
      decided := fun _ => ⟨later, decided.2⟩
      decisionReason := sound.decisionReason
      failureReason := by simp [changedProposal]
      failed := by simp [changedProposal, ApprovalChange.status] }
  | executed =>
    have executing : current.status = .executing := by
      cases h : current.status <;> simp [h, isLegalApprovalProposalTransition, approvalProposalTransitions,
        ApprovalChange.status] at legal ⊢
    have decided := sound.decided fun pending => by
      rw [executing] at pending
      cases pending
    have failed := sound.failed
    rw [executing] at failed
    exact {
      reviewed := sound.reviewed
      expires := sound.expires
      creator := sound.creator
      pending := by simp [changedProposal, ApprovalChange.status]
      decided := fun _ => ⟨later, decided.2⟩
      decisionReason := sound.decisionReason
      failureReason := sound.failureReason
      failed := failed.trans (by simp [changedProposal, ApprovalChange.status]) }
  | failed reason =>
    have decided := sound.decided fun pending => by
      simp [pending, isLegalApprovalProposalTransition, approvalProposalTransitions, ApprovalChange.status] at legal
    exact {
      reviewed := sound.reviewed
      expires := sound.expires
      creator := sound.creator
      pending := by simp [changedProposal, ApprovalChange.status]
      decided := fun _ => ⟨later, decided.2⟩
      decisionReason := sound.decisionReason
      failureReason := fun r given => by
        obtain rfl := Option.mem_some.mp given
        exact valid
      failed := ⟨fun _ => rfl, fun _ => rfl⟩ }

namespace ApprovalsSound
variable {toolCalls after : List ToolCallRecord} {proposals : List ApprovalProposalRecord}

theorem extend (sound : ApprovalsSound toolCalls proposals) (extended : Extends toolCalls after) :
    ApprovalsSound after proposals :=
  ⟨sound.proposalIds, sound.each, fun p member => (sound.requested p member).extend extended⟩

theorem create (sound : ApprovalsSound toolCalls proposals) {p : ApprovalProposalRecord}
    (fresh : proposals.find? (fun other => other.proposalId == p.proposalId) = none) (created : p.Sound)
    (requested : p.Requested toolCalls) : ApprovalsSound toolCalls (proposals ++ [p]) where
  proposalIds := by
    rw [List.map_append, List.map_singleton, List.nodup_append]
    refine ⟨sound.proposalIds, by simp, ?_⟩
    rintro id member _ last rfl
    rw [List.mem_singleton.mp last] at member
    obtain ⟨other, inside, same⟩ := List.mem_map.mp member
    exact List.find?_eq_none.mp fresh other inside (beq_iff_eq.mpr same)
  each other member := by
    rcases List.mem_append.mp member with old | new
    · exact sound.each other old
    · rwa [List.mem_singleton.mp new]
  requested other member := by
    rcases List.mem_append.mp member with old | new
    · exact sound.requested other old
    · rwa [List.mem_singleton.mp new]

theorem replace (sound : ApprovalsSound toolCalls proposals) {current p : ApprovalProposalRecord}
    {proposalId : Identifier} (found : proposals.find? (fun other => other.proposalId == proposalId) = some current)
    (same : p.proposalId = current.proposalId) (changed : p.Sound) (requested : p.Requested toolCalls) :
    ApprovalsSound toolCalls (replaceFirst (fun other => other.proposalId == proposalId) p proposals) where
  proposalIds := by
    rw [map_replaceFirst found same]
    exact sound.proposalIds
  each := forall_replaceFirst sound.each changed
  requested := forall_replaceFirst sound.requested requested

end ApprovalsSound

end Handrail.Conversation

import Handrail.Attachments.Drafts

/-!
# What an operation leaves alone

The operations of a call change the record that the call has made up, a record that is consumed, or one that has expired.
-/

namespace Handrail.Attachments.Staging
open Js Concurrent Stores

variable {w v : Staging} {i j : Nat} {input other : StageInput} {record draft : StagedAttachmentRecord}
  {standing status : Standing} {bytes : Bytes}

inductive Lawful (w : Staging) (i : Nat) : Effect → Prop
  | none : Lawful w i .none
  | put (input : StageInput) (record : StagedAttachmentRecord) (blob : Option Bytes)
    (draft : w.Draft i input record (.unplaced blob)) : Lawful w i (.put record.blobKey input.bytes)
  | discard (input : StageInput) (record : StagedAttachmentRecord) (blob : Option Bytes)
    (draft : w.Draft i input record (.unplaced blob)) : Lawful w i (.deleteBlob record.blobKey)
  | create (input : StageInput) (record : StagedAttachmentRecord) (blob : Option Bytes)
    (draft : w.Draft i input record (.unplaced blob)) : Lawful w i (.create record)
  | mark (record : StagedAttachmentRecord) (bytes : Bytes) (known : w.Known record bytes) (consumedAt : Int) :
    Lawful w i (.markConsumed record.contentRef consumedAt)
  | release (record : StagedAttachmentRecord) (marked : w.Marked record) : Lawful w i (.deleteBlob record.blobKey)
  | sweep (record : StagedAttachmentRecord) (spent : w.Spent record) : Lawful w i (.deleteBlob record.blobKey)
  | remove (record : StagedAttachmentRecord) (spent : w.Spent record) : Lawful w i (.delete record.contentRef)

variable {s : Stores}

/-- A record that is not the call's own stays as it is held, if its blob stays or need not be there. -/
theorem held_of_blob {now : Int} (held : Held now s record bytes) (key : JsString)
    (spared : key = record.blobKey → record.expiresAt ≤ now ∨
      ∀ stored ∈ s.records, stored.contentRef = record.contentRef → stored.consumedAt ≠ none) :
    Held now (s.apply (.deleteBlob key)) record bytes := by
  rcases held with expired | ⟨stored, member, same, kept⟩
  · exact .inl expired
  · by_cases here : key = record.blobKey
    · rcases spared here with expired | consumed
      · exact .inl expired
      · refine .inr ⟨stored, member, same, fun unmarked => ?_⟩
        have ref : stored.contentRef = record.contentRef := by rw [← same]; rfl
        exact (consumed stored member ref unmarked).elim
    · refine .inr ⟨stored, member, same, fun unmarked => ?_⟩
      have other : ¬record.blobKey = key := fun equal => here equal.symm
      simpa [Stores.apply, other] using kept unmarked

theorem standsAt_deleteBlob {now : Int} (stands : StandsAt now s record bytes standing) (key : JsString)
    (spared : key = record.blobKey → standing = .placed ∧ (record.expiresAt ≤ now ∨
      ∀ stored ∈ s.records, stored.contentRef = record.contentRef → stored.consumedAt ≠ none)) :
    StandsAt now (s.apply (.deleteBlob key)) record bytes standing := by
  cases standing with
  | unplaced blob =>
    refine ⟨stands.1, ?_⟩
    have other : ¬record.blobKey = key := by
      intro same
      cases (spared same.symm).1
    simpa [Stores.apply, other] using stands.2
  | placed => exact held_of_blob stands key fun same => (spared same).2
  | unknown => exact stands

theorem records_apply (effect : Effect) {stored : StagedAttachmentRecord} (member : stored ∈ (s.apply effect).records) :
    (∃ before ∈ s.records, before.core = stored.core ∧ (stored.consumedAt = none → before = stored)) ∨
      effect = .create stored ∧ s.hasIdentity stored = false := by
  cases effect with
  | none | put | deleteBlob => exact .inl ⟨stored, member, rfl, fun _ => rfl⟩
  | create created =>
    unfold Stores.apply at member
    dsimp only at member
    split at member
    · exact .inl ⟨stored, member, rfl, fun _ => rfl⟩
    · rename_i free
      rcases List.mem_append.mp member with before | new
      · exact .inl ⟨stored, before, rfl, fun _ => rfl⟩
      · cases List.mem_singleton.mp new
        exact .inr ⟨rfl, by simpa using free⟩
  | markConsumed contentRef consumedAt =>
    obtain ⟨before, was, changed⟩ := List.mem_map.mp member
    refine .inl ⟨before, was, ?_, fun unmarked => ?_⟩
    · rw [← changed]
      split <;> rfl
    · split at changed
      · rw [← changed] at unmarked
        cases unmarked
      · exact changed
  | delete contentRef => exact .inl ⟨stored, (List.mem_filter.mp member).1, rfl, fun _ => rfl⟩

theorem mem_apply (effect : Effect) {stored : StagedAttachmentRecord} (member : stored ∈ s.records)
    (kept : effect ≠ .delete stored.contentRef) :
    ∃ after ∈ (s.apply effect).records, after.core = stored.core ∧ (after.consumedAt = none → stored.consumedAt = none) := by
  cases effect with
  | none | put | deleteBlob => exact ⟨stored, member, rfl, id⟩
  | create created =>
    unfold Stores.apply
    dsimp only
    split
    · exact ⟨stored, member, rfl, id⟩
    · exact ⟨stored, List.mem_append_left _ member, rfl, id⟩
  | markConsumed contentRef consumedAt =>
    refine ⟨_, List.mem_map_of_mem member, ?_, fun unmarked => ?_⟩
    · split <;> rfl
    · split at unmarked
      · cases unmarked
      · exact unmarked
  | delete contentRef =>
    have other : stored.contentRef ≠ contentRef := fun same => kept (by rw [same])
    exact ⟨stored, List.mem_filter.mpr ⟨member, by simpa using other⟩, rfl, id⟩

def Spares (record : StagedAttachmentRecord) : Effect → Prop
  | .put key _ | .deleteBlob key => key ≠ record.blobKey
  | .create other => other.contentRef ≠ record.contentRef
  | .delete contentRef => contentRef ≠ record.contentRef
  | .none | .markConsumed .. => True

theorem blobs_apply {effect : Effect} (spares : Spares record effect) :
    (s.apply effect).blobs record.blobKey = s.blobs record.blobKey := by
  cases effect with
  | none | markConsumed | delete => rfl
  | create created =>
    unfold Stores.apply
    dsimp only
    split <;> rfl
  | put key got => exact if_neg (Ne.symm spares)
  | deleteBlob key => exact if_neg (Ne.symm spares)

theorem held_apply {now : Int} (held : Held now s record bytes) {effect : Effect} (spares : Spares record effect) :
    Held now (s.apply effect) record bytes := by
  rcases held with expired | ⟨stored, member, same, blob⟩
  · exact .inl expired
  · have ref : stored.contentRef = record.contentRef := by rw [← same]; rfl
    have kept : effect ≠ .delete stored.contentRef := by
      intro removed
      rw [removed] at spares
      exact spares ref
    obtain ⟨after, there, core, unmarked⟩ := mem_apply effect member kept
    refine .inr ⟨after, there, core.trans same, fun fresh => ?_⟩
    rw [blobs_apply spares]
    exact blob (unmarked fresh)

theorem standsAt_apply {now : Int} (stands : StandsAt now s record bytes standing) {effect : Effect}
    (spares : Spares record effect) : StandsAt now (s.apply effect) record bytes standing := by
  cases standing with
  | unplaced blob =>
    refine ⟨fun stored member => ?_, (blobs_apply spares).trans stands.2⟩
    rcases records_apply effect member with ⟨before, was, same, -⟩ | ⟨creates, -⟩
    · rw [← contentRef_of_core same]
      exact stands.1 before was
    · rw [creates] at spares
      exact spares
  | placed => exact held_apply stands spares
  | unknown => exact stands

/-! ### The drafts of the other calls -/

theorem Sound.known_blobKey (sound : w.Sound) (known : w.Known record bytes) :
    record.blobKey = blobKeyOf record.contentRef := by
  obtain ⟨i, input, draft, -⟩ := known
  exact (sound.drafts _ _ _ _ draft).1.blobKey

theorem Sound.known_draft (sound : w.Sound) (known : w.Known record bytes) (made : w.Draft i input draft standing)
    (same : record.contentRef = draft.contentRef) : record.core = draft ∧ standing = .placed ∧ bytes = input.bytes := by
  obtain ⟨j, other, placed, rfl⟩ := known
  obtain ⟨inputs, cores, standings⟩ := sound.draft_eq placed made same
  exact ⟨cores, standings.symm, congrArg _ inputs⟩

theorem Sound.frame (sound : w.Sound) {effect : Effect} (lawful : Lawful w i effect) (made : w.Draft j input draft standing)
    (apart : j ≠ i) : StandsAt w.now (w.stores.apply effect) draft input.bytes standing := by
  obtain ⟨drafted, stands⟩ := sound.drafts _ _ _ _ made
  have others {other : StageInput} {record : StagedAttachmentRecord} {status : Standing} (own : w.Draft i other record status) :
      record.contentRef ≠ draft.contentRef := fun same => apart (sound.distinct _ _ _ _ _ _ _ _ made own same.symm)
  have released (record : StagedAttachmentRecord) (bytes : Bytes) (known : w.Known record bytes)
      (gone : record.expiresAt ≤ w.now ∨
        ∀ stored ∈ w.stores.records, stored.contentRef = record.contentRef → stored.consumedAt ≠ none) :
      StandsAt w.now (w.stores.apply (.deleteBlob record.blobKey)) draft input.bytes standing := by
    refine standsAt_deleteBlob stands record.blobKey fun same => ?_
    rw [drafted.blobKey, sound.known_blobKey known] at same
    have ref := append_injective _ same
    obtain ⟨core, placed, -⟩ := sound.known_draft known made ref
    refine ⟨placed, gone.imp (fun expired => ?_) fun consumed => ?_⟩
    · rw [← core]
      exact expired
    · rw [← ref]
      exact consumed
  cases lawful with
  | none => exact stands
  | put other record blob own => exact standsAt_apply stands (sound.blobKey_ne own made (others own))
  | discard other record blob own => exact standsAt_apply stands (sound.blobKey_ne own made (others own))
  | create other record blob own => exact standsAt_apply stands (others own)
  | mark record bytes known consumedAt => exact standsAt_apply stands trivial
  | release record marked =>
    obtain ⟨⟨bytes, known⟩, consumed⟩ := marked
    exact released record bytes known (.inr consumed)
  | sweep record spent =>
    obtain ⟨⟨bytes, known⟩, expired⟩ := spent
    exact released record bytes known (.inl expired)
  | remove record spent =>
    obtain ⟨⟨bytes, known⟩, expired⟩ := spent
    by_cases ref : record.contentRef = draft.contentRef
    · obtain ⟨core, rfl, -⟩ := sound.known_draft known made ref
      refine .inl ?_
      rw [← core]
      exact expired
    · exact standsAt_apply stands ref

end Handrail.Attachments.Staging

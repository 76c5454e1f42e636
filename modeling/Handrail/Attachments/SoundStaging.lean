import Handrail.Attachments.StoreEffects

/-!
# Every step keeps what the calls know

A step of one call is an operation of a store, or the call going on. Either way the drafts stay, and what was created or
consumed stays so.
-/

namespace Handrail.Attachments.Staging
open Js Concurrent Stores

variable {w v : Staging} {i j : Nat} {input : StageInput} {record : StagedAttachmentRecord} {call next : Call} {effect : Effect}
  {issued : List JsString}

/-! ### What stays -/

structure Later (w v : Staging) : Prop where
  now : w.now ≤ v.now
  drafts : ∀ i input record standing, w.Draft i input record standing →
    ∃ status, v.Draft i input record status ∧ (standing = .placed → status = .placed)
  marked : ∀ record, w.Marked record → v.Marked record

theorem Later.known (later : w.Later v) {bytes : Bytes} (known : w.Known record bytes) : v.Known record bytes := by
  obtain ⟨i, input, draft, rfl⟩ := known
  obtain ⟨status, after, placed⟩ := later.drafts _ _ _ _ draft
  rw [placed rfl] at after
  exact ⟨i, input, after, rfl⟩

theorem Later.created (later : w.Later v) (created : ∃ bytes, w.Known record bytes) : ∃ bytes, v.Known record bytes := by
  obtain ⟨bytes, known⟩ := created
  exact ⟨bytes, later.known known⟩

theorem Later.spent (later : w.Later v) (spent : w.Spent record) : v.Spent record :=
  ⟨later.created spent.1, le_trans spent.2 later.now⟩

theorem Later.holdsStage (later : w.Later v) {phase : StagePhase} (holds : w.HoldsStage input phase) :
    v.HoldsStage input phase := by
  unfold HoldsStage at holds ⊢
  split at holds
  · exact ⟨holds.1, fun record replied => (holds.2 record replied).imp later.created id⟩
  · exact fun record replied => (holds record replied).imp later.created id
  · obtain ⟨record, same, found, fingerprint⟩ := holds
    exact ⟨record, same, found.imp later.created id, fingerprint⟩
  · trivial

theorem Later.holdsResolve (later : w.Later v) {input : ReferenceInput} {phase : ResolvePhase}
    (holds : w.HoldsResolve input phase) : v.HoldsResolve input phase := by
  unfold HoldsResolve at holds ⊢
  split at holds
  · exact fun record replied => (holds record replied).imp later.created id
  · obtain ⟨owned, same, bytes, known, got⟩ := holds
    exact ⟨owned, same, bytes, later.known known, got⟩
  · exact ⟨holds.1, holds.2.1, later.known holds.2.2⟩
  · trivial

theorem Later.holdsConsume (later : w.Later v) {input : ReferenceInput} {phase : ConsumePhase}
    (holds : w.HoldsConsume input phase) : v.HoldsConsume input phase := by
  unfold HoldsConsume at holds ⊢
  split at holds
  · exact later.holdsResolve holds
  · exact ⟨later.created holds.1, holds.2.1, fun replied => later.marked _ (holds.2.2 replied)⟩
  · exact ⟨holds.1, later.marked _ holds.2⟩
  · exact ⟨holds.1, later.marked _ holds.2⟩
  · trivial

theorem Later.holdsCleanup (later : w.Later v) {phase : CleanupPhase} (holds : w.HoldsCleanup phase) : v.HoldsCleanup phase := by
  unfold HoldsCleanup at holds ⊢
  split at holds
  · exact ⟨le_trans holds.1 later.now, fun records replied record member => later.spent (holds.2 records replied record member)⟩
  · exact ⟨later.spent holds.1, fun other member => later.spent (holds.2 other member)⟩
  · exact ⟨later.spent holds.1, fun other member => later.spent (holds.2 other member)⟩
  · trivial

theorem Later.holds (later : w.Later v) {call : Call} (holds : w.Holds call) : v.Holds call := by
  cases call with
  | stage => exact later.holdsStage holds
  | resolve => exact later.holdsResolve holds
  | consume => exact later.holdsConsume holds
  | cleanupExpired => exact later.holdsCleanup holds

/-! ### A call moves -/

def moved (w : Staging) (i : Nat) (next : Call) (effect : Effect) (issued : List JsString) : Staging :=
  { w with stores := w.stores.apply effect, issued := issued, calls := w.calls.set i next }

structure Moves (w : Staging) (i : Nat) (call next : Call) (effect : Effect) (issued : List JsString) : Prop where
  found : w.calls[i]? = some call
  lawful : Lawful w i effect
  retains : ∀ id ∈ w.issued, id ∈ issued
  keeps : ∀ input record standing, call.draft = some (input, record, standing) →
    ∃ status, next.draft = some (input, record, status) ∧ (standing = .placed → status = .placed)
  stands : ∀ input record standing, next.draft = some (input, record, standing) →
    Drafted issued input record ∧ StandsAt w.now (w.stores.apply effect) record input.bytes standing
  own : ∀ input record standing, next.draft = some (input, record, standing) →
    (∃ status, call.draft = some (input, record, status)) ∨
      ∀ j other second status, w.Draft j other second status → second.contentRef ≠ record.contentRef
  created : ∀ record, effect = .create record → w.stores.hasIdentity record = false →
    ∃ input, next.draft = some (input, record, .placed)
  put : ∀ key bytes, effect = .put key bytes →
    ∃ input record standing, next.draft = some (input, record, standing) ∧ key = record.blobKey ∧ bytes = input.bytes

theorem lawful_create (lawful : Lawful w i effect) (creates : effect = .create record) :
    ∃ input blob, w.Draft i input record (.unplaced blob) := by
  cases lawful with
  | create input made blob draft =>
    cases creates
    exact ⟨input, blob, draft⟩
  | _ => cases creates

theorem Moves.draft_cases (moves : Moves w i call next effect issued) {standing : Standing}
    (draft : (w.moved i next effect issued).Draft j input record standing) :
    (j = i ∧ next.draft = some (input, record, standing)) ∨ (j ≠ i ∧ w.Draft j input record standing) := by
  obtain ⟨other, found, made⟩ := draft
  have at_ : (w.calls.set i next)[j]? = some other := found
  rw [getElem?_set_found moves.found] at at_
  split at at_
  · rename_i here
    cases at_
    exact .inl ⟨here.symm, made⟩
  · rename_i apart
    exact .inr ⟨fun same => apart same.symm, other, at_, made⟩

theorem Moves.draft_next (moves : Moves w i call next effect issued) {standing : Standing}
    (made : next.draft = some (input, record, standing)) :
    (w.moved i next effect issued).Draft i input record standing := by
  refine ⟨next, ?_, made⟩
  have at_ : (w.calls.set i next)[i]? = if i = i then some next else w.calls[i]? := getElem?_set_found moves.found i
  rw [if_pos rfl] at at_
  exact at_

theorem Moves.later (moves : Moves w i call next effect issued) (sound : w.Sound) : w.Later (w.moved i next effect issued) := by
  have drafts : ∀ j input record standing, w.Draft j input record standing →
      ∃ status, (w.moved i next effect issued).Draft j input record status ∧ (standing = .placed → status = .placed) := by
    intro j input record standing draft
    obtain ⟨other, found, made⟩ := draft
    by_cases here : j = i
    · subst here
      cases moves.found.symm.trans found
      obtain ⟨status, after, placed⟩ := moves.keeps _ _ _ made
      exact ⟨status, moves.draft_next after, placed⟩
    · refine ⟨standing, ⟨other, ?_, made⟩, id⟩
      have at_ : (w.calls.set i next)[j]? = if i = j then some next else w.calls[j]? := getElem?_set_found moves.found j
      rw [if_neg (Ne.symm here), found] at at_
      exact at_
  refine ⟨le_refl _, drafts, fun record marked => ?_⟩
  obtain ⟨⟨bytes, known⟩, consumed⟩ := marked
  refine ⟨?_, fun stored member same => ?_⟩
  · obtain ⟨k, input, draft, rfl⟩ := known
    obtain ⟨status, after, placed⟩ := drafts _ _ _ _ draft
    rw [placed rfl] at after
    exact ⟨_, k, input, after, rfl⟩
  · rcases records_apply effect member with ⟨before, was, core, unmarked⟩ | ⟨creates, -⟩
    · intro fresh
      have ref : before.contentRef = record.contentRef := (contentRef_of_core core).trans same
      have unchanged := unmarked fresh
      rw [← unchanged] at fresh
      exact consumed before was ref fresh
    · obtain ⟨input, blob, draft⟩ := lawful_create moves.lawful creates
      cases (sound.known_draft known draft same.symm).2.1

theorem hasIdentity_of {s : Stores} {stored : StagedAttachmentRecord} (member : stored ∈ s.records)
    (same : stored.identity = record.identity) : s.hasIdentity record = true := by
  refine List.find?_isSome.mpr ⟨stored, member, ?_⟩
  have owner : stored.ownerScopeId = record.ownerScopeId := congrArg Prod.fst same
  have rest := congrArg Prod.snd same
  have conversation : stored.conversationId = record.conversationId := congrArg Prod.fst rest
  have key : stored.idempotencyKey = record.idempotencyKey := congrArg Prod.snd rest
  simp [owner, conversation, key]

theorem identities_apply {s : Stores} (identities : ∀ record ∈ s.records, ∀ other ∈ s.records,
      record.identity = other.identity → record = other) (effect : Effect) :
    ∀ record ∈ (s.apply effect).records, ∀ other ∈ (s.apply effect).records,
      record.identity = other.identity → record = other := by
  cases effect with
  | none | put | deleteBlob => exact identities
  | create created =>
    unfold Stores.apply
    dsimp only
    split
    · exact identities
    · rename_i free
      intro record member other also same
      rcases List.mem_append.mp member with old | new
      · rcases List.mem_append.mp also with older | newer
        · exact identities record old other older same
        · cases List.mem_singleton.mp newer
          exact (free (hasIdentity_of old same)).elim
      · cases List.mem_singleton.mp new
        rcases List.mem_append.mp also with older | newer
        · exact (free (hasIdentity_of older same.symm)).elim
        · exact (List.mem_singleton.mp newer).symm
  | markConsumed contentRef consumedAt =>
    intro record member other also same
    obtain ⟨first, was, rfl⟩ := List.mem_map.mp member
    obtain ⟨second, before, rfl⟩ := List.mem_map.mp also
    have identity (stored : StagedAttachmentRecord) : (if stored.contentRef = contentRef then
        { stored with consumedAt := some consumedAt } else stored).identity = stored.identity := by
      split <;> rfl
    rw [identity, identity] at same
    rw [identities first was second before same]
  | delete contentRef =>
    intro record member other also same
    exact identities record (List.mem_filter.mp member).1 other (List.mem_filter.mp also).1 same

theorem blobs_before {s : Stores} {key : JsString} {bytes : Bytes} (stored : (s.apply effect).blobs key = some bytes) :
    s.blobs key = some bytes ∨ effect = .put key bytes := by
  cases effect with
  | none | markConsumed | delete => exact .inl stored
  | create created =>
    unfold Stores.apply at stored
    dsimp only at stored
    split at stored <;> exact .inl stored
  | put other got =>
    have cell : (if key = other then some got else s.blobs key) = some bytes := stored
    split at cell
    · rename_i here
      cases cell
      exact .inr (by rw [here])
    · exact .inl cell
  | deleteBlob other =>
    have cell : (if key = other then none else s.blobs key) = some bytes := stored
    split at cell
    · cases cell
    · exact .inl cell

theorem Moves.sound (moves : Moves w i call next effect issued) (sound : w.Sound)
    (holds : (w.moved i next effect issued).Holds next) : (w.moved i next effect issued).Sound := by
  have later := moves.later sound
  constructor
  · intro j input record standing draft
    rcases moves.draft_cases draft with ⟨-, made⟩ | ⟨apart, before⟩
    · exact moves.stands _ _ _ made
    · obtain ⟨drafted, -⟩ := sound.drafts _ _ _ _ before
      obtain ⟨id, member, ref⟩ := drafted.contentRef
      exact ⟨{ drafted with contentRef := ⟨id, moves.retains id member, ref⟩ }, sound.frame moves.lawful before apart⟩
  · intro j k first second record other standing status draft again same
    have across {j : Nat} {first second : StageInput} {record other : StagedAttachmentRecord} {standing status : Standing}
        (made : next.draft = some (first, record, standing)) (before : w.Draft j second other status)
        (same : record.contentRef = other.contentRef) : j = i := by
      rcases moves.own _ _ _ made with ⟨earlier, was⟩ | fresh
      · exact sound.distinct _ _ _ _ _ _ _ _ before ⟨call, moves.found, was⟩ same.symm
      · exact (fresh _ _ _ _ before same.symm).elim
    rcases moves.draft_cases draft with ⟨rfl, made⟩ | ⟨-, before⟩
    · rcases moves.draft_cases again with ⟨rfl, -⟩ | ⟨-, also⟩
      · rfl
      · exact (across made also same).symm
    · rcases moves.draft_cases again with ⟨rfl, made⟩ | ⟨-, also⟩
      · exact across made before same.symm
      · exact sound.distinct _ _ _ _ _ _ _ _ before also same
  · intro stored member
    rcases records_apply effect member with ⟨before, was, core, -⟩ | ⟨creates, free⟩
    · obtain ⟨bytes, known⟩ := later.created (sound.records before was)
      refine ⟨bytes, ?_⟩
      unfold Known at known ⊢
      rw [← core]
      exact known
    · obtain ⟨input, made⟩ := moves.created stored creates free
      have fresh := (moves.stands _ _ _ made).1.fresh
      have core : stored.core = stored := by
        rw [StagedAttachmentRecord.core, ← fresh]
      exact ⟨input.bytes, i, input, by rw [core]; exact moves.draft_next made, rfl⟩
  · exact identities_apply sound.identities effect
  · intro key bytes stored
    rcases blobs_before stored with before | put
    · obtain ⟨j, input, record, standing, draft, named, same⟩ := sound.blobs key bytes before
      obtain ⟨status, after, -⟩ := later.drafts _ _ _ _ draft
      exact ⟨j, input, record, status, after, named, same⟩
    · obtain ⟨input, record, standing, made, named, same⟩ := moves.put key bytes put
      exact ⟨i, input, record, standing, moves.draft_next made, named, same⟩
  · intro j other found
    have at_ : (w.calls.set i next)[j]? = some other := found
    rw [getElem?_set_found moves.found] at at_
    split at at_
    · cases at_
      exact holds
    · exact later.holds (sound.holds j other at_)

end Handrail.Attachments.Staging

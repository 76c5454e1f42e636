import Handrail.Attachments.SoundStaging

/-!
# The steps of the calls

A step of `stage` keeps the invariant when a failed `put` has left no blob, when no `create` fails and when the blob of a
lost race is deleted. The steps of the other calls keep it always.
-/

namespace Handrail.Attachments.Staging
open Js Concurrent Stores

variable {w : Staging} {i : Nat} {input : StageInput} {record : StagedAttachmentRecord} {call next : Call} {effect : Effect}
  {issued : List JsString} {fault : Option Fault}

def leavesNothing (fault : Option Fault) : StagePhase → Bool
  | .putting _ none => fault ≠ some .lost
  | .creating _ none => fault = none
  | .discarding _ none => fault ≠ some .refused
  | _ => true

def performed (fault : Option Fault) (call : Call) : Effect := if fault = some .refused then .none else call.effect

theorem performed_none (effect : call.effect = .none) : performed fault call = .none := by
  unfold performed
  rw [effect]
  split <;> rfl

/-! ### Moves without and with an effect -/

theorem drafted_retain (drafted : Drafted w.issued input record) (retains : ∀ id ∈ w.issued, id ∈ issued) :
    Drafted issued input record := by
  obtain ⟨id, member, ref⟩ := drafted.contentRef
  exact { drafted with contentRef := ⟨id, retains id member, ref⟩ }

theorem Sound.quiet (sound : w.Sound) (found : w.calls[i]? = some call) (retains : ∀ id ∈ w.issued, id ∈ issued)
    (same : next.draft = call.draft) : Moves w i call next .none issued where
  found := found
  lawful := .none
  retains := retains
  keeps input record standing made := ⟨standing, same.trans made, id⟩
  stands input record standing made := by
    have draft : w.Draft i input record standing := ⟨call, found, same.symm.trans made⟩
    obtain ⟨drafted, stands⟩ := sound.drafts _ _ _ _ draft
    exact ⟨drafted_retain drafted retains, stands⟩
  own input record standing made := .inl ⟨standing, same.symm.trans made⟩
  created record creates := by cases creates
  put key bytes puts := by cases puts

theorem Sound.acts (sound : w.Sound) (found : w.calls[i]? = some call) {standing status : Standing}
    (made : call.draft = some (input, record, standing)) (after : next.draft = some (input, record, status))
    (lawful : Lawful w i effect) (stands : StandsAt w.now (w.stores.apply effect) record input.bytes status)
    (unplaced : standing ≠ .placed)
    (created : ∀ other, effect = .create other → w.stores.hasIdentity other = false → other = record ∧ status = .placed)
    (put : ∀ key bytes, effect = .put key bytes → key = record.blobKey ∧ bytes = input.bytes) :
    Moves w i call next effect w.issued := by
  have drafted := (sound.drafts _ _ _ _ ⟨call, found, made⟩).1
  constructor
  · exact found
  · exact lawful
  · exact fun _ member => member
  · intro other second before was
    cases made.symm.trans was
    exact ⟨status, after, fun placed => (unplaced placed).elim⟩
  · intro other second before is
    cases after.symm.trans is
    exact ⟨drafted, stands⟩
  · intro other second before is
    cases after.symm.trans is
    exact .inl ⟨standing, made⟩
  · intro other creates free
    obtain ⟨rfl, rfl⟩ := created other creates free
    exact ⟨input, after⟩
  · intro key bytes puts
    obtain ⟨named, same⟩ := put key bytes puts
    exact ⟨input, record, status, after, named, same⟩

/-! ### `stage` -/

theorem find?_identity {found : StagedAttachmentRecord}
    (read : w.stores.getByIdempotency input.ownerScopeId input.conversationId input.idempotencyKey = some found) :
    found ∈ w.stores.records ∧ found.identity = input.identity := by
  refine ⟨List.mem_of_find?_eq_some read, ?_⟩
  have matched := List.find?_some read
  simp only [Bool.and_eq_true, beq_iff_eq] at matched
  obtain ⟨⟨owner, conversation⟩, key⟩ := matched
  unfold StagedAttachmentRecord.identity StageInput.identity
  rw [owner, conversation, key]

theorem Sound.found (sound : w.Sound) {found : StagedAttachmentRecord}
    (replied : reply fault (w.stores.getByIdempotency input.ownerScopeId input.conversationId input.idempotencyKey) =
      some (.ok (some found))) : w.Found input found := by
  unfold reply at replied
  split at replied
  · cases replied
  · obtain ⟨member, same⟩ := find?_identity (Except.ok.inj (Option.some.inj replied))
    exact ⟨sound.records found member, same⟩

theorem Sound.holdsStage_answer (sound : w.Sound) {phase : StagePhase} (holds : w.HoldsStage input phase) :
    w.HoldsStage input (phase.answer w.stores fault input) := by
  unfold StagePhase.answer
  split
  · exact ⟨holds.1, fun record replied => sound.found replied⟩
  · trivial
  · trivial
  · trivial
  · exact fun record replied => sound.found replied
  · exact holds

theorem Sound.stage_perform (sound : w.Sound) {phase : StagePhase} (found : w.calls[i]? = some (.stage input phase))
    (spared : leavesNothing fault phase = true) :
    Moves w i (.stage input phase) (.stage input (phase.answer w.stores fault input)) (performed fault (.stage input phase))
      w.issued := by
  have quiet (effect : phase.effect input = .none) (same : (phase.answer w.stores fault input).standing input =
    phase.standing input) :
      Moves w i (.stage input phase) (.stage input (phase.answer w.stores fault input)) (performed fault (.stage input phase))
        w.issued := by
    have idle : (Call.stage input phase).effect = .none := effect
    rw [performed_none idle]
    refine sound.quiet found (fun _ member => member) ?_
    rw [Call.draft_stage, Call.draft_stage, same]
  cases phase with
  | looking replied => cases replied <;> exact quiet rfl rfl
  | lookingAgain record replied => cases replied <;> exact quiet rfl rfl
  | settled record result => exact quiet rfl rfl
  | putting record replied =>
    cases replied with
    | some answer => exact quiet rfl rfl
    | none =>
      have draft : w.Draft i input record (.unplaced none) := ⟨_, found, rfl⟩
      obtain ⟨absent, blob⟩ := (sound.drafts _ _ _ _ draft).2
      cases fault with
      | none =>
        refine sound.acts found rfl rfl (.put input record none draft) ⟨absent, ?_⟩ (by intro same; cases same)
          (by intro other same; cases same) (by intro key bytes same; cases same; exact ⟨rfl, rfl⟩)
        exact if_pos rfl
      | some fault =>
        cases fault with
        | lost => cases spared
        | refused => exact sound.quiet found (fun _ member => member) rfl
  | creating record replied =>
    cases replied with
    | some answer => exact quiet rfl rfl
    | none =>
      have draft : w.Draft i input record (.unplaced (some input.bytes)) := ⟨_, found, rfl⟩
      obtain ⟨drafted, absent, blob⟩ := sound.drafts _ _ _ _ draft
      have none : fault = none := of_decide_eq_true spared
      subst none
      cases taken : w.stores.hasIdentity record with
      | true =>
        have same : w.stores.apply (.create record) = w.stores := if_pos taken
        have after : Call.draft (.stage input (.creating record (reply none (if w.stores.hasIdentity record then .conflict else .created)))) =
            some (input, record, .unplaced (some input.bytes)) := by
          rw [taken]
          rfl
        refine sound.acts found rfl after (.create input record _ draft) ?_ (by intro same; cases same) ?_
          (by intro key bytes same; cases same)
        · rw [show performed none (Call.stage input (.creating record none)) = .create record from rfl, same]
          exact ⟨absent, blob⟩
        · intro other creates free
          cases creates
          rw [taken] at free
          cases free
      | false =>
        have grown : w.stores.apply (.create record) = { w.stores with records := w.stores.records ++ [record] } :=
          if_neg (by rw [taken]; exact Bool.false_ne_true)
        have after : Call.draft (.stage input (.creating record (reply none (if w.stores.hasIdentity record then .conflict else .created)))) =
            some (input, record, .placed) := by
          rw [taken]
          rfl
        refine sound.acts found rfl after (.create input record _ draft) ?_ (by intro same; cases same)
          (by intro other creates free; cases creates; exact ⟨rfl, rfl⟩) (by intro key bytes same; cases same)
        rw [show performed none (Call.stage input (.creating record none)) = .create record from rfl, grown]
        refine .inr ⟨record, List.mem_append_right _ (List.mem_singleton_self _), ?_, fun _ => blob⟩
        rw [StagedAttachmentRecord.core, ← drafted.fresh]
  | discarding record replied =>
    cases replied with
    | some answer => exact quiet rfl rfl
    | none =>
      have draft : w.Draft i input record (.unplaced (some input.bytes)) := ⟨_, found, rfl⟩
      obtain ⟨absent, -⟩ := (sound.drafts _ _ _ _ draft).2
      have kept : performed fault (.stage input (.discarding record none)) = .deleteBlob record.blobKey :=
        if_neg (of_decide_eq_true spared)
      rw [kept]
      have after : Call.draft (.stage input (.discarding record (reply fault ()))) = some (input, record, .unplaced none) := by
        unfold reply
        rfl
      exact sound.acts found rfl after (.discard input record _ draft) ⟨absent, if_pos rfl⟩
        (by intro same; cases same) (by intro other same; cases same) (by intro key bytes same; cases same)

theorem Sound.contentRef_ne (sound : w.Sound) {id : JsString} (fresh : id ∉ w.issued) {standing : Standing}
    (draft : w.Draft i input record standing) : record.contentRef ≠ contentRefOf id := by
  intro same
  obtain ⟨other, member, ref⟩ := (sound.drafts _ _ _ _ draft).1.contentRef
  have equal : other = id := append_injective _ (ref.symm.trans same)
  rw [equal] at member
  exact fresh member

theorem Sound.stands_fresh (sound : w.Sound) {id : JsString} (fresh : id ∉ w.issued) (ref : record.contentRef = contentRefOf id)
    (named : record.blobKey = blobKeyOf record.contentRef) (bytes : Bytes) :
    StandsAt w.now w.stores record bytes (.unplaced none) := by
  refine ⟨fun stored member => ?_, ?_⟩
  · obtain ⟨bytes, i, input, draft, -⟩ := sound.records stored member
    have apart := sound.contentRef_ne fresh draft
    rw [ref]
    exact apart
  · cases there : w.stores.blobs record.blobKey with
    | none => rfl
    | some got =>
      obtain ⟨i, input, other, standing, draft, key, -⟩ := sound.blobs _ _ there
      rw [named, (sound.drafts _ _ _ _ draft).1.blobKey, ref] at key
      exact (sound.contentRef_ne fresh draft (append_injective _ key).symm).elim

variable {limits : StagingLimits} {ids : JsString × JsString}

theorem Sound.stage_resume (sound : w.Sound) {phase : StagePhase} (found : w.calls[i]? = some (.stage input phase))
    (fresh : ids.2 ∉ w.issued) :
    Moves w i (.stage input phase) (.stage input (phase.resume limits w.now ids input)) .none (ids.1 :: ids.2 :: w.issued) := by
  have retains : ∀ id ∈ w.issued, id ∈ ids.1 :: ids.2 :: w.issued :=
    fun id member => List.mem_cons_of_mem _ (List.mem_cons_of_mem _ member)
  have quiet (same : (phase.resume limits w.now ids input).standing input = phase.standing input) :
      Moves w i (.stage input phase) (.stage input (phase.resume limits w.now ids input)) .none (ids.1 :: ids.2 :: w.issued) :=
    sound.quiet found retains (by rw [Call.draft_stage, Call.draft_stage, same])
  have holds : w.HoldsStage input phase := sound.holds i _ found
  cases phase with
  | settled record result => exact quiet rfl
  | putting record replied => rcases replied with _ | _ | _ <;> exact quiet rfl
  | discarding record replied =>
    rcases replied with _ | _ | _ <;> exact quiet rfl
  | creating record replied =>
    rcases replied with _ | _ | result
    · exact quiet rfl
    · have draft : w.Draft i input record .unknown := ⟨_, found, rfl⟩
      exact (sound.drafts _ _ _ _ draft).2.elim
    · cases result with
      | conflict => exact quiet rfl
      | created =>
        refine quiet ?_
        unfold StagePhase.resume StagePhase.standing
        dsimp only
        rw [if_pos rfl]
  | lookingAgain record replied =>
    rcases replied with _ | _ | winner
    · exact quiet rfl
    · exact quiet rfl
    · have draft : w.Draft i input record (.unplaced none) := ⟨_, found, rfl⟩
      refine quiet ?_
      unfold StagePhase.resume
      dsimp only
      split
      · rename_i winner' kept
        obtain ⟨⟨bytes, known⟩, -⟩ := holds winner' (by rw [(Option.filter_eq_some_iff.mp kept).1])
        -- The winner is another call's record.
        have apart : reference winner' ≠ reference record := by
          intro same
          have ref : winner'.contentRef = record.contentRef := congrArg AttachmentReference.contentRef same
          cases (sound.known_draft known draft ref).2.1
        unfold StagePhase.standing
        dsimp only
        rw [if_neg apart]
      · rfl
  | looking replied =>
    rcases replied with _ | _ | existing
    · exact quiet rfl
    · exact quiet rfl
    · cases existing with
      | some existing =>
        refine quiet ?_
        unfold StagePhase.resume
        dsimp only
        split
        · rfl
        · split <;> rfl
      | none =>
        unfold StagePhase.resume at quiet ⊢
        dsimp only at quiet ⊢
        split at quiet
        · rename_i safe
          rw [if_pos safe]
          split at quiet
          · rename_i createdAt expiresAt _ _
            simp only [Bool.and_eq_true] at safe
            have apart {j : Nat} {other : StageInput} {second : StagedAttachmentRecord} {status : Standing}
                (draft : w.Draft j other second status) : second.contentRef ≠ contentRefOf ids.2 :=
              sound.contentRef_ne fresh draft
            constructor
            · exact found
            · exact .none
            · exact retains
            · intro other second standing made
              cases made
            · intro other second standing made
              cases made
              refine ⟨⟨rfl, rfl, rfl, ⟨ids.2, List.mem_cons_of_mem _ List.mem_cons_self, rfl⟩, rfl,
                holds.1.1, holds.1.2, safe.1.2⟩, ?_⟩
              exact sound.stands_fresh fresh rfl rfl _
            · intro other second standing made
              cases made
              exact .inr fun _ _ _ _ draft => apart draft
            · intro other creates
              cases creates
            · intro key bytes puts
              cases puts
          · exact quiet rfl
        · rename_i unsafe_
          rw [if_neg unsafe_]
          exact quiet rfl

theorem Sound.holdsStage_resume (sound : w.Sound) {phase : StagePhase} (found : w.calls[i]? = some (.stage input phase)) :
    w.HoldsStage input (phase.resume limits w.now ids input) := by
  have holds : w.HoldsStage input phase := sound.holds i _ found
  unfold StagePhase.resume
  split
  · rename_i existing
    split
    · trivial
    · rename_i same
      split
      · trivial
      · exact ⟨existing, rfl, holds.2 existing rfl, not_not.mp same⟩
  · dsimp only
    split
    · split
      · trivial
      · trivial
    · trivial
  · trivial
  · trivial
  · rename_i record
    have draft : w.Draft i input record .placed := ⟨_, found, rfl⟩
    obtain ⟨drafted, -⟩ := sound.drafts _ _ _ _ draft
    have core : record.core = record := by
      rw [StagedAttachmentRecord.core, ← drafted.fresh]
    exact ⟨record, rfl, ⟨⟨input.bytes, i, input, by rw [core]; exact draft, rfl⟩, drafted.identity⟩, drafted.fingerprint⟩
  · trivial
  · intro record replied
    cases replied
  · rename_i winner
    split
    · rename_i winner' kept
      obtain ⟨rfl, allowed⟩ := Option.filter_eq_some_iff.mp kept
      simp only [decide_eq_true_eq] at allowed
      exact ⟨winner', rfl, holds winner' rfl, allowed.1⟩
    · trivial
  · trivial
  · trivial
  · trivial
  · trivial
  · exact holds

/-! ### The other calls -/

theorem moves_plain (found : w.calls[i]? = some call) (plain : call.draft = none) (after : next.draft = none)
    (lawful : Lawful w i effect) (created : ∀ record, effect ≠ .create record) (put : ∀ key bytes, effect ≠ .put key bytes) :
    Moves w i call next effect w.issued := by
  constructor
  · exact found
  · exact lawful
  · exact fun _ member => member
  · intro input record standing made
    cases plain.symm.trans made
  · intro input record standing made
    cases after.symm.trans made
  · intro input record standing made
    cases after.symm.trans made
  · intro record creates
    exact (created record creates).elim
  · intro key bytes puts
    exact (put key bytes puts).elim

variable {reference : ReferenceInput}

theorem Sound.holdsResolve_answer (sound : w.Sound) {phase : ResolvePhase} (holds : w.HoldsResolve reference phase) :
    w.HoldsResolve reference (phase.answer w.stores fault reference) := by
  unfold ResolvePhase.answer
  split
  · intro record replied
    unfold reply at replied
    split at replied
    · cases replied
    · have read : w.stores.getByContentRef reference.contentRef = some record := Except.ok.inj (Option.some.inj replied)
      have matched := List.find?_some read
      simp only [beq_iff_eq] at matched
      exact ⟨sound.records record (List.mem_of_find?_eq_some read), matched⟩
  · rename_i record
    obtain ⟨owned, same, bytes, known, -⟩ := holds
    refine ⟨owned, same, bytes, known, fun got replied => ?_⟩
    unfold reply at replied
    split at replied
    · cases replied
    · have read : w.stores.blobs record.blobKey = some got := Except.ok.inj (Option.some.inj replied)
      obtain ⟨j, input, other, standing, draft, key, rfl⟩ := sound.blobs _ _ read
      rw [sound.known_blobKey known, (sound.drafts _ _ _ _ draft).1.blobKey] at key
      exact (sound.known_draft known draft (append_injective _ key)).2.2.symm
  · exact holds

theorem holdsResolve_resume {now : Int} {phase : ResolvePhase} (holds : w.HoldsResolve reference phase) :
    w.HoldsResolve reference (phase.resume now reference) := by
  unfold ResolvePhase.resume
  split
  · trivial
  · rename_i record
    obtain ⟨⟨bytes, known⟩, same⟩ := holds record rfl
    split
    · trivial
    · split
      · trivial
      · rename_i owned
        split
        · trivial
        · exact ⟨by simpa using owned, same, bytes, known, fun got replied => by cases replied⟩
  · trivial
  · rename_i record bytes
    obtain ⟨owned, same, created, known, got⟩ := holds
    rw [got bytes rfl]
    exact ⟨owned, same, known⟩
  · trivial
  · trivial
  · exact holds

theorem Sound.consume_perform (sound : w.Sound) {phase : ConsumePhase} (found : w.calls[i]? = some (.consume reference phase)) :
    Moves w i (.consume reference phase) (.consume reference (phase.answer w.stores fault reference))
      (performed fault (.consume reference phase)) w.issued := by
  have holds : w.HoldsConsume reference phase := sound.holds i _ found
  have quiet (idle : (Call.consume reference phase).effect = .none) :
      Moves w i (.consume reference phase) (.consume reference (phase.answer w.stores fault reference))
        (performed fault (.consume reference phase)) w.issued := by
    rw [performed_none idle]
    exact sound.quiet found (fun _ member => member) rfl
  have refused : Moves w i (.consume reference phase) (.consume reference (phase.answer w.stores fault reference)) .none w.issued :=
    sound.quiet found (fun _ member => member) rfl
  cases phase with
  | resolving phase => exact quiet rfl
  | settled result => exact quiet rfl
  | marking record consumedAt replied =>
    cases replied with
    | some answer => exact quiet rfl
    | none =>
      unfold performed
      split
      · exact refused
      · obtain ⟨⟨bytes, known⟩, same, -⟩ := holds
        have lawful := Lawful.mark (i := i) record bytes known consumedAt
        rw [same] at lawful
        exact moves_plain found rfl rfl lawful (by intro other same; cases same) (by intro key bytes same; cases same)
  | deleting record replied =>
    cases replied with
    | some answer => exact quiet rfl
    | none =>
      unfold performed
      split
      · exact refused
      · exact moves_plain found rfl rfl (.release record holds.2) (by intro other same; cases same)
          (by intro key bytes same; cases same)

theorem Sound.holdsConsume_answer (sound : w.Sound) {phase : ConsumePhase}
    (found : w.calls[i]? = some (.consume reference phase)) :
    (w.moved i (.consume reference (phase.answer w.stores fault reference)) (performed fault (.consume reference phase))
      w.issued).HoldsConsume reference (phase.answer w.stores fault reference) := by
  have holds : w.HoldsConsume reference phase := sound.holds i _ found
  have moves : Moves w i (.consume reference phase) (.consume reference (phase.answer w.stores fault reference))
      (performed fault (.consume reference phase)) w.issued := sound.consume_perform found
  have later := moves.later sound
  have kept (after : ConsumePhase) (holds : w.HoldsConsume reference after) :
      (w.moved i (.consume reference (phase.answer w.stores fault reference)) (performed fault (.consume reference phase))
        w.issued).HoldsConsume reference after := later.holdsConsume holds
  cases phase with
  | resolving phase => exact kept (.resolving _) (sound.holdsResolve_answer holds)
  | settled result => exact kept _ holds
  | deleting record replied => cases replied <;> exact kept (.deleting record _) holds
  | marking record consumedAt replied =>
    cases replied with
    | some answer => exact kept _ holds
    | none =>
      obtain ⟨created, same, -⟩ := holds
      refine ⟨later.created created, same, fun replied => ⟨later.created created, fun stored member ref => ?_⟩⟩
      cases fault with
      | some fault => cases replied
      | none =>
        obtain ⟨before, -, rfl⟩ := List.mem_map.mp member
        split
        · exact Option.some_ne_none _
        · rename_i other
          rw [if_neg other] at ref
          exact (other (ref.trans same)).elim

theorem holdsConsume_resume {now : Int} {phase : ConsumePhase} (holds : w.HoldsConsume reference phase) :
    w.HoldsConsume reference (phase.resume now reference) := by
  unfold ConsumePhase.resume
  split
  · rename_i record bytes
    obtain ⟨-, same, known⟩ := holds
    split
    · exact ⟨⟨bytes, known⟩, same, fun replied => by cases replied⟩
    · trivial
  · trivial
  · rename_i phase _ _
    have resolving : w.HoldsResolve reference phase := holds
    exact holdsResolve_resume resolving
  · exact ⟨holds.2.1, holds.2.2 rfl⟩
  · exact holds
  · trivial
  · trivial
  · exact holds

theorem Sound.cleanup_perform (sound : w.Sound) {phase : CleanupPhase} (found : w.calls[i]? = some (.cleanupExpired phase))
    (listed : List StagedAttachmentRecord) :
    Moves w i (.cleanupExpired phase) (.cleanupExpired (phase.answer w.stores fault listed))
      (performed fault (.cleanupExpired phase)) w.issued := by
  have holds : w.HoldsCleanup phase := sound.holds i _ found
  have quiet (idle : (Call.cleanupExpired phase).effect = .none) :
      Moves w i (.cleanupExpired phase) (.cleanupExpired (phase.answer w.stores fault listed))
        (performed fault (.cleanupExpired phase)) w.issued := by
    rw [performed_none idle]
    exact sound.quiet found (fun _ member => member) rfl
  have refused : Moves w i (.cleanupExpired phase) (.cleanupExpired (phase.answer w.stores fault listed)) .none w.issued :=
    sound.quiet found (fun _ member => member) rfl
  cases phase with
  | listing before limit replied => exact quiet rfl
  | settled result => exact quiet rfl
  | deletingBlob count record rest replied =>
    cases replied with
    | some answer => exact quiet rfl
    | none =>
      unfold performed
      split
      · exact refused
      · exact moves_plain found rfl rfl (.sweep record holds.1) (by intro other same; cases same)
          (by intro key bytes same; cases same)
  | deleting count record rest replied =>
    cases replied with
    | some answer => exact quiet rfl
    | none =>
      unfold performed
      split
      · exact refused
      · exact moves_plain found rfl rfl (.remove record holds.1) (by intro other same; cases same)
          (by intro key bytes same; cases same)

theorem Sound.holdsCleanup_answer (sound : w.Sound) {phase : CleanupPhase} (holds : w.HoldsCleanup phase)
    (listed : List StagedAttachmentRecord) : w.HoldsCleanup (phase.answer w.stores fault listed) := by
  unfold CleanupPhase.answer
  split
  · refine ⟨holds.1, fun records replied record member => ?_⟩
    unfold reply at replied
    split at replied
    · cases replied
    · cases replied
      have kept := (List.mem_filter.mp (List.mem_of_mem_take member)).2
      simp only [decide_eq_true_eq] at kept
      exact ⟨sound.records record kept.1, le_trans kept.2 holds.1⟩
  · exact holds
  · exact holds
  · exact holds

theorem holdsCleanup_next {count : Nat} {records : List StagedAttachmentRecord} (spent : ∀ record ∈ records, w.Spent record) :
    w.HoldsCleanup (CleanupPhase.next count records) := by
  cases records with
  | nil => trivial
  | cons record rest => exact ⟨spent record List.mem_cons_self, fun other member => spent other (List.mem_cons_of_mem _ member)⟩

theorem holdsCleanup_resume {phase : CleanupPhase} (holds : w.HoldsCleanup phase) : w.HoldsCleanup phase.resume := by
  unfold CleanupPhase.resume
  split
  · exact holdsCleanup_next (holds.2 _ rfl)
  · exact holds
  · exact holdsCleanup_next holds.2
  · trivial
  · trivial
  · trivial
  · exact holds

end Handrail.Attachments.Staging

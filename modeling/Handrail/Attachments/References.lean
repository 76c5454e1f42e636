import Handrail.Attachments.StagingRuns

/-!
# Returned, consumed and resolved references

What a step makes of the references that calls have returned: a returned reference is that of a stored record that is not
consumed, no two calls have one blob, and a call that does not find one has come too late.
-/

namespace Handrail.Attachments.Staging
open Js Concurrent Stores

variable {limits : StagingLimits} {w v u : Staging} {i j k : Nat} {input other : StageInput}
  {record stored : StagedAttachmentRecord} {call next : Call} {effect : Effect} {found returned : AttachmentReference}

/-! ### References and their records -/

/-- A call of `stage` has returned a reference. -/
def Succeeded (w : Staging) (i : Nat) (input : StageInput) (found : AttachmentReference) : Prop :=
  ∃ record, w.calls[i]? = some (.stage input (.settled record (.ok found)))

/-- A call of `consume` has succeeded. -/
def Consumed (w : Staging) (i : Nat) (contentRef : JsString) : Prop :=
  ∃ input record, w.calls[i]? = some (.consume input (.settled (.ok record))) ∧ input.contentRef = contentRef

def Retained (w : Staging) (found : AttachmentReference) : Prop := ∃ record ∈ w.stores.records, reference record = found

def Expired (w : Staging) (found : AttachmentReference) : Prop :=
  ∃ i input record standing, w.Draft i input record standing ∧ reference record = found ∧ record.expiresAt ≤ w.now

def MarkedConsumed (w : Staging) (found : AttachmentReference) : Prop :=
  ∃ record ∈ w.stores.records, reference record = found ∧ record.consumedAt ≠ none

/-! ### Returned references -/

theorem reference_of_core (same : record.core = stored.core) : reference record = reference stored := by
  have whole : reference record.core = reference stored.core := congrArg reference same
  exact whole

/-- A stored record with the reference that a call has returned is the one that the call has found. -/
theorem Sound.succeeded (sound : w.Sound) (succeeded : w.Succeeded i input found) :
    ∃ record bytes, reference record = found ∧ w.Known record bytes ∧ record.identity = input.identity ∧
      record.fingerprint = input.fingerprint := by
  obtain ⟨draft, at_⟩ := succeeded
  obtain ⟨record, same, ⟨⟨bytes, known⟩, identity⟩, fingerprint⟩ := sound.holds i _ at_
  exact ⟨record, bytes, same, known, identity, fingerprint⟩

theorem Sound.stored_of_success (sound : w.Sound) (succeeded : w.Succeeded i input found) (member : stored ∈ w.stores.records)
    (ref : stored.contentRef = found.contentRef) :
    reference stored = found ∧ stored.identity = input.identity ∧ stored.fingerprint = input.fingerprint := by
  obtain ⟨record, bytes, rfl, known, identity, fingerprint⟩ := sound.succeeded succeeded
  obtain ⟨got, also⟩ := sound.records stored member
  have core := (sound.known_eq also known ref).1
  have print : stored.core.fingerprint = record.core.fingerprint := congrArg StagedAttachmentRecord.fingerprint core
  exact ⟨reference_of_core core, (identity_of_core core).trans identity, print.trans fingerprint⟩

theorem Change.settled (change : Change limits w v) {draft : Option StagedAttachmentRecord}
    {result : Except StagingThrown AttachmentReference} (at_ : w.calls[i]? = some (.stage input (.settled draft result))) :
    v.calls[i]? = some (.stage input (.settled draft result)) := by
  cases change with
  | stay | advance => exact at_
  | begins call begins =>
    rw [List.getElem?_append_left (List.getElem?_eq_some_iff.mp at_).1]
    exact at_
  | moves j call next effect issued moves goes holds =>
    show (w.calls.set j next)[i]? = _
    rw [getElem?_set_found moves.found]
    split
    · rename_i here
      subst here
      cases moves.found.symm.trans at_
      cases goes <;> rfl
    · exact at_

theorem Change.succeeded (change : Change limits w v) (succeeded : w.Succeeded i input found) : v.Succeeded i input found := by
  obtain ⟨draft, at_⟩ := succeeded
  exact ⟨draft, change.settled at_⟩

variable {phase : StagePhase}

theorem found_of_resume {now : Int} {ids : JsString × JsString} {draft : Option StagedAttachmentRecord}
    (settles : phase.resume limits now ids input = .settled draft (.ok found)) :
    phase = .settled draft (.ok found) ∨ ∃ record, phase.found now input = some record ∧ reference record = found := by
  unfold StagePhase.resume at settles
  split at settles
  · rename_i existing
    split at settles
    · cases settles
    · rename_i same
      split at settles
      · cases settles
      · rename_i live
        cases settles
        refine .inr ⟨existing, ?_, rfl⟩
        unfold StagePhase.found
        dsimp only
        rw [if_pos ⟨not_not.mp same, by omega⟩]
  · dsimp only at settles
    split at settles
    · split at settles <;> cases settles
    · cases settles
  · cases settles
  · cases settles
  · rename_i record
    cases settles
    exact .inr ⟨record, rfl, rfl⟩
  · cases settles
  · cases settles
  · rename_i winner
    split at settles
    · rename_i winner' kept
      cases settles
      exact .inr ⟨winner', kept, rfl⟩
    · cases settles
  · cases settles
  · cases settles
  · cases settles
  · cases settles
  · exact .inl settles

/-- What a call of `stage` is about to return is not consumed. -/
def Pending (w : Staging) : Prop :=
  ∀ call ∈ w.calls, ∀ record, w.pends call = some record →
    ∀ stored ∈ w.stores.records, stored.contentRef = record.contentRef → stored.consumedAt = none

theorem found_known (sound : w.Sound) (at_ : w.calls[i]? = some (.stage input phase))
    (finds : phase.found w.now input = some record) : ∃ bytes, w.Known record bytes := by
  have holds : w.HoldsStage input phase := sound.holds i _ at_
  unfold StagePhase.found at finds
  split at finds
  · rename_i existing
    split at finds
    · cases finds
      exact (holds.2 record rfl).1
    · cases finds
  · cases finds
    have draft : w.Draft i input record .placed := ⟨_, at_, rfl⟩
    have core : record.core = record := by
      rw [StagedAttachmentRecord.core, ← (sound.drafts _ _ _ _ draft).1.fresh]
    exact ⟨input.bytes, i, input, by rw [core]; exact draft, rfl⟩
  · obtain ⟨rfl, -⟩ := Option.filter_eq_some_iff.mp finds
    exact (holds record rfl).1
  · cases finds

theorem found_live (timely : w.returnsInTime (.stage input phase) = true)
    (finds : phase.found w.now input = some record) : w.now < record.expiresAt := by
  unfold StagePhase.found at finds
  split at finds
  · split at finds
    · rename_i live
      cases finds
      exact live.2
    · cases finds
  · cases finds
    exact of_decide_eq_true timely
  · have live := (Option.filter_eq_some_iff.mp finds).2
    simp only [decide_eq_true_eq] at live
    exact live.2
  · cases finds

/-- What `stage` returns in time is stored and is not consumed. -/
theorem Sound.returned_fresh (sound : w.Sound) (pending : w.Pending)
    (at_ : w.calls[i]? = some (.stage input phase)) (timely : w.returnsInTime (.stage input phase) = true)
    (finds : phase.found w.now input = some record) :
    ∃ stored ∈ w.stores.records, stored.contentRef = record.contentRef ∧ stored.consumedAt = none := by
  obtain ⟨bytes, known⟩ := found_known sound at_ finds
  rcases sound.held known with expired | ⟨stored, member, core, -⟩
  · have live := found_live timely finds
    have late : record.expiresAt ≤ w.now := expired
    omega
  · have ref : stored.contentRef = record.contentRef := contentRef_of_core core
    exact ⟨stored, member, ref, pending _ (List.mem_of_getElem? at_) record finds stored member ref⟩

/-- A call that has not returned yet returns a reference whose record is stored and is not consumed. -/
theorem Change.returns (change : Change limits w v) (sound : w.Sound) (pending : w.Pending)
    (succeeded : v.Succeeded j input found) :
    w.Succeeded j input found ∨ (v.stores = w.stores ∧
      ∃ stored ∈ w.stores.records, stored.contentRef = found.contentRef ∧ stored.consumedAt = none) := by
  obtain ⟨draft, at_⟩ := succeeded
  cases change with
  | stay | advance => exact .inl ⟨draft, at_⟩
  | begins call begins =>
    rcases getElem?_concat_cases at_ with old | ⟨-, new⟩
    · exact .inl ⟨draft, old⟩
    · subst new
      generalize same : Call.stage input (.settled draft (.ok found)) = call at begins
      cases begins with
      | stage other =>
        injection same with inputs phases
        unfold Attachments.stage at phases
        split at phases <;> cases phases
      | _ => cases same
  | moves i call next effect issued moves goes holds =>
    have here : (w.calls.set i next)[j]? = some (.stage input (.settled draft (.ok found))) := at_
    rw [getElem?_set_found moves.found] at here
    split at here
    · rename_i same
      subst same
      injection here with here
      cases goes with
      | answered fault listed allowed =>
        cases call with
        | stage own phase =>
          injection here with inputs phases
          subst inputs
          have unchanged : phase = .settled draft (.ok found) := by
            unfold StagePhase.answer at phases
            split at phases
            · cases phases
            · cases phases
            · cases phases
            · cases phases
            · cases phases
            · exact phases
          exact .inl ⟨draft, by rw [← unchanged]; exact moves.found⟩
        | _ => cases here
      | resumed ids timely =>
        cases call with
        | stage own phase =>
          injection here with inputs phases
          subst inputs
          rcases found_of_resume phases with unchanged | ⟨record, about, same⟩
          · exact .inl ⟨draft, by rw [← unchanged]; exact moves.found⟩
          · obtain ⟨stored, member, ref, fresh⟩ := sound.returned_fresh pending moves.found timely about
            exact .inr ⟨rfl, stored, member, ref.trans (congrArg AttachmentReference.contentRef same), fresh⟩
        | _ => cases here
    · exact .inl ⟨draft, here⟩

theorem Change.retained (change : Change limits w v) (sound : w.Sound) (succeeded : w.Succeeded i input found)
    (retained : v.Retained found) : w.Retained found := by
  cases change with
  | stay | advance | begins => exact retained
  | moves j call next effect issued moves goes holds =>
    obtain ⟨stored, member, same⟩ := retained
    rcases records_apply effect member with ⟨before, was, core, -⟩ | ⟨creates, -⟩
    · exact ⟨before, was, (reference_of_core core).trans same⟩
    · obtain ⟨creator, blob, draft⟩ := lawful_create moves.lawful creates
      obtain ⟨record, bytes, named, known, -, -⟩ := sound.succeeded succeeded
      have ref : record.contentRef = stored.contentRef := congrArg AttachmentReference.contentRef (named.trans same.symm)
      cases (sound.known_draft known draft ref).2.1

/-! ### Consumed references -/

variable {contentRef : JsString}

theorem Change.consumed (change : Change limits w v) (consumed : w.Consumed i contentRef) :
    v.Consumed i contentRef := by
  obtain ⟨input, record, at_, same⟩ := consumed
  refine ⟨input, record, ?_, same⟩
  cases change with
  | stay | advance => exact at_
  | begins call begins =>
    rw [List.getElem?_append_left (List.getElem?_eq_some_iff.mp at_).1]
    exact at_
  | moves j call next effect issued moves goes holds =>
    show (w.calls.set j next)[i]? = _
    rw [getElem?_set_found moves.found]
    split
    · rename_i here
      subst here
      cases moves.found.symm.trans at_
      cases goes <;> rfl
    · exact at_

theorem Sound.consumed (sound : w.Sound) (consumed : w.Consumed i contentRef)
    (member : stored ∈ w.stores.records) (same : stored.contentRef = contentRef) : stored.consumedAt ≠ none := by
  obtain ⟨input, record, at_, ref⟩ := consumed
  obtain ⟨own, -, marked⟩ := sound.holds i _ at_
  exact marked stored member (same.trans (ref.symm.trans own.symm))

/-- The reference whose blob a call of `consume` has read, unless it has failed since. -/
def held (call : Call) : Option JsString := call.reading.or call.deleted

/-- No two calls of `consume` have read one blob, and a deleted blob stays away. -/
structure Alone (w : Staging) : Prop where
  single : ∀ (i j : Nat) (first second : Call) (contentRef : JsString), w.calls[i]? = some first →
    w.calls[j]? = some second → held first = some contentRef → held second = some contentRef → i = j
  gone : ∀ call ∈ w.calls, ∀ contentRef, call.deleted = some contentRef → w.stores.blobs (blobKeyOf contentRef) = none

theorem deleted_known (sound : w.Sound) (at_ : w.calls[i]? = some call)
    (deletes : call.deleted = some contentRef) : ∃ record bytes, w.Known record bytes ∧ record.contentRef = contentRef := by
  have holds : w.Holds call := sound.holds i call at_
  unfold Call.deleted at deletes
  split at deletes
  · rename_i record _
    cases deletes
    obtain ⟨same, ⟨⟨bytes, known⟩, -⟩⟩ := holds
    exact ⟨record, bytes, known, same⟩
  · rename_i record
    cases deletes
    obtain ⟨same, ⟨⟨bytes, known⟩, -⟩⟩ := holds
    exact ⟨record, bytes, known, same⟩
  · cases deletes

/-- No blob is put again for a record that was created. -/
theorem Sound.stays_gone (sound : w.Sound) (lawful : Lawful w i effect) {bytes : Bytes} (known : w.Known record bytes)
    (absent : w.stores.blobs (blobKeyOf record.contentRef) = none) :
    (w.stores.apply effect).blobs (blobKeyOf record.contentRef) = none := by
  cases there : (w.stores.apply effect).blobs (blobKeyOf record.contentRef) with
  | none => rfl
  | some got =>
    rcases blobs_before there with before | puts
    · cases before.symm.trans absent
    · cases lawful with
      | put other draft blob made =>
        injection puts with key
        rw [(sound.drafts _ _ _ _ made).1.blobKey] at key
        cases (sound.known_draft known made (append_injective _ key).symm).2.1
      | _ => cases puts

theorem goes_deleted (sound : w.Sound) (at_ : w.calls[i]? = some call) (goes : Goes limits w call next effect)
    (deletes : next.deleted = some contentRef) :
    call.deleted = some contentRef ∨ effect = .deleteBlob (blobKeyOf contentRef) := by
  have holds : w.Holds call := sound.holds i call at_
  cases goes with
  | answered fault listed allowed =>
    cases call with
    | consume input phase =>
      have kept : (Call.consume input (phase.answer w.stores fault input)).deleted = some contentRef := deletes
      unfold ConsumePhase.answer at kept
      split at kept
      · cases kept
      · cases kept
      · rename_i record
        cases fault with
        | some fault => cases kept
        | none =>
          cases kept
          obtain ⟨same, ⟨⟨bytes, known⟩, -⟩⟩ := holds
          refine .inr ?_
          rw [← same, ← sound.known_blobKey known]
          rfl
      · exact .inl kept
    | _ => cases deletes
  | resumed ids timely =>
    cases call with
    | consume input phase =>
      have kept : (Call.consume input (phase.resume w.now input)).deleted = some contentRef := deletes
      unfold ConsumePhase.resume at kept
      split at kept
      · split at kept <;> cases kept
      · cases kept
      · cases kept
      · cases kept
      · exact .inl kept
      · cases kept
      · cases kept
      · exact .inl kept
    | _ => cases deletes

/-- A blob that a call reads was read by nobody else, and is deleted by nobody. -/
theorem goes_held (sound : w.Sound) (alone : w.Alone) (at_ : w.calls[i]? = some call)
    (goes : Goes limits w call next effect) (holder : held next = some contentRef) :
    held call = some contentRef ∨ ∀ other ∈ w.calls, held other ≠ some contentRef := by
  have holds : w.Holds call := sound.holds i call at_
  cases goes with
  | answered fault listed allowed =>
    cases call with
    | consume input phase =>
      have kept : held (Call.consume input (phase.answer w.stores fault input)) = some contentRef := holder
      unfold ConsumePhase.answer at kept
      split at kept
      · rename_i resolving
        unfold ResolvePhase.answer at kept
        split at kept
        · cases kept
        · rename_i record
          obtain ⟨owned, same, bytes, known, -⟩ := holds
          cases fault with
          | some fault => cases kept
          | none =>
            cases read : w.stores.blobs record.blobKey with
            | none =>
              rw [read] at kept
              cases kept
            | some got =>
              rw [read] at kept
              cases kept
              have nobody : ∀ other ∈ w.calls, ¬other.reading = some input.contentRef := by
                simpa [allows, read] using allowed
              refine .inr fun other member holder => ?_
              rcases Option.or_eq_some_iff.mp holder with reads | ⟨-, deletes⟩
              · exact nobody other member reads
              · have absent := alone.gone other member _ deletes
                rw [← same, ← sound.known_blobKey known, read] at absent
                cases absent
        · exact .inl kept
      · rename_i record consumedAt
        cases fault with
        | some fault => cases kept
        | none => exact .inl kept
      · rename_i record
        cases fault with
        | some fault => cases kept
        | none => exact .inl kept
      · exact .inl kept
    | _ => cases holder
  | resumed ids timely =>
    cases call with
    | consume input phase =>
      have kept : held (Call.consume input (phase.resume w.now input)) = some contentRef := holder
      unfold ConsumePhase.resume at kept
      split at kept
      · split at kept
        · exact .inl kept
        · cases kept
      · cases kept
      · rename_i resolving open_ closed
        unfold ResolvePhase.resume at kept
        split at kept
        · cases kept
        · split at kept
          · cases kept
          · split at kept
            · cases kept
            · split at kept <;> cases kept
        · cases kept
        · exact .inl kept
        · cases kept
        · cases kept
        · exact .inl kept
      · exact .inl kept
      · exact .inl kept
      · cases kept
      · cases kept
      · exact .inl kept
    | _ => cases holder

theorem begins_held (begins : Begins limits w call) : held call = none := by
  cases begins with
  | consume input =>
    unfold Attachments.consume Attachments.resolve
    split <;> rfl
  | _ => rfl

theorem Change.alone (change : Change limits w v) (sound : w.Sound) (alone : w.Alone) : v.Alone := by
  cases change with
  | stay | advance => exact ⟨alone.single, alone.gone⟩
  | begins call begins =>
    have idle := begins_held begins
    refine ⟨fun i j first second contentRef at_ also holder again => ?_, fun other member contentRef deletes => ?_⟩
    · rcases getElem?_concat_cases at_ with old | ⟨-, rfl⟩
      · rcases getElem?_concat_cases also with older | ⟨-, rfl⟩
        · exact alone.single i j first second contentRef old older holder again
        · cases idle.symm.trans again
      · cases idle.symm.trans holder
    · rcases List.mem_append.mp member with old | new
      · exact alone.gone other old contentRef deletes
      · cases List.mem_singleton.mp new
        cases (Option.or_eq_none_iff.mp idle).2.symm.trans deletes
  | moves k call next effect issued moves goes holds =>
    -- The blob that the call has read was its own before, or nobody's.
    have across {j : Nat} {other : Call} {contentRef : JsString} (at_ : w.calls[j]? = some other)
        (holder : held next = some contentRef) (also : held other = some contentRef) : k = j := by
      rcases goes_held sound alone moves.found goes holder with own | nobody
      · exact alone.single k j call other contentRef moves.found at_ own also
      · exact (nobody other (List.mem_of_getElem? at_) also).elim
    refine ⟨fun i j first second contentRef at_ also holder again => ?_, fun other member contentRef deletes => ?_⟩
    · have here : (w.calls.set k next)[i]? = some first := at_
      have there : (w.calls.set k next)[j]? = some second := also
      rw [getElem?_set_found moves.found] at here there
      split at here
      · rename_i same
        cases here
        split at there
        · rename_i too
          exact same.symm.trans too
        · exact same.symm.trans (across there holder again)
      · split at there
        · rename_i too
          cases there
          exact (across here again holder).symm.trans too
        · exact alone.single i j first second contentRef here there holder again
    · have stays {i : Nat} {other : Call} (at_ : w.calls[i]? = some other) (deletes : other.deleted = some contentRef) :
          (w.stores.apply effect).blobs (blobKeyOf contentRef) = none := by
        obtain ⟨record, bytes, known, same⟩ := deleted_known sound at_ deletes
        have absent := alone.gone other (List.mem_of_getElem? at_) contentRef deletes
        rw [← same] at absent ⊢
        exact sound.stays_gone moves.lawful known absent
      rcases List.mem_or_eq_of_mem_set member with before | rfl
      · obtain ⟨i, at_⟩ := List.getElem?_of_mem before
        exact stays at_ deletes
      · rcases goes_deleted sound moves.found goes deletes with own | removes
        · exact stays moves.found own
        · show (w.stores.apply effect).blobs _ = none
          rw [removes]
          exact if_pos rfl

/-! ### References that are about to be returned -/

theorem found_earlier {now later : Int} (passes : now ≤ later) (finds : phase.found later input = some record) :
    phase.found now input = some record := by
  unfold StagePhase.found at finds ⊢
  split at finds
  · split at finds
    · rename_i live
      rw [if_pos ⟨live.1, lt_of_le_of_lt passes live.2⟩]
      exact finds
    · cases finds
  · exact finds
  · obtain ⟨same, live⟩ := Option.filter_eq_some_iff.mp finds
    simp only [decide_eq_true_eq] at live
    exact Option.filter_eq_some_iff.mpr ⟨same, by simpa using ⟨live.1, lt_of_le_of_lt passes live.2⟩⟩
  · cases finds

theorem found_reply {now : Int} {s : Stores} {fault : Option Fault}
    (finds : (phase.answer s fault input).found now input = some record) :
    phase.found now input = some record ∨
    ((phase = .looking none ∨ ∃ draft, phase = .lookingAgain draft none) ∧ fault = none ∧
      s.getByIdempotency input.ownerScopeId input.conversationId input.idempotencyKey = some record ∧
      record.fingerprint = input.fingerprint ∧ now < record.expiresAt) ∨
    (phase = .creating record none ∧ fault = none ∧ s.hasIdentity record = false) := by
  unfold StagePhase.answer at finds
  split at finds
  · cases fault with
    | some fault => cases finds
    | none =>
      cases read : s.getByIdempotency input.ownerScopeId input.conversationId input.idempotencyKey with
      | none =>
        rw [read] at finds
        cases finds
      | some existing =>
        rw [read] at finds
        replace finds : (if existing.fingerprint = input.fingerprint ∧ now < existing.expiresAt then some existing else none) =
          some record := finds
        split at finds
        · rename_i live
          cases finds
          exact .inr (.inl ⟨.inl rfl, rfl, rfl, live⟩)
        · cases finds
  · cases fault <;> cases finds
  · rename_i draft
    cases fault with
    | some fault => cases finds
    | none =>
      cases taken : s.hasIdentity draft with
      | true =>
        rw [taken] at finds
        cases finds
      | false =>
        rw [taken] at finds
        cases finds
        exact .inr (.inr ⟨rfl, rfl, taken⟩)
  · cases fault <;> cases finds
  · rename_i draft
    cases fault with
    | some fault => cases finds
    | none =>
      obtain ⟨read, live⟩ := Option.filter_eq_some_iff.mp finds
      simp only [decide_eq_true_eq] at live
      exact .inr (.inl ⟨.inr ⟨draft, rfl⟩, rfl, read, live⟩)
  · exact .inl finds

theorem resumed_found {now : Int} {ids : JsString × JsString}
    (finds : (phase.resume limits now ids input).found now input = some record) : phase.found now input = some record := by
  unfold StagePhase.resume at finds
  split at finds
  · split at finds
    · cases finds
    · split at finds <;> cases finds
  · dsimp only at finds
    split at finds
    · split at finds <;> cases finds
    · cases finds
  · cases finds
  · cases finds
  · cases finds
  · cases finds
  · cases finds
  · split at finds <;> cases finds
  · cases finds
  · cases finds
  · cases finds
  · cases finds
  · exact finds

theorem fresh_apply {s : Stores}
    (fresh : ∀ stored ∈ s.records, stored.contentRef = contentRef → stored.consumedAt = none)
    (unmarked : ∀ consumedAt, effect ≠ .markConsumed contentRef consumedAt)
    (creates : ∀ created, effect = .create created → created.consumedAt = none) :
    ∀ stored ∈ (s.apply effect).records, stored.contentRef = contentRef → stored.consumedAt = none := by
  intro stored member same
  cases effect with
  | none | put | deleteBlob => exact fresh stored member same
  | create created =>
    unfold Stores.apply at member
    dsimp only at member
    split at member
    · exact fresh stored member same
    · rcases List.mem_append.mp member with old | new
      · exact fresh stored old same
      · cases List.mem_singleton.mp new
        exact creates stored rfl
  | markConsumed other consumedAt =>
    obtain ⟨before, was, changed⟩ := List.mem_map.mp member
    split at changed
    · rename_i here
      rw [← changed] at same
      exact (unmarked consumedAt (by rw [← same, ← here])).elim
    · rw [changed] at was
      exact fresh stored was same
  | delete other => exact fresh stored (List.mem_filter.mp member).1 same

theorem goes_mark (goes : Goes limits w call next effect) {consumedAt : Int}
    (marks : effect = .markConsumed contentRef consumedAt) :
    ∀ other ∈ w.calls, ∀ record, w.pends other = some record → record.contentRef ≠ contentRef := by
  cases goes with
  | resumed ids timely => cases marks
  | answered fault listed allowed =>
    unfold performed at marks
    split at marks
    · cases marks
    · rename_i occurs
      cases call with
      | resolve => cases marks
      | stage input phase =>
        unfold Call.effect StagePhase.effect at marks
        dsimp only at marks
        split at marks <;> cases marks
      | cleanupExpired phase =>
        unfold Call.effect CleanupPhase.effect at marks
        dsimp only at marks
        split at marks <;> cases marks
      | consume input phase =>
        unfold Call.effect ConsumePhase.effect at marks
        dsimp only at marks
        split at marks
        · cases marks
          simp only [allows, occurs, decide_false, Bool.false_or, List.all_eq_true, Option.all_eq_true,
            decide_eq_true_eq] at allowed
          exact allowed
        · cases marks
        · cases marks

/-- What a call finds is not consumed. -/
theorem goes_pends (sound : w.Sound) (at_ : w.calls[i]? = some call)
    (goes : Goes limits w call next effect) (finds : w.pends next = some record) :
    w.pends call = some record ∨
      ∀ stored ∈ (w.stores.apply effect).records, stored.contentRef = record.contentRef → stored.consumedAt = none := by
  cases goes with
  | resumed ids timely =>
    cases call with
    | stage input phase => exact .inl (resumed_found finds)
    | _ => cases finds
  | answered fault listed allowed =>
    cases call with
    | stage input phase =>
      rcases found_reply finds with before | ⟨looks, rfl, read, same, live⟩ | ⟨rfl, rfl, free⟩
      · exact .inl before
      · obtain ⟨idle, fresh⟩ : (Call.stage input phase).effect = .none ∧ w.findsFresh none input = true := by
          rcases looks with rfl | ⟨draft, rfl⟩ <;> exact ⟨rfl, allowed⟩
        have unread : record.consumedAt = none := by
          simpa [findsFresh, read, same, not_le.mpr live] using fresh
        rw [performed_none idle]
        refine .inr fun stored member ref => ?_
        rw [sound.stored_eq member (find?_identity read).1 ref]
        exact unread
      · have draft : w.Draft i input record (.unplaced (some input.bytes)) := ⟨_, at_, rfl⟩
        obtain ⟨drafted, absent, -⟩ := sound.drafts _ _ _ _ draft
        refine .inr (fresh_apply (fun stored member ref => (absent stored member ref).elim) ?_ ?_)
        · exact fun consumedAt marks => by cases marks
        · intro created creates
          cases creates
          exact drafted.fresh
    | _ => cases finds

theorem Change.pending (change : Change limits w v) (sound : w.Sound) (pending : w.Pending) : v.Pending := by
  cases change with
  | stay => exact pending
  | advance milliseconds =>
    intro call member record finds
    refine pending call member record ?_
    cases call with
    | stage input phase => exact found_earlier (by dsimp only; omega) finds
    | _ => cases finds
  | begins call begins =>
    intro other member record finds
    rcases List.mem_append.mp member with old | new
    · exact pending other old record finds
    · cases List.mem_singleton.mp new
      cases begins with
      | stage input =>
        have looks : (Attachments.stage limits input).found w.now input = some record := finds
        unfold Attachments.stage at looks
        split at looks <;> cases looks
      | _ => cases finds
  | moves i call next effect issued moves goes holds =>
    have stays {other : Call} {record : StagedAttachmentRecord} (member : other ∈ w.calls) (finds : w.pends other = some record) :
        ∀ stored ∈ (w.stores.apply effect).records, stored.contentRef = record.contentRef → stored.consumedAt = none := by
      refine fresh_apply (pending other member record finds) (fun consumedAt marks => ?_) fun created creates => ?_
      · exact goes_mark goes marks other member record finds rfl
      · obtain ⟨input, blob, draft⟩ := lawful_create moves.lawful creates
        exact (sound.drafts _ _ _ _ draft).1.fresh
    intro other member record finds
    rcases List.mem_or_eq_of_mem_set member with before | rfl
    · exact stays before finds
    · rcases goes_pends sound moves.found goes finds with own | fresh
      · exact stays (List.mem_of_getElem? moves.found) own
      · exact fresh

/-! ### References that resolve -/

def Gone (w : Staging) (record : StagedAttachmentRecord) : Prop := record.expiresAt ≤ w.now ∨ w.Marked record

def Trusts (w : Staging) (record : StagedAttachmentRecord) : ResolvePhase → Prop
  | .looking (some (.ok none)) | .getting _ (some (.ok none)) => w.Gone record
  | .settled (.error thrown) => thrown = .store ∨ w.Gone record
  | _ => True

structure Addresses (reference : ReferenceInput) (record : StagedAttachmentRecord) : Prop where
  contentRef : record.contentRef = reference.contentRef
  owned : owns record reference = true
  safe : safeId reference.ownerScopeId = true ∧ safeId reference.conversationId = true ∧ safeId reference.contentRef = true

theorem Later.gone (later : w.Later v) (gone : w.Gone record) : v.Gone record :=
  gone.imp (fun expired => le_trans expired later.now) (later.marked record)

theorem Later.trusts (later : w.Later v) {phase : ResolvePhase} (trusts : w.Trusts record phase) : v.Trusts record phase := by
  unfold Trusts at trusts ⊢
  split at trusts
  · exact later.gone trusts
  · exact later.gone trusts
  · exact trusts.imp id later.gone
  · trivial

variable {reference : ReferenceInput} {fault : Option Fault} {bytes : Bytes}

/-- A created record that the store does not have, or whose blob it does not have, is gone. -/
theorem Sound.gone_of_absent (sound : w.Sound) (known : w.Known record bytes)
    (absent : w.stores.getByContentRef record.contentRef = none) : w.Gone record := by
  rcases sound.held known with expired | ⟨stored, member, core, -⟩
  · exact .inl expired
  · have ref : stored.contentRef = record.contentRef := contentRef_of_core core
    have matched := List.find?_eq_none.mp absent stored member
    rw [ref, beq_self_eq_true] at matched
    exact (matched rfl).elim

theorem Sound.gone_of_empty (sound : w.Sound) (known : w.Known record bytes) (empty : w.stores.blobs record.blobKey = none) :
    w.Gone record := by
  rcases sound.held known with expired | ⟨stored, member, core, blob⟩
  · exact .inl expired
  · have ref : stored.contentRef = record.contentRef := contentRef_of_core core
    refine .inr ⟨⟨bytes, known⟩, fun again also same fresh => ?_⟩
    rw [sound.stored_eq also member (same.trans ref.symm)] at fresh
    have there : w.stores.blobs record.blobKey = some bytes := blob fresh
    rw [empty] at there
    cases there

theorem Sound.trusts_answer (sound : w.Sound) (known : w.Known record bytes) (addressed : Addresses reference record)
    {phase : ResolvePhase} (holds : w.HoldsResolve reference phase) (trusts : w.Trusts record phase) :
    w.Trusts record (phase.answer w.stores fault reference) := by
  unfold ResolvePhase.answer
  split
  · unfold reply
    split
    · trivial
    · cases read : w.stores.getByContentRef reference.contentRef with
      | some other => trivial
      | none =>
        rw [← addressed.contentRef] at read
        exact sound.gone_of_absent known read
  · rename_i other
    obtain ⟨-, same, got, also, -⟩ := holds
    have core := (sound.known_eq also known (same.trans addressed.contentRef.symm)).1
    have key : other.core.blobKey = record.core.blobKey := congrArg StagedAttachmentRecord.blobKey core
    unfold reply
    split
    · trivial
    · cases read : w.stores.blobs other.blobKey with
      | some bytes => trivial
      | none =>
        have empty : w.stores.blobs record.blobKey = none := (congrArg w.stores.blobs key).symm.trans read
        exact sound.gone_of_empty known empty
  · exact trusts

theorem Sound.trusts_resume (sound : w.Sound) (known : w.Known record bytes) (addressed : Addresses reference record)
    {phase : ResolvePhase} (holds : w.HoldsResolve reference phase) (trusts : w.Trusts record phase) :
    w.Trusts record (phase.resume w.now reference) := by
  unfold ResolvePhase.resume
  split
  · exact .inr trusts
  · rename_i other
    obtain ⟨⟨got, also⟩, same⟩ := holds other rfl
    have core := (sound.known_eq also known (same.trans addressed.contentRef.symm)).1
    have owned : owns other.core reference = true := by
      rw [core]
      exact addressed.owned
    split
    · rename_i invalid
      rw [addressed.safe.1, addressed.safe.2.1] at invalid
      cases invalid
    · split
      · rename_i foreign
        have same : owns other.core reference = owns other reference := rfl
        rw [← same, owned] at foreign
        cases foreign
      · split
        · rename_i expired
          have time : other.core.expiresAt = record.core.expiresAt := congrArg StagedAttachmentRecord.expiresAt core
          have late : record.expiresAt ≤ w.now := le_trans (le_of_eq time.symm) expired
          exact .inr (.inl late)
        · trivial
  · exact .inr trusts
  · trivial
  · exact .inl rfl
  · exact .inl rfl
  · exact trusts

theorem Change.trusts (change : Change limits w v) (sound : w.Sound) (known : w.Known record bytes)
    (addressed : Addresses reference record)
    (trusts : ∀ phase, w.calls[k]? = some (.resolve reference phase) → w.Trusts record phase) {phase : ResolvePhase}
    (at_ : v.calls[k]? = some (.resolve reference phase)) : v.Trusts record phase := by
  have later := (change.sound sound).1
  cases change with
  | stay | advance => exact later.trusts (trusts phase at_)
  | begins call begins =>
    rcases getElem?_concat_cases at_ with old | ⟨-, new⟩
    · exact later.trusts (trusts phase old)
    · subst new
      generalize same : Call.resolve reference phase = call at begins
      cases begins with
      | resolve other =>
        cases same
        unfold Attachments.resolve
        rw [if_pos addressed.safe.2.2]
        trivial
      | _ => cases same
  | moves j call next effect issued moves goes holds =>
    have here : (w.calls.set j next)[k]? = some (.resolve reference phase) := at_
    rw [getElem?_set_found moves.found] at here
    split at here
    · rename_i same
      subst same
      injection here with here
      cases call with
      | resolve own before =>
        cases goes with
        | answered fault listed allowed =>
          injection here with inputs phases
          subst inputs phases
          have held : w.HoldsResolve own before := sound.holds j _ moves.found
          exact later.trusts (sound.trusts_answer known addressed held (trusts before moves.found))
        | resumed ids timely =>
          injection here with inputs phases
          subst inputs phases
          have held : w.HoldsResolve own before := sound.holds j _ moves.found
          exact later.trusts (sound.trusts_resume known addressed held (trusts before moves.found))
      | _ => cases goes <;> cases here
    · exact later.trusts (trusts phase here)

end Handrail.Attachments.Staging

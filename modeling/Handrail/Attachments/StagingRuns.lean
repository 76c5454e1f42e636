import Handrail.Attachments.StagingSteps

/-!
# Runs of attachment staging

The calls of one service in any order. A run is met when no blob stays behind a failed operation, no `consume` reads a blob
that another one has read and not deleted yet, and no record is consumed when a `stage` finds it and until it returns.
-/

namespace Handrail.Attachments
open Js Concurrent Stores

def StagePhase.found (now : Int) (input : StageInput) : StagePhase → Option StagedAttachmentRecord
  | .looking (some (.ok (some existing))) =>
    if existing.fingerprint = input.fingerprint ∧ now < existing.expiresAt then some existing else none
  | .creating record (some (.ok .created)) => some record
  | .lookingAgain _ (some (.ok winner)) =>
    winner.filter fun winner => winner.fingerprint = input.fingerprint ∧ now < winner.expiresAt
  | _ => none

/-- The reference whose blob a call of `consume` has read and not deleted, unless it has failed since. -/
def Call.reading : Call → Option JsString
  | .consume input (.resolving (.getting _ (some (.ok (some _))))) | .consume input (.resolving (.settled (.ok _)))
  | .consume input (.marking _ _ none) | .consume input (.marking _ _ (some (.ok _))) | .consume input (.deleting _ none) =>
    some input.contentRef
  | _ => none

/-- The reference whose blob a call of `consume` has deleted. -/
def Call.deleted : Call → Option JsString
  | .consume input (.deleting _ (some (.ok _))) | .consume input (.settled (.ok _)) => some input.contentRef
  | _ => none

namespace Staging

variable {limits : StagingLimits} {w v : Staging} {i j : Nat} {input : StageInput} {record : StagedAttachmentRecord}
  {call next : Call} {effect : Effect} {issued : List JsString} {fault : Option Fault} {action : StagingAction}

def leaves (fault : Option Fault) : Call → Bool
  | .stage _ phase => leavesNothing fault phase
  | _ => true

/-- The record that a call of `stage` returns when it goes on. -/
def pends (w : Staging) : Call → Option StagedAttachmentRecord
  | .stage input phase => phase.found w.now input
  | _ => none

/-- The record that `stage` would return is not consumed when it is found. -/
def findsFresh (w : Staging) (fault : Option Fault) (input : StageInput) : Bool :=
  fault.isSome || (w.stores.getByIdempotency input.ownerScopeId input.conversationId input.idempotencyKey).all fun record =>
    record.fingerprint ≠ input.fingerprint || record.expiresAt ≤ w.now || record.consumedAt.isNone

def allows (w : Staging) (fault : Option Fault) : Call → Bool
  | .stage input (.looking none) | .stage input (.lookingAgain _ none) => w.findsFresh fault input
  | .consume input (.resolving (.getting record none)) =>
    fault.isSome || (w.stores.blobs record.blobKey).isNone || w.calls.all fun other => other.reading ≠ some input.contentRef
  | .consume input (.marking _ _ none) =>
    fault = some .refused || w.calls.all fun other => (w.pends other).all fun record => record.contentRef ≠ input.contentRef
  | _ => true

/-- The record that `stage` has created has not expired when it returns. -/
def returnsInTime (w : Staging) : Call → Bool
  | .stage _ (.creating record (some (.ok .created))) => w.now < record.expiresAt
  | _ => true

def meets (w : Staging) : StagingAction → Bool
  | .perform i fault _ => (w.calls[i]?).all fun call => leaves fault call && w.allows fault call
  | .resume i _ => (w.calls[i]?).all w.returnsInTime
  | _ => true

/-! ### What one step does -/

inductive Begins (limits : StagingLimits) (w : Staging) : Call → Prop
  | stage (input : StageInput) : Begins limits w (.stage input (Attachments.stage limits input))
  | resolve (input : ReferenceInput) : Begins limits w (.resolve input (Attachments.resolve input))
  | consume (input : ReferenceInput) : Begins limits w (.consume input (Attachments.consume input))
  | cleanupExpired : Begins limits w (.cleanupExpired (Attachments.cleanupExpired limits w.now))

inductive Goes (limits : StagingLimits) (w : Staging) (call : Call) : Call → Effect → Prop
  | answered (fault : Option Fault) (listed : List StagedAttachmentRecord) (allowed : w.allows fault call = true) :
    Goes limits w call (call.answer w.stores fault listed) (performed fault call)
  | resumed (ids : JsString × JsString) (timely : w.returnsInTime call = true) :
    Goes limits w call (call.resume limits w.now ids) .none

inductive Change (limits : StagingLimits) (w : Staging) : Staging → Prop
  | stay : Change limits w w
  | advance (milliseconds : Nat) : Change limits w { w with now := w.now + milliseconds }
  | begins (call : Call) (begins : Begins limits w call) : Change limits w { w with calls := w.calls ++ [call] }
  | moves (i : Nat) (call next : Call) (effect : Effect) (issued : List JsString) (moves : Moves w i call next effect issued)
    (goes : Goes limits w call next effect) (holds : (w.moved i next effect issued).Holds next) :
    Change limits w (w.moved i next effect issued)

theorem Sound.performs (sound : w.Sound) (found : w.calls[i]? = some call) (left : leaves fault call = true)
    (allowed : w.allows fault call = true) (listed : List StagedAttachmentRecord) :
    Change limits w (w.moved i (call.answer w.stores fault listed) (performed fault call) w.issued) := by
  have holds : w.Holds call := sound.holds i call found
  cases call with
  | stage input phase =>
    have moves : Moves w i (.stage input phase) (.stage input (phase.answer w.stores fault input))
        (performed fault (.stage input phase)) w.issued := sound.stage_perform found left
    exact .moves i _ _ _ _ moves (.answered fault listed allowed) ((moves.later sound).holdsStage (sound.holdsStage_answer holds))
  | resolve input phase =>
    have moves : Moves w i (.resolve input phase) (.resolve input (phase.answer w.stores fault input)) .none w.issued :=
      sound.quiet found (fun _ member => member) rfl
    have idle : performed fault (.resolve input phase) = .none := performed_none rfl
    have goes : Goes limits w (.resolve input phase) (.resolve input (phase.answer w.stores fault input)) .none := by
      rw [← idle]
      exact .answered fault listed allowed
    rw [idle]
    exact .moves i _ _ _ _ moves goes ((moves.later sound).holdsResolve (sound.holdsResolve_answer holds))
  | consume input phase =>
    exact .moves i _ _ _ _ (sound.consume_perform found) (.answered fault listed allowed) (sound.holdsConsume_answer found)
  | cleanupExpired phase =>
    have moves : Moves w i (.cleanupExpired phase) (.cleanupExpired (phase.answer w.stores fault listed))
        (performed fault (.cleanupExpired phase)) w.issued := sound.cleanup_perform found listed
    exact .moves i _ _ _ _ moves (.answered fault listed allowed)
      ((moves.later sound).holdsCleanup (sound.holdsCleanup_answer holds listed))

theorem Sound.resumes (sound : w.Sound) (found : w.calls[i]? = some call) (timely : w.returnsInTime call = true)
    {ids : JsString × JsString} (fresh : ids.2 ∉ w.issued) :
    Change limits w (w.moved i (call.resume limits w.now ids) .none (ids.1 :: ids.2 :: w.issued)) := by
  have holds : w.Holds call := sound.holds i call found
  have quiet (next : Call) (same : next.draft = call.draft) : Moves w i call next .none (ids.1 :: ids.2 :: w.issued) :=
    sound.quiet found (fun _ member => List.mem_cons_of_mem _ (List.mem_cons_of_mem _ member)) same
  cases call with
  | stage input phase =>
    have moves : Moves w i (.stage input phase) (.stage input (phase.resume limits w.now ids input)) .none
        (ids.1 :: ids.2 :: w.issued) := sound.stage_resume found fresh
    exact .moves i _ _ _ _ moves (.resumed ids timely) ((moves.later sound).holdsStage (sound.holdsStage_resume found))
  | resolve input phase =>
    have moves := quiet (.resolve input (phase.resume w.now input)) rfl
    exact .moves i _ _ _ _ moves (.resumed ids timely) ((moves.later sound).holdsResolve (holdsResolve_resume holds))
  | consume input phase =>
    have moves := quiet (.consume input (phase.resume w.now input)) rfl
    exact .moves i _ _ _ _ moves (.resumed ids timely) ((moves.later sound).holdsConsume (holdsConsume_resume holds))
  | cleanupExpired phase =>
    have moves := quiet (.cleanupExpired phase.resume) rfl
    exact .moves i _ _ _ _ moves (.resumed ids timely) ((moves.later sound).holdsCleanup (holdsCleanup_resume holds))

theorem Sound.change (sound : w.Sound) (met : w.meets action = true) : Change limits w (w.step limits action) := by
  cases action with
  | advance milliseconds => exact .advance milliseconds
  | stage input => exact .begins _ (.stage input)
  | resolve input => exact .begins _ (.resolve input)
  | consume input => exact .begins _ (.consume input)
  | cleanupExpired => exact .begins _ .cleanupExpired
  | perform i fault listed =>
    unfold step
    dsimp only
    split
    · exact .stay
    · rename_i call found
      have allowed : (leaves fault call && w.allows fault call) = true := by
        simpa [meets, found] using met
      rw [Bool.and_eq_true] at allowed
      have change : Change limits w (w.moved i (call.answer w.stores fault listed) (performed fault call) w.issued) :=
        sound.performs found allowed.1 allowed.2 listed
      have same : w.stores.apply (performed fault call) =
          if fault = some .refused then w.stores else w.stores.apply call.effect := by
        unfold performed
        split <;> rfl
      unfold moved at change
      rw [same] at change
      exact change
  | resume i ids =>
    unfold step
    dsimp only
    split
    · exact .stay
    · rename_i call found
      split
      · exact .stay
      · rename_i fresh
        have timely : w.returnsInTime call = true := by
          simpa [meets, found] using met
        exact sound.resumes found timely fun member => fresh (.inr (.inl member))

/-! ### What every step keeps -/

theorem begins_draft (begins : Begins limits w call) : call.draft = none := by
  cases begins with
  | stage input =>
    rw [Call.draft_stage]
    unfold Attachments.stage
    split <;> rfl
  | _ => rfl

theorem begins_holds (begins : Begins limits w call) : w.Holds call := by
  cases begins with
  | stage input =>
    show w.HoldsStage input (Attachments.stage limits input)
    unfold Attachments.stage
    split
    · rename_i valid
      simp only [Bool.and_eq_true] at valid
      exact ⟨⟨valid.1.1.1.1.1.1, valid.1.1.1.1.1.2⟩, fun record replied => by cases replied⟩
    · trivial
  | resolve input =>
    show w.HoldsResolve input (Attachments.resolve input)
    unfold Attachments.resolve
    split
    · exact fun record replied => by cases replied
    · trivial
  | consume input =>
    show w.HoldsResolve input (Attachments.resolve input)
    unfold Attachments.resolve
    split
    · exact fun record replied => by cases replied
    · trivial
  | cleanupExpired =>
    show w.HoldsCleanup (Attachments.cleanupExpired limits w.now)
    unfold Attachments.cleanupExpired toISOString
    split
    · rename_i before inRange
      split at inRange
      · cases inRange
        exact ⟨le_refl _, fun records replied => by cases replied⟩
      · cases inRange
    · trivial

theorem Sound.extend (sound : w.Sound) {calls : List Call} {now : Int} (passes : w.now ≤ now)
    (kept : ∀ (i : Nat) (call : Call), w.calls[i]? = some call → calls[i]? = some call)
    (added : ∀ (i : Nat) (call : Call), calls[i]? = some call → w.calls[i]? = some call ∨ (call.draft = none ∧ w.Holds call)) :
    w.Later { w with now := now, calls := calls } ∧ ({ w with now := now, calls := calls } : Staging).Sound := by
  have drafts : ∀ i input record standing, w.Draft i input record standing →
      ({ w with now := now, calls := calls } : Staging).Draft i input record standing := by
    intro i input record standing draft
    obtain ⟨call, found, made⟩ := draft
    exact ⟨call, kept i call found, made⟩
  have before : ∀ i input record standing, ({ w with now := now, calls := calls } : Staging).Draft i input record standing →
      w.Draft i input record standing := by
    intro i input record standing draft
    obtain ⟨call, found, made⟩ := draft
    rcases added i call found with old | ⟨plain, -⟩
    · exact ⟨call, old, made⟩
    · cases plain.symm.trans made
  have later : w.Later { w with now := now, calls := calls } := by
    refine ⟨passes, fun i input record standing draft => ⟨standing, drafts _ _ _ _ draft, id⟩, fun record marked => ?_⟩
    obtain ⟨⟨bytes, i, input, draft, same⟩, consumed⟩ := marked
    exact ⟨⟨bytes, i, input, drafts _ _ _ _ draft, same⟩, consumed⟩
  refine ⟨later, ?_⟩
  constructor
  · intro i input record standing draft
    obtain ⟨drafted, stands⟩ := sound.drafts _ _ _ _ (before _ _ _ _ draft)
    refine ⟨drafted, ?_⟩
    cases standing with
    | unplaced blob => exact stands
    | placed => exact stands.imp (fun expired => le_trans expired passes) id
    | unknown => exact stands
  · intro i j first second record other standing status draft again same
    exact sound.distinct _ _ _ _ _ _ _ _ (before _ _ _ _ draft) (before _ _ _ _ again) same
  · exact fun record member => later.created (sound.records record member)
  · exact sound.identities
  · intro key bytes stored
    obtain ⟨i, input, record, standing, draft, named, same⟩ := sound.blobs key bytes stored
    exact ⟨i, input, record, standing, drafts _ _ _ _ draft, named, same⟩
  · intro i call found
    rcases added i call found with old | ⟨-, holds⟩
    · exact later.holds (sound.holds i call old)
    · exact later.holds holds

theorem Change.sound (change : Change limits w v) (sound : w.Sound) : w.Later v ∧ v.Sound := by
  cases change with
  | stay => exact sound.extend (le_refl _) (fun _ _ found => found) fun _ _ found => .inl found
  | advance milliseconds =>
    exact sound.extend (by omega) (fun _ _ found => found) fun _ _ found => .inl found
  | begins call begins =>
    refine sound.extend (le_refl _) (fun i other found => ?_) fun i other found => ?_
    · rw [List.getElem?_append_left (List.getElem?_eq_some_iff.mp found).1, found]
    · rcases getElem?_concat_cases found with old | ⟨-, rfl⟩
      · exact .inl old
      · exact .inr ⟨begins_draft begins, begins_holds begins⟩
  | moves i call next effect issued moves goes holds => exact ⟨moves.later sound, moves.sound sound holds⟩

end Staging

end Handrail.Attachments

import Handrail.Attachments.References

/-!
# Staged once, consumed once

In a run that is met, the calls of `stage` for one identity agree, a reference resolves to the bytes that were staged until
it is consumed or expires, and no blob of a failed call stays.
-/

namespace Handrail.Attachments.Staging
open Js Concurrent Stores

variable {limits : StagingLimits} {w v u : Staging}

structure Upheld (w v : Staging) : Prop where
  /-- While the record of a returned reference is retained, whoever else succeeds for its identity has the same reference
  and fingerprint. -/
  agreed : ∀ i j first second found other, w.Succeeded i first found → (∀ earlier, ¬w.Succeeded j second earlier) →
    v.Succeeded j second other → second.identity = first.identity → v.Retained found →
    other = found ∧ second.fingerprint = first.fingerprint
  /-- A reference that was returned resolves for its owner and conversation, unless a store fails, it expires or it is
  consumed. -/
  resolves : ∀ (i k : Nat) input found result, w.Succeeded i input found → w.calls.length ≤ k →
    v.calls[k]? = some (.resolve ⟨input.ownerScopeId, input.conversationId, found.contentRef⟩ (.settled result)) →
    result ≠ .error .store → ¬v.Expired found → ¬v.MarkedConsumed found →
    ∃ record bytes, result = .ok (record, bytes) ∧ reference record = found
  /-- Only the owner resolves a reference, for the conversation, and to the bytes of the call that created the record. -/
  resolved : ∀ (k : Nat) input record bytes, v.calls[k]? = some (.resolve input (.settled (.ok (record, bytes)))) →
    record.contentRef = input.contentRef ∧ record.ownerScopeId = input.ownerScopeId ∧
      record.conversationId = input.conversationId ∧
      ∃ i creator, v.Draft i creator record.core .placed ∧ bytes = creator.bytes
  once : ∀ j k contentRef, v.Consumed j contentRef → v.Consumed k contentRef → j = k
  /-- A reference that was consumed is not returned by `stage`. -/
  unconsumed : ∀ j m input contentRef found, w.Consumed m contentRef → (∀ earlier, ¬w.Succeeded j input earlier) →
    v.Succeeded j input found → found.contentRef ≠ contentRef
  /-- A call of `stage` that failed has left no blob. -/
  discarded : ∀ (i : Nat) input record thrown, v.calls[i]? = some (.stage input (.settled (some record) (.error thrown))) →
    v.stores.blobs record.blobKey = none

/-! ### From one state on -/

/-- What is known in a later state of the references that were returned or consumed in an earlier one. -/
structure Since (w u : Staging) : Prop where
  sound : u.Sound
  alone : u.Alone
  pending : u.Pending
  succeeded : ∀ i input found, w.Succeeded i input found → u.Succeeded i input found
  consumed : ∀ m contentRef, w.Consumed m contentRef → u.Consumed m contentRef
  agreed : ∀ i j first second found other, w.Succeeded i first found → (∀ earlier, ¬w.Succeeded j second earlier) →
    u.Succeeded j second other → second.identity = first.identity → u.Retained found →
    other = found ∧ second.fingerprint = first.fingerprint
  unconsumed : ∀ j m input contentRef found, w.Consumed m contentRef → (∀ earlier, ¬w.Succeeded j input earlier) →
    u.Succeeded j input found → found.contentRef ≠ contentRef
  trusts : ∀ (k : Nat) record bytes reference phase, w.calls.length ≤ k → w.Known record bytes → Addresses reference record →
    u.calls[k]? = some (.resolve reference phase) → u.Trusts record phase
  known : ∀ record bytes, w.Known record bytes → u.Known record bytes

theorem since_self (sound : w.Sound) (alone : w.Alone) (pending : w.Pending) : Since w w where
  sound := sound
  alone := alone
  pending := pending
  succeeded _ _ _ succeeded := succeeded
  consumed _ _ consumed := consumed
  agreed i j first second found other _ never succeeded := (never other succeeded).elim
  unconsumed j m input contentRef found _ never succeeded := (never found succeeded).elim
  trusts k record bytes reference phase large _ _ at_ := by
    rw [List.getElem?_eq_none large] at at_
    cases at_
  known _ _ known := known

theorem Since.change (since : Since w u) (change : Change limits u v) : Since w v := by
  obtain ⟨later, sound⟩ := change.sound since.sound
  constructor
  · exact sound
  · exact change.alone since.sound since.alone
  · exact change.pending since.sound since.pending
  · exact fun i input found succeeded => change.succeeded (since.succeeded i input found succeeded)
  · exact fun m contentRef consumed => change.consumed (since.consumed m contentRef consumed)
  · intro i j first second found other succeeded never returned same retained
    have before := since.succeeded i first found succeeded
    rcases change.returns since.sound since.pending returned with old | ⟨unchanged, stored, member, ref, fresh⟩
    · exact since.agreed i j first second found other succeeded never old same (change.retained since.sound before retained)
    · -- Both records are stored, so that the store has let only one in.
      obtain ⟨record, there, named⟩ := change.retained since.sound before retained
      have own : record.contentRef = found.contentRef := congrArg AttachmentReference.contentRef named
      obtain ⟨-, identity, fingerprint⟩ := since.sound.stored_of_success before there own
      rw [← unchanged] at member
      obtain ⟨also, sameIdentity, sameFingerprint⟩ := sound.stored_of_success returned member ref
      rw [unchanged] at member
      have one : stored = record :=
        since.sound.identities stored member record there (sameIdentity.trans (same.trans identity.symm))
      rw [one] at also sameFingerprint
      exact ⟨also.symm.trans named, sameFingerprint.symm.trans fingerprint⟩
  · intro j m input contentRef found consumed never returned
    rcases change.returns since.sound since.pending returned with old | ⟨-, stored, member, ref, fresh⟩
    · exact since.unconsumed j m input contentRef found consumed never old
    · exact fun same => since.sound.consumed (since.consumed m contentRef consumed) member (ref.trans same) fresh
  · intro k record bytes reference phase large known addressed at_
    exact change.trusts since.sound (since.known record bytes known) addressed
      (fun phase before => since.trusts k record bytes reference phase large known addressed before) at_
  · exact fun record bytes known => later.known (since.known record bytes known)

theorem Since.upheld (since : Since w v) (first : w.Sound) : Upheld w v := by
  constructor
  · exact since.agreed
  · intro i k input found result succeeded large at_ answered live fresh
    obtain ⟨record, bytes, named, known, identity, -⟩ := first.succeeded succeeded
    obtain ⟨j, creator, draft, -⟩ := known
    obtain ⟨drafted, -⟩ := first.drafts _ _ _ _ draft
    have owner : record.ownerScopeId = input.ownerScopeId := congrArg Prod.fst identity
    have conversation : record.conversationId = input.conversationId := congrArg (Prod.fst ∘ Prod.snd) identity
    have ref : record.contentRef = found.contentRef := congrArg AttachmentReference.contentRef named
    have addressed : Addresses ⟨input.ownerScopeId, input.conversationId, found.contentRef⟩ record := {
      contentRef := ref
      owned := by simp [owns, owner, conversation]
      safe := by
        rw [← owner, ← conversation, ← ref]
        exact drafted.safe }
    have known : w.Known record creator.bytes := ⟨j, creator, draft, rfl⟩
    have trusted := since.trusts k record creator.bytes _ _ large known addressed at_
    have now := since.known _ _ known
    cases result with
    | ok result =>
      obtain ⟨stored, got⟩ := result
      obtain ⟨-, same, also⟩ := since.sound.holds k _ at_
      exact ⟨stored, got, rfl, (reference_of_core (since.sound.known_eq also now (same.trans ref.symm)).1).trans named⟩
    | error thrown =>
      rcases trusted with store | expired | marked
      · rw [store] at answered
        exact (answered rfl).elim
      · obtain ⟨i, creator, draft, -⟩ := now
        exact (live ⟨i, creator, record.core, .placed, draft, named, expired⟩).elim
      · rcases since.sound.held now with expired | ⟨stored, member, core, -⟩
        · obtain ⟨i, creator, draft, -⟩ := now
          exact (live ⟨i, creator, record.core, .placed, draft, named, expired⟩).elim
        · have same : stored.core = record.core := core
          exact (fresh ⟨stored, member, (reference_of_core same).trans named,
            marked.2 stored member (contentRef_of_core same)⟩).elim
  · intro k input record bytes at_
    obtain ⟨owned, same, known⟩ := since.sound.holds k _ at_
    simp only [owns, Bool.and_eq_true, beq_iff_eq] at owned
    exact ⟨same, owned.1, owned.2, known⟩
  · intro j k contentRef consumed again
    obtain ⟨input, record, at_, rfl⟩ := consumed
    obtain ⟨other, second, also, same⟩ := again
    refine since.alone.single j k _ _ input.contentRef at_ also rfl ?_
    rw [← same]
    rfl
  · exact since.unconsumed
  · intro i input record thrown at_
    have draft : v.Draft i input record (.unplaced none) := ⟨_, at_, rfl⟩
    exact (since.sound.drafts _ _ _ _ draft).2.2

/-! ### Runs -/

def AllMet (limits : StagingLimits) (w : Staging) : List StagingAction → Prop
  | [] => True
  | action :: rest => w.meets action = true ∧ AllMet limits (w.step limits action) rest

instance decidableAllMet (limits : StagingLimits) : (w : Staging) → (actions : List StagingAction) →
    Decidable (AllMet limits w actions)
  | _, [] => inferInstanceAs (Decidable True)
  | w, action :: rest =>
    let _ := decidableAllMet limits (w.step limits action) rest
    inferInstanceAs (Decidable (w.meets action = true ∧ AllMet limits (w.step limits action) rest))

theorem allMet_append {first later : List StagingAction} (met : AllMet limits w (first ++ later)) :
    AllMet limits w first ∧ AllMet limits (w.run limits first) later := by
  induction first generalizing w with
  | nil => exact ⟨trivial, met⟩
  | cons action rest ih =>
    obtain ⟨now, after⟩ := ih met.2
    exact ⟨⟨met.1, now⟩, after⟩

theorem Since.run (since : Since w u) {actions : List StagingAction} (met : AllMet limits u actions) :
    Since w (u.run limits actions) := by
  induction actions generalizing u with
  | nil => exact since
  | cons action rest ih => exact ih (since.change (since.sound.change met.1)) met.2

theorem sound_create (now : Int) : (create now).Sound := by
  have empty : ∀ i input record standing, ¬(create now).Draft i input record standing := by
    intro i input record standing draft
    obtain ⟨call, found, -⟩ := draft
    cases found
  constructor
  · exact fun i input record standing draft => (empty _ _ _ _ draft).elim
  · exact fun i j first second record other standing status draft => (empty _ _ _ _ draft).elim
  · exact fun record member => by cases member
  · exact fun record member => by cases member
  · exact fun key bytes stored => by cases stored
  · exact fun i call found => by cases found

theorem alone_create (now : Int) : (create now).Alone where
  single i j first second contentRef found := by cases found
  gone call member := by cases member

theorem pending_create (now : Int) : (create now).Pending := fun call member => by cases member

theorem sampleBytes_inRange : 1 ≤ 8 ∧ 8 ≤ JsNumber.maxSafeInteger := by decide

theorem sampleTtl_inRange : 1000 ≤ 1000 ∧ 1000 ≤ JsNumber.maxSafeInteger := by decide

def sampleLimits : StagingLimits where
  maximumBytes := 8
  acceptedMediaTypes := [js "image/*", js "application/pdf"]
  ttlMilliseconds := 1000
  cleanupBatchSize := none
  bytesInRange := sampleBytes_inRange
  ttlInRange := sampleTtl_inRange

def sampleUpload : StageInput where
  ownerScopeId := js "owner-1"
  conversationId := js "conversation-1"
  idempotencyKey := js "upload-1"
  fingerprint := js "sha256-1"
  mediaType := js "application/pdf"
  filename := some (js "report.pdf")
  bytes := [1, 2, 3]

def sampleIds (n : UInt16) : JsString × JsString := (⟨[97, 97 + n]⟩, ⟨[98, 97 + n]⟩)

def sampleReference : ReferenceInput := ⟨js "owner-1", js "conversation-1", contentRefOf (sampleIds 0).2⟩

def sampleTurn (i : Nat) (n : UInt16) : List StagingAction := [.perform i none [], .resume i (sampleIds n)]

/-- A call of `stage` creates a record and returns. -/
def sampleStaged : List StagingAction := .stage sampleUpload :: sampleTurn 0 0 ++ sampleTurn 0 1 ++ sampleTurn 0 2

/-- A call of `consume` resolves the reference and is about to mark it. -/
def sampleResolved (i : Nat) (n : UInt16) : List StagingAction :=
  .consume sampleReference :: sampleTurn i n ++ sampleTurn i (n + 1) ++ [.resume i (sampleIds (n + 2))]

def sampleConsumed (i : Nat) (n : UInt16) : List StagingAction := sampleTurn i n ++ sampleTurn i (n + 1)

def returnedBy (w : Staging) (i : Nat) : Option AttachmentReference :=
  (w.calls[i]?).bind fun
    | .stage _ (.settled _ (.ok found)) => some found
    | _ => none

def consumedBy (w : Staging) (i : Nat) : Option JsString :=
  (w.calls[i]?).bind fun
    | .consume input (.settled (.ok _)) => some input.contentRef
    | _ => none

def discardedBy (w : Staging) (i : Nat) : Option JsString :=
  (w.calls[i]?).bind fun
    | .stage _ (.settled (some record) (.error _)) => some record.blobKey
    | _ => none

theorem consumed_of {i : Nat} {contentRef : JsString} (read : w.consumedBy i = some contentRef) : w.Consumed i contentRef := by
  obtain ⟨call, found, read⟩ := Option.bind_eq_some_iff.mp read
  split at read
  · rename_i input record
    exact ⟨input, record, found, Option.some.inj read⟩
  · cases read

end Handrail.Attachments.Staging

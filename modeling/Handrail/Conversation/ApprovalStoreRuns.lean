import Handrail.Conversation.ApprovalStoreSteps

/-!
# Runs of the in-memory approval store

Every promise of the store follows from what one call does: records stay valid, versions count changes, and a decision
is made once and in time.
-/

namespace Handrail.Conversation
open Js

namespace InMemoryApprovalProposalStore
variable {store : InMemoryApprovalProposalStore}

/-! ### What holds of every store -/

structure Sound (store : InMemoryApprovalProposalStore) : Prop where
  distinct : store.Distinct
  each : ∀ id p, store.find id = some p → p.Sound
  retained : ∀ record ∈ store.idempotency, ∃ p, store.find record.result.proposalId = some p ∧
    record.result.proposalVersion ≤ p.proposalVersion
  alike : ∀ record ∈ store.idempotency, ∀ other ∈ store.idempotency,
    record.result.proposalId = other.result.proposalId →
    record.result.proposalVersion = other.result.proposalVersion → record.result = other.result
  requests : ∀ record ∈ store.idempotency, record.operation = .transition → ∃ request,
    record.requestSignature = transitionRequestSignature request ∧ record.result.proposalId = request.proposalId ∧
      record.result.proposalVersion = request.expectedVersion.value + 1

variable {now : Option Timestamp} {expected : Option Nat} {before after : Option StoredProposal}
  {expiry : Attribution}

theorem evolves_grows (evolves : Evolves expiry expected now before after) {p : StoredProposal}
    (stored : before = some p) :
    ∃ q, after = some q ∧ (q = p ∨ q.proposalVersion = p.proposalVersion + 1) := by
  cases evolves with
  | kept => exact ⟨p, stored, .inl rfl⟩
  | created => cases stored
  | changed time read change =>
    obtain rfl := Option.some.inj stored
    exact ⟨_, rfl, .inr rfl⟩

theorem evolves_sound (evolves : Evolves expiry expected now before after)
    (allowed : expiry.actor.type = .user ∨ expiry.actor.type = .system) (sound : ∀ p, before = some p → p.Sound)
    {q : StoredProposal} (stored : after = some q) : q.Sound := by
  cases evolves with
  | kept => exact sound q stored
  | created request time read early creator =>
    obtain rfl := Option.some.inj stored
    exact CreateApprovalProposalSnapshot.proposal_sound early creator
  | changed time read change =>
    obtain rfl := Option.some.inj stored
    exact change.sound allowed (sound _ rfl)

variable {next : InMemoryApprovalProposalStore}

theorem Step.grows
    (step : Step expected now store next) {id : Identifier} {p : StoredProposal} (stored : store.find id = some p) :
    ∃ q, next.find id = some q ∧ p.proposalVersion ≤ q.proposalVersion := by
  obtain ⟨q, found, rfl | version⟩ := evolves_grows (step.evolves id) stored
  · exact ⟨q, found, Nat.le_refl _⟩
  · exact ⟨q, found, by omega⟩

theorem Sound.fresh (sound : store.Sound) {record other : IdempotencyRecord}
    (old : other ∈ store.idempotency) (retained : Retained store next record)
      (same : record.result.proposalId = other.result.proposalId)
    (version : record.result.proposalVersion = other.result.proposalVersion) : record ∈ store.idempotency := by
  obtain ⟨p, found, bound⟩ := sound.retained other old
  cases retained with
  | old known => exact known
  | created _ absent =>
    rw [same, found] at absent
    cases absent
  | moved request _ present _ identity next =>
    rw [← identity, same, found] at present
    obtain rfl := Option.some.inj present
    omega

theorem Step.sound
    (step : Step expected now store next) (sound : store.Sound)
    (allowed : store.expiryAttribution.actor.type = .user ∨ store.expiryAttribution.actor.type = .system) : next.Sound where
  distinct := step.distinct
  each id p stored := evolves_sound (step.evolves id) allowed (sound.each id) stored
  retained record inside := by
    cases step.retained record inside with
    | old known =>
      obtain ⟨p, found, bound⟩ := sound.retained record known
      obtain ⟨q, found', grown⟩ := step.grows found
      exact ⟨q, found', Nat.le_trans bound grown⟩
    | created _ _ stored => exact ⟨_, stored, Nat.le_refl _⟩
    | moved request _ _ _ identity _ stored => exact ⟨_, identity ▸ stored, Nat.le_refl _⟩
  alike record inside other inside' same version := by
    rcases (step.retained record inside).cases with known | stored
    · have known' := sound.fresh known (step.retained other inside') same.symm version.symm
      exact sound.alike record known other known' same version
    · rcases (step.retained other inside').cases with known' | stored'
      · have known := sound.fresh known' (step.retained record inside) same version
        exact sound.alike record known other known' same version
      · rw [same, stored'] at stored
        exact (Option.some.inj stored).symm
  requests record inside transition := by
    cases step.retained record inside with
    | old known => exact sound.requests record known transition
    | created operation =>
      rw [operation] at transition
      cases transition
    | moved request signature _ expected identity version => exact ⟨request, signature, identity, by omega⟩

theorem Sound.new {limits : ApprovalProposalStoreLimits} {expiry : Option AttributionInput}
    (made : new limits expiry = some store) : store.Sound := by
  simp only [InMemoryApprovalProposalStore.new, Option.bind_eq_bind, Option.bind_eq_some_iff] at made
  obtain ⟨limits, _, attribution, _, made⟩ := made
  obtain rfl := Option.some.inj made
  exact ⟨List.nodup_nil, fun _ _ stored => (List.not_mem_nil (List.mem_of_find?_eq_some stored)).elim,
    fun _ inside => (List.not_mem_nil inside).elim, fun _ inside => (List.not_mem_nil inside).elim,
    fun _ inside => (List.not_mem_nil inside).elim⟩

/-! ### A version is left once -/

structure Decided (store : InMemoryApprovalProposalStore) (result : StoredProposal) : Prop where
  passed : ∃ p, store.find result.proposalId = some p ∧ result.proposalVersion ≤ p.proposalVersion
  only : ∀ record ∈ store.idempotency, record.result.proposalId = result.proposalId →
    record.result.proposalVersion = result.proposalVersion → record.result = result

variable {result : StoredProposal}

theorem Step.decided
    (step : Step expected now store next) (decided : store.Decided result) :
    next.Decided result := by
  obtain ⟨p, found, passed⟩ := decided.passed
  constructor
  · obtain ⟨q, found', grown⟩ := step.grows found
    exact ⟨q, found', Nat.le_trans passed grown⟩
  · intro record inside same version
    cases step.retained record inside with
    | old known => exact decided.only record known same version
    | created _ absent =>
      rw [same, found] at absent
      cases absent
    | moved request _ present _ identity later =>
      rw [← identity, same, found] at present
      obtain rfl := Option.some.inj present
      omega

/-- A transition that succeeds answers a retained result of its request, or moves the proposal on from its version. -/
theorem transitionStored_ok (sound : store.Sound) {request : TransitionApprovalProposalSnapshot}
    (succeeded : (store.transitionStored request now).2 = .ok result) :
    (result.proposalId = request.proposalId ∧ result.proposalVersion = request.expectedVersion.value + 1 ∧
      ∃ record ∈ (store.transitionStored request now).1.idempotency, record.result = result) ∧
    ((store.transitionStored request now).1 = store ∨ ∃ current, store.find request.proposalId = some current ∧
      current.proposalVersion = request.expectedVersion.value) := by
  unfold transitionStored at succeeded ⊢
  dsimp only at succeeded ⊢
  split at succeeded
  · cases succeeded
  · rename_i retry answered
    obtain rfl := Except.ok.inj succeeded
    obtain ⟨record, inside, operation, signature, rfl⟩ := idempotentResult_eq_ok answered
    obtain ⟨original, signature', identity, version⟩ := sound.requests record inside operation
    obtain ⟨same, expected⟩ := transitionRequestSignature_inj (signature.symm.trans signature')
    exact ⟨⟨identity.trans same.symm, version.trans (congrArg (· + 1) expected.symm), record, inside, rfl⟩, .inl rfl⟩
  · split at succeeded
    · cases succeeded
    rename_i current found
    split at succeeded
    · cases succeeded
    rename_i version
    have version := not_not.mp version
    split at succeeded
    · cases succeeded
    rename_i time
    split at succeeded
    · cases succeeded
    rename_i ordered
    split at succeeded
    · cases succeeded
    rename_i undue
    split at succeeded
    · cases succeeded
    rename_i passes
    obtain rfl := Except.ok.inj succeeded
    have identity : current.proposalId = request.proposalId := find_id found
    rw [if_neg (not_not.mpr version), if_neg ordered, if_neg undue]
    exact ⟨⟨identity, congrArg (· + 1) version, _, mem_setFirst_self, rfl⟩, .inr ⟨current, found, version⟩⟩

theorem transitionStored_moves {request : TransitionApprovalProposalSnapshot} {now : Timestamp} {current : StoredProposal}
    (unused : store.idempotentResult .transition request.idempotencyKey request.idempotencyFingerprint
      (transitionRequestSignature request) = .ok none)
    (found : store.find request.proposalId = some current) (version : current.proposalVersion = request.expectedVersion.value)
    (ordered : current.updatedAt.time ≤ now.time) (undue : current.isDue now = false)
    (passes : checkTransition current request now = .ok ()) :
    (store.transitionStored request (some now)).1 =
      (store.set (transitionProposal current request.toProposalTransitionData now request.attribution)).retainIdempotency
        ⟨request.idempotencyKey, .transition, request.idempotencyFingerprint, transitionRequestSignature request,
          transitionProposal current request.toProposalTransitionData now request.attribution⟩ := by
  simp only [transitionStored, unused, found]
  rw [if_neg (not_not.mpr version), if_neg (by omega), if_neg (by simp [undue]), passes]

theorem Sound.decided (sound : store.Sound) {record : IdempotencyRecord}
    (inside : record ∈ store.idempotency) (same : record.result = result) : store.Decided result := by
  subst same
  exact ⟨sound.retained record inside, fun other inside' same version => sound.alike other inside' record inside same version⟩

/-! ### Calls that throw -/

/-- A refused transition expires the proposal that it addresses, and no other call that throws changes anything. -/
theorem transitionStored_error {request : TransitionApprovalProposalSnapshot}
    {error : ApprovalProposalStoreError} (thrown : (store.transitionStored request now).2 = .error error) :
    (store.transitionStored request now).1 = store ∨ ∃ current time, store.find request.proposalId = some current ∧
      now = some time ∧ current.isDue time = true ∧
      (store.transitionStored request now).1 = store.set (transitionProposal current .expired time store.expiryAttribution) := by
  unfold transitionStored at thrown ⊢
  dsimp only at thrown ⊢
  split at thrown
  · exact .inl rfl
  · cases thrown
  split at thrown
  · exact .inl rfl
  rename_i current found
  split
  · exact .inl rfl
  rename_i version
  rw [if_neg version] at thrown
  split at thrown
  · exact .inl rfl
  rename_i time
  split
  · exact .inl rfl
  rename_i ordered
  rw [if_neg ordered] at thrown
  split
  · rename_i due
    rw [Bool.and_eq_true] at due
    exact .inr ⟨current, time, found, rfl, due.1, by rw [expireIfDue, if_pos due.1]⟩
  rename_i undue
  rw [if_neg undue] at thrown
  split at thrown
  · exact .inl rfl
  · cases thrown

theorem createStored_error {request : CreateApprovalProposalSnapshot}
    {error : ApprovalProposalStoreError} (thrown : (store.createStored request now).2 = .error error) :
    (store.createStored request now).1 = store := by
  unfold createStored at thrown ⊢
  dsimp only at thrown ⊢
  split at thrown
  · rfl
  · cases thrown
  split
  · rfl
  rename_i present
  rw [if_neg present] at thrown
  split
  · rfl
  rename_i room
  rw [if_neg room] at thrown
  split at thrown
  · rfl
  rename_i time
  split
  · rfl
  rename_i early
  rw [if_neg early] at thrown
  split
  · rfl
  rename_i creator
  rw [if_neg creator] at thrown
  cases thrown

theorem map_eq_error {ε α β : Type} {f : α → β} {outcome : Except ε α} {error : ε}
    (thrown : outcome.map f = .error error) : outcome = .error error := by
  cases outcome with
  | error e => exact congrArg Except.error (Except.error.inj thrown)
  | ok a => cases thrown

/-! ### Versions count the changes -/

def changesStatus : Option StoredProposal → Option StoredProposal → Bool
  | some before, some after => before.status != after.status
  | _, _ => false

def versionOf (stored : Option StoredProposal) : Nat := (stored.map StoredProposal.proposalVersion).getD 1

theorem evolves_version (evolves : Evolves expiry expected now before after) :
    versionOf after = versionOf before + if changesStatus before after then 1 else 0 := by
  cases evolves with
  | kept => cases before <;> simp [changesStatus]
  | created => rfl
  | @changed current data attribution time read change =>
    have differs : changesStatus (some current) (some (transitionProposal current data time attribution)) = true :=
      bne_iff_ne.mpr (legal_changes change.legal)
    rw [if_pos differs]
    rfl

/-! ### What never changes -/

def isFinal (status : ApprovalProposalStatus) : Bool := [.rejected, .expired, .executed].contains status

theorem evolves_final (evolves : Evolves expiry expected now before after) {p : StoredProposal}
    (stored : before = some p) (final : isFinal p.status = true) : after = some p := by
  cases evolves with
  | kept => exact stored
  | created => cases stored
  | @changed current data attribution time read change =>
    obtain rfl := Option.some.inj stored
    have legal := change.legal
    cases status : current.status with
    | rejected | expired | executed =>
      rw [status] at legal
      cases legal
    | _ =>
      rw [status] at final
      cases final

theorem evolves_timely (evolves : Evolves expiry expected now before after) {q : StoredProposal}
    (stored : after = some q) (new : before ≠ some q) (status : q.status = .confirmed ∨ q.status = .executing) :
    ∃ time, now = some time ∧ time.time < q.expiresAt.time := by
  cases evolves with
  | kept => exact (new stored).elim
  | created =>
    obtain rfl := Option.some.inj stored
    rcases status with status | status <;> cases status
  | changed time read change =>
    obtain rfl := Option.some.inj stored
    exact ⟨time, read, change.timely status⟩

def Bounded (store : InMemoryApprovalProposalStore) : Prop :=
  ∀ id p, store.find id = some p → p.proposalVersion ≤ JsNumber.maxSafeInteger

theorem Step.bounded
    (step : Step expected now store next) (sound : store.Sound) (bounded : store.Bounded)
    (within : expected ≠ some JsNumber.maxSafeInteger) : next.Bounded := by
  intro id q stored
  have evolves := step.evolves id
  rw [stored] at evolves
  cases before : store.find id with
  | none =>
    rw [before] at evolves
    cases evolves
    show 1 ≤ JsNumber.maxSafeInteger
    decide
  | some p =>
    have bound := bounded id p before
    have single := (sound.each id p before).pending
    rw [before] at evolves
    cases evolves with
    | kept => exact bound
    | changed time read change asked =>
      show p.proposalVersion + 1 ≤ _
      rcases asked with pending | asked
      · rw [(single pending).1]
        decide
      · have different : p.proposalVersion ≠ JsNumber.maxSafeInteger := fun same => within (asked.trans (congrArg some same))
        omega

/-! ### Runs -/

section
variable [Collation]

def ExpiryAllowed (store : InMemoryApprovalProposalStore) : Prop :=
  store.expiryAttribution.actor.type = .user ∨ store.expiryAttribution.actor.type = .system

theorem Sound.run (sound : store.Sound) (allowed : store.ExpiryAllowed) (calls : List (ApprovalStoreCall × HostReading)) :
    (store.run calls).Sound ∧ (store.run calls).expiryAttribution = store.expiryAttribution := by
  induction calls generalizing store with
  | nil => exact ⟨sound, rfl⟩
  | cons call rest ih =>
    have step := call_step sound.distinct call.1 call.2
    have allowed' : (store.call call.1 call.2).1.ExpiryAllowed := by
      rw [ExpiryAllowed, step.options.2]
      exact allowed
    obtain ⟨finished, same⟩ := ih (step.sound sound allowed) allowed'
    exact ⟨finished, same.trans step.options.2⟩

def statusChanges (id : Identifier) (store : InMemoryApprovalProposalStore) :
    List (ApprovalStoreCall × HostReading) → Nat
  | [] => 0
  | call :: rest =>
    let next := (store.call call.1 call.2).1
    (if changesStatus (store.find id) (next.find id) then 1 else 0) + statusChanges id next rest

theorem run_version (distinct : store.Distinct) (id : Identifier) (calls : List (ApprovalStoreCall × HostReading)) :
    versionOf ((store.run calls).find id) = versionOf (store.find id) + statusChanges id store calls := by
  induction calls generalizing store with
  | nil => rfl
  | cons call rest ih =>
    have step := call_step distinct call.1 call.2
    show versionOf (((store.call call.1 call.2).1.run rest).find id) = _
    rw [ih step.distinct, evolves_version (step.evolves id), statusChanges, Nat.add_assoc]

theorem Decided.run (decided : store.Decided result) (distinct : store.Distinct)
    (calls : List (ApprovalStoreCall × HostReading)) : (store.run calls).Decided result := by
  induction calls generalizing store with
  | nil => exact decided
  | cons call rest ih =>
    have step := call_step distinct call.1 call.2
    exact ih (step.decided decided) step.distinct

/-- What a call that throws changes: it may expire the due proposal that a transition addresses. -/
theorem call_error {call : ApprovalStoreCall} {reading : HostReading} {error : ApprovalProposalStoreError}
    (thrown : (store.call call reading).2 = .error error) :
    (store.call call reading).1 = store ∨ ∃ input id current time, call = .transition input ∧
      readIdentifier input.proposalId = some id ∧ store.find id = some current ∧ reading.now = some time ∧
      current.isDue time = true ∧
      (store.call call reading).1 = store.set (transitionProposal current .expired time store.expiryAttribution) := by
  cases call with
  | create input =>
    have thrown : (store.create input reading).2 = .error error := map_eq_error thrown
    left
    show (store.create input reading).1 = store
    unfold create at thrown ⊢
    split at thrown
    · rfl
    split
    · rename_i permitted
      exact createStored_error (by rwa [if_pos permitted] at thrown)
    · rfl
  | get proposalId =>
    have thrown : (store.get proposalId reading).2 = .error error := map_eq_error thrown
    left
    show (store.get proposalId reading).1 = store
    unfold get getStored at thrown ⊢
    split at thrown
    · rfl
    split
    · rename_i permitted
      rw [if_pos permitted] at thrown
      split at thrown
      · cases thrown
      split at thrown
      · rfl
      · cases thrown
    · rfl
  | listGroup groupId =>
    have thrown : (store.listGroup groupId reading).2 = .error error := map_eq_error thrown
    left
    show (store.listGroup groupId reading).1 = store
    unfold listGroup listGroupStored at thrown ⊢
    split at thrown
    · rfl
    split
    · rename_i permitted
      rw [if_pos permitted] at thrown
      split at thrown
      · rfl
      · cases thrown
    · rfl
  | transition input =>
    have thrown : (store.transition input reading).2 = .error error := map_eq_error thrown
    show (store.transition input reading).1 = store ∨ _
    unfold transition at thrown
    split at thrown
    · rename_i invalid
      left
      rw [transition, invalid]
    rename_i request read
    split at thrown
    · rename_i permitted
      have same : store.transition input reading = store.transitionStored request reading.now := by
        rw [transition, read]
        exact if_pos permitted
      rw [same]
      refine (transitionStored_error thrown).imp_right ?_
      rintro ⟨current, time, found, read', due, next⟩
      exact ⟨input, request.proposalId, current, time, rfl, (snapshotTransitionInput_eq_some read).1, found, read', due,
        (congrArg Prod.fst same).trans next⟩
    · rename_i denied
      left
      rw [transition, read]
      exact congrArg Prod.fst (if_neg denied)

theorem run_final (distinct : store.Distinct) {id : Identifier} {p : StoredProposal} (stored : store.find id = some p)
    (final : isFinal p.status = true) (calls : List (ApprovalStoreCall × HostReading)) :
    (store.run calls).find id = some p := by
  induction calls generalizing store with
  | nil => exact stored
  | cons call rest ih =>
    have step := call_step distinct call.1 call.2
    exact ih step.distinct (evolves_final (step.evolves id) stored final)

theorem run_append (first second : List (ApprovalStoreCall × HostReading)) :
    store.run (first ++ second) = (store.run first).run second := List.foldl_append ..

theorem Sound.bounded (sound : store.Sound) (allowed : store.ExpiryAllowed) (bounded : store.Bounded)
    {calls : List (ApprovalStoreCall × HostReading)}
    (within : ∀ call ∈ calls, call.1.expectedVersion ≠ some JsNumber.maxSafeInteger) : (store.run calls).Bounded := by
  induction calls generalizing store with
  | nil => exact bounded
  | cons call rest ih =>
    rw [List.forall_mem_cons] at within
    have step := call_step sound.distinct call.1 call.2
    have allowed' : (store.call call.1 call.2).1.ExpiryAllowed := by
      rw [ExpiryAllowed, step.options.2]
      exact allowed
    exact ih (step.sound sound allowed) allowed' (step.bounded sound bounded within.1) within.2

/-- Two transitions from one version that both succeed return one record, and the second only reads it. -/
theorem Sound.once (sound : store.Sound) (allowed : store.ExpiryAllowed) {input input' : TransitionApprovalProposalInput}
    {reading reading' : HostReading} {between : List (ApprovalStoreCall × HostReading)} {result result' : StoredProposal}
    (first : (store.transition input reading).2 = .ok result)
    (second : (((store.transition input reading).1.run between).transition input' reading').2 = .ok result')
    (sameProposal : input'.proposalId = input.proposalId) (sameVersion : input'.expectedVersion = input.expectedVersion) :
    result' = result ∧ (((store.transition input reading).1.run between).transition input' reading').1 =
      (store.transition input reading).1.run between := by
  have stored {s : InMemoryApprovalProposalStore} {input : TransitionApprovalProposalInput} {reading : HostReading}
      {result : StoredProposal} (succeeded : (s.transition input reading).2 = .ok result) :
      ∃ request, readIdentifier input.proposalId = some request.proposalId ∧
        readSafeInteger 1 input.expectedVersion = some request.expectedVersion ∧
        s.transition input reading = s.transitionStored request reading.now := by
    unfold transition at succeeded ⊢
    split at succeeded
    · cases succeeded
    rename_i request read
    split at succeeded
    · rename_i permitted
      exact ⟨request, (snapshotTransitionInput_eq_some read).1, (snapshotTransitionInput_eq_some read).2, if_pos permitted⟩
    · cases succeeded
  obtain ⟨request, identity, version, same⟩ := stored first
  have step := transitionStored_step sound.distinct request reading.now
  rw [← same] at step
  have sound' := step.sound sound allowed
  have allowed' : (store.transition input reading).1.ExpiryAllowed := by
    rw [ExpiryAllowed, step.options.2]
    exact allowed
  obtain ⟨request', identity', version', same'⟩ := stored second
  have soundLater := (sound'.run allowed' between).1
  rw [same] at first
  rw [same'] at second
  obtain ⟨⟨named, numbered, record, inside, kept⟩, _⟩ := transitionStored_ok sound first
  obtain ⟨⟨named', numbered', record', inside', kept'⟩, outcome⟩ := transitionStored_ok soundLater second
  rw [sameProposal, identity, Option.some.injEq] at identity'
  rw [sameVersion, version, Option.some.injEq] at version'
  have decided := (sound'.decided (by rw [same]; exact inside) kept).run sound'.distinct between
  rcases outcome with unchanged | ⟨current, found, expected⟩
  · rw [unchanged] at inside'
    have only := decided.only record' inside' (by rw [kept', named', named, identity'])
      (by rw [kept', numbered', numbered, version'])
    exact ⟨kept'.symm.trans only, (congrArg Prod.fst same').trans unchanged⟩
  · obtain ⟨p, present, passed⟩ := decided.passed
    rw [named, identity', found] at present
    obtain rfl := Option.some.inj present
    rw [numbered, version'] at passed
    omega

structure StateMachine (start : InMemoryApprovalProposalStore) (calls : List (ApprovalStoreCall × HostReading)) : Prop where
  valid : ∀ p ∈ (start.run calls).proposals, isConversationApprovalProposalRecord p.toJson = .ok ()
  versions : ∀ p ∈ (start.run calls).proposals, p.proposalVersion = 1 + statusChanges p.proposalId start calls
  once : ∀ input input' reading reading' between result result',
    ((start.run calls).transition input reading).2 = .ok result →
    ((((start.run calls).transition input reading).1.run between).transition input' reading').2 = .ok result' →
    input'.proposalId = input.proposalId → input'.expectedVersion = input.expectedVersion →
    result' = result ∧ ((((start.run calls).transition input reading).1.run between).transition input' reading').1 =
      ((start.run calls).transition input reading).1.run between
  timely : ∀ call reading id q, ((start.run calls).call call reading).1.find id = some q →
    (start.run calls).find id ≠ some q → q.status = .confirmed ∨ q.status = .executing →
    ∃ now, reading.now = some now ∧ now.time < q.expiresAt.time
  final : ∀ id p later, (start.run calls).find id = some p → isFinal p.status = true →
    ((start.run calls).run later).find id = some p
  failed : ∀ call reading error, ((start.run calls).call call reading).2 = .error error →
    ((start.run calls).call call reading).1 = start.run calls ∨
      ∃ input id current now, call = .transition input ∧ readIdentifier input.proposalId = some id ∧
        (start.run calls).find id = some current ∧ reading.now = some now ∧ current.isDue now = true ∧
        ((start.run calls).call call reading).1 =
          (start.run calls).set (transitionProposal current .expired now start.expiryAttribution)

/-- The store keeps its promises as long as no transition starts from the largest safe integer. -/
theorem state_machine_holds {limits : ApprovalProposalStoreLimits} {expiry : Option AttributionInput}
    {start : InMemoryApprovalProposalStore} (made : new limits expiry = some start) (allowed : start.ExpiryAllowed)
    (calls : List (ApprovalStoreCall × HostReading))
    (within : ∀ call ∈ calls, call.1.expectedVersion ≠ some JsNumber.maxSafeInteger) : StateMachine start calls := by
  have initial := Sound.new made
  obtain ⟨sound, expiry⟩ := initial.run allowed calls
  have allowed' : (start.run calls).ExpiryAllowed := by
    rw [ExpiryAllowed, expiry]
    exact allowed
  have empty (id : Identifier) : start.find id = none := by
    simp only [InMemoryApprovalProposalStore.new, Option.bind_eq_bind, Option.bind_eq_some_iff] at made
    obtain ⟨limits, _, attribution, _, made⟩ := made
    obtain rfl := Option.some.inj made
    rfl
  have bounded := initial.bounded allowed (fun id p found => by rw [empty] at found; cases found) within
  refine ⟨fun p inside => ?_, fun p inside => ?_, fun _ _ _ _ _ _ _ => sound.once allowed',
    fun call reading id q stored new status => ?_,
    fun id p later stored final => run_final sound.distinct stored final later, fun call reading error thrown => ?_⟩
  · have found := sound.distinct.find_iff.mpr inside
    exact (sound.each _ _ found).passes_iff.mpr (bounded _ _ found)
  · have counted := run_version initial.distinct p.proposalId calls
    rw [sound.distinct.find_iff.mpr inside, empty] at counted
    exact counted
  · exact evolves_timely ((call_step sound.distinct call reading).evolves id) stored new status
  · have outcome := call_error thrown
    rwa [expiry] at outcome

end

end InMemoryApprovalProposalStore

/-! ### A proposal whose execution fails and is tried again for ever -/

@[reducible] def withoutCollation : Collation := ⟨fun _ _ => 0⟩

def sampleAttribution : AttributionInput := ⟨.system, none, .runtime⟩

def sampleNow : Timestamp := ⟨js "2024-01-01T00:00:00Z", 1704067200000, by decide +kernel⟩

def sampleExpiry : Timestamp := ⟨js "2025-01-01T00:00:00Z", 1735689600000, by decide +kernel⟩

def sampleReading : HostReading := ⟨true, some sampleNow.text⟩

def sampleProposalId : Identifier := ⟨js "proposal", by decide, by decide⟩

def sampleCreate : CreateApprovalProposalInput where
  proposalId := sampleProposalId.text
  groupId := none
  turnId := js "turn"
  toolCallId := js "call"
  toolName := js "tool"
  reviewedArguments := Json.object [("type", .str (js "opaque_reference")), ("argument_ref", .str (js "arguments"))]
  expiresAt := sampleExpiry.text
  attribution := sampleAttribution
  idempotencyKey := js "create"
  idempotencyFingerprint := js "create"

def sampleStatus (n : Nat) : ApprovalProposalStatus :=
  if n = 0 then .confirmed else if n % 2 = 1 then .executing else .failed

def sampleKey (n : Nat) : JsString := if n % 2 = 0 then js "even" else js "odd"

def sampleTransition (n : Nat) : TransitionApprovalProposalInput where
  proposalId := sampleProposalId.text
  expectedVersion := .ofNat (n + 1)
  status := sampleStatus n
  attribution := sampleAttribution
  decisionReason := none
  failureReason := if sampleStatus n = .failed then some (js "again") else none
  idempotencyKey := sampleKey n
  idempotencyFingerprint := sampleKey n

def sampleCalls : Nat → List (ApprovalStoreCall × HostReading)
  | 0 => [(.create sampleCreate, sampleReading), (.transition (sampleTransition 0), sampleReading)]
  | n + 1 => sampleCalls n ++ [(.transition (sampleTransition (n + 1)), sampleReading)]

def sampleLimits : ApprovalProposalStoreLimits := { maxIdempotencyRecords := 1 }

namespace InMemoryApprovalProposalStore

/-- The proposal has been moved on so many times after its confirmation, and only the last key is retained. -/
structure Tried (n : Nat) (store : InMemoryApprovalProposalStore) : Prop where
  limits : store.limits = sampleLimits
  keys : ∀ record ∈ store.idempotency, record.key = sampleKey n
  proposal : ∃ p, store.find sampleProposalId = some p ∧ p.status = sampleStatus n ∧ p.proposalVersion = n + 2 ∧
    p.updatedAt = sampleNow ∧ p.expiresAt = sampleExpiry

theorem sampleStatus_next (n : Nat) :
    (sampleStatus (n + 1) = .executing ∨ sampleStatus (n + 1) = .failed) ∧
      isLegalApprovalProposalTransition (sampleStatus n) (sampleStatus (n + 1)) = true := by
  rcases Nat.mod_two_eq_zero_or_one n with even | odd
  · have next : sampleStatus (n + 1) = .executing := by rw [sampleStatus, if_neg (by omega), if_pos (by omega)]
    refine ⟨.inl next, ?_⟩
    rw [next, sampleStatus]
    split
    · rfl
    · rw [if_neg (by omega)]
      rfl
  · have next : sampleStatus (n + 1) = .failed := by rw [sampleStatus, if_neg (by omega), if_neg (by omega)]
    refine ⟨.inr next, ?_⟩
    rw [next, sampleStatus, if_neg (by omega), if_pos odd]
    rfl

theorem sampleKey_next (n : Nat) : sampleKey n ≠ sampleKey (n + 1) := by
  rcases Nat.mod_two_eq_zero_or_one n with even | odd
  · rw [sampleKey, sampleKey, if_pos even, if_neg (by omega)]
    decide
  · rw [sampleKey, sampleKey, if_neg (by omega), if_pos (by omega)]
    decide

def sampleRequest (n : Nat) (safe : n + 2 ≤ JsNumber.maxSafeInteger) : TransitionApprovalProposalSnapshot where
  status := sampleStatus (n + 1)
  decisionReason := none
  failureReason := if sampleStatus (n + 1) = .failed then some (js "again") else none
  changes := by rcases (sampleStatus_next n).1 with status | status <;> rw [status] <;> nofun
  decision := fun _ given => by cases given
  failure := by
    split
    · intro reason given
      obtain rfl := Option.some.inj given
      decide +kernel
    · intro _ given
      cases given
  failed := by split <;> simp_all
  proposalId := sampleProposalId
  expectedVersion := ⟨n + 2, by omega, safe⟩
  attribution := ⟨⟨.system, none⟩, .runtime⟩
  idempotencyKey := sampleKey (n + 1)
  idempotencyFingerprint := sampleKey (n + 1)

theorem snapshot_sampleTransition (n : Nat) (safe : n + 2 ≤ JsNumber.maxSafeInteger) :
    snapshotTransitionInput sampleLimits (sampleTransition (n + 1)) = some (sampleRequest n safe) := by
  have key : validateIdempotency sampleLimits (sampleKey (n + 1)) (sampleKey (n + 1)) = true := by
    unfold sampleKey
    split <;> decide +kernel
  have identity : readIdentifier sampleProposalId.text = some sampleProposalId := rfl
  have version : readSafeInteger 1 (.ofNat (n + 1 + 1)) = some (sampleRequest n safe).expectedVersion :=
    readSafeInteger_eq_some.mpr (JsNumber.safeNat?_ofNat safe)
  have host : cloneAttribution sampleAttribution = some (sampleRequest n safe).attribution := rfl
  simp only [snapshotTransitionInput, sampleTransition, identity, version, key, host, guard_true, Option.bind_eq_bind,
    Option.bind_some, Option.pure_def]
  exact (dif_pos (sampleRequest n safe).changes).trans ((dif_pos (sampleRequest n safe).decision).trans
    (dif_pos ⟨(sampleRequest n safe).failure, (sampleRequest n safe).failed⟩))

theorem Tried.next [Collation] {n : Nat} {store : InMemoryApprovalProposalStore} (tried : store.Tried n)
    (safe : n + 2 ≤ JsNumber.maxSafeInteger) :
    (store.call (.transition (sampleTransition (n + 1))) sampleReading).1.Tried (n + 1) := by
  obtain ⟨current, found, status, version, updated, expires⟩ := tried.proposal
  obtain ⟨next, legal⟩ := sampleStatus_next n
  have unused : store.idempotentResult .transition (sampleKey (n + 1)) (sampleKey (n + 1))
      (transitionRequestSignature (sampleRequest n safe)) = .ok none := by
    rw [idempotentResult, List.find?_eq_none.mpr]
    intro record inside same
    exact sampleKey_next n ((tried.keys record inside).symm.trans (beq_iff_eq.mp same))
  have early : sampleNow.time < sampleExpiry.time := by decide
  have passes : checkTransition current (sampleRequest n safe) sampleNow = .ok () := by
    have host : (sampleRequest n safe).status = .executing ∨ (sampleRequest n safe).status = .failed := next
    have legal : isLegalApprovalProposalTransition current.status (sampleRequest n safe).status = true := status ▸ legal
    unfold checkTransition
    rw [expires, if_neg (by rcases host with host | host <;> simp [host]), if_neg (by omega), if_neg (by simp [legal]),
      if_neg (fun not => not.2 rfl), if_neg (by rcases host with host | host <;> simp [host])]
  have undue : current.isDue sampleNow = false := by
    rw [StoredProposal.isDue, expires, decide_eq_false (by omega), Bool.and_false]
  have read : sampleReading.now = some sampleNow := (readTimestampText_eq_some (t := sampleNow)).mpr rfl
  have called : store.transition (sampleTransition (n + 1)) sampleReading =
      store.transitionStored (sampleRequest n safe) (some sampleNow) := by
    rw [transition, tried.limits, snapshot_sampleTransition n safe, read]
    rfl
  have moved := transitionStored_moves unused found version (by rw [updated]) undue passes
  show (store.transition (sampleTransition (n + 1)) sampleReading).1.Tried (n + 1)
  rw [called, moved]
  refine ⟨tried.limits, fun record inside => ?_, transitionProposal current (sampleRequest n safe).toProposalTransitionData
    sampleNow (sampleRequest n safe).attribution, ?_, rfl, congrArg (· + 1) version, rfl, expires⟩
  · have emptied : store.idempotency.drop (store.idempotency.length + 1 - store.limits.maxIdempotencyRecords) = [] := by
      rw [tried.limits]
      exact List.drop_length
    rcases mem_setFirst inside with rfl | old
    · rfl
    · exact (List.not_mem_nil (emptied ▸ old)).elim
  · exact (find_set _ _).trans (if_pos (find_id found))

def sampleStart : InMemoryApprovalProposalStore := ⟨sampleLimits, ⟨⟨.system, none⟩, .runtime⟩, [], []⟩

theorem tried_confirmed :
    (((sampleStart.create sampleCreate sampleReading).1.transition (sampleTransition 0) sampleReading).1).Tried 0 := by
  have checked : (let confirmed := ((sampleStart.create sampleCreate sampleReading).1.transition (sampleTransition 0)
      sampleReading).1
    decide (confirmed.limits = sampleLimits) && confirmed.idempotency.all (fun record => record.key == sampleKey 0) &&
      (confirmed.find sampleProposalId).any fun p => p.status == .confirmed && p.proposalVersion == 2 &&
        decide (p.updatedAt = sampleNow) && decide (p.expiresAt = sampleExpiry)) = true := by decide +kernel
  simp only [Bool.and_eq_true, decide_eq_true_eq, List.all_eq_true, beq_iff_eq, Option.any_eq_true] at checked
  obtain ⟨⟨limits, keys⟩, p, found, ⟨⟨status, version⟩, updated⟩, expires⟩ := checked
  exact ⟨limits, keys, p, found, status, version, updated, expires⟩

/-- The promises hold of a run that is confirmed and executed once. -/
theorem sample_state_machine : ∃ _ : Collation, StateMachine sampleStart (sampleCalls 1) := by
  let _ := withoutCollation
  exact ⟨withoutCollation, state_machine_holds (show new sampleLimits none = some sampleStart from rfl) (.inr rfl)
    (sampleCalls 1) (by decide +kernel)⟩

theorem tried_calls [Collation] {n : Nat} (safe : n + 1 ≤ JsNumber.maxSafeInteger) :
    (sampleStart.run (sampleCalls n)).Tried n := by
  induction n with
  | zero => exact tried_confirmed
  | succ n ih =>
    rw [sampleCalls, run_append]
    exact (ih (by omega)).next safe

/-- After as many failures as there are safe versions the store writes a record that its validator refuses. -/
theorem version_beyond_safe_integers : ∃ _ : Collation, ∃ (limits : ApprovalProposalStoreLimits)
    (start : InMemoryApprovalProposalStore) (calls : List (ApprovalStoreCall × HostReading)),
    new limits none = some start ∧ start.ExpiryAllowed ∧ (∀ call ∈ calls, call.2.permitted = true ∧ call.2.now.isSome = true) ∧
    ∃ p ∈ (start.run calls).proposals, isConversationApprovalProposalRecord p.toJson ≠ .ok () := by
  let _ := withoutCollation
  obtain ⟨n, largest⟩ : ∃ n, n + 1 = JsNumber.maxSafeInteger := ⟨9007199254740990, rfl⟩
  refine ⟨withoutCollation, sampleLimits, sampleStart, sampleCalls n, rfl, .inr rfl, ?_, ?_⟩
  · have readings (n : Nat) : ∀ call ∈ sampleCalls n, call.2 = sampleReading := by
      induction n with
      | zero => simp [sampleCalls]
      | succ n ih =>
        intro call inside
        rcases List.mem_append.mp inside with earlier | last
        · exact ih call earlier
        · rw [List.mem_singleton.mp last]
    intro call inside
    rw [readings _ call inside]
    have read : sampleReading.now = some sampleNow := (readTimestampText_eq_some (t := sampleNow)).mpr rfl
    exact ⟨rfl, read ▸ rfl⟩
  · obtain ⟨p, found, _, version, _⟩ := (tried_calls (n := n) (by omega)).proposal
    have sound := ((Sound.new (show new sampleLimits none = some sampleStart from rfl)).run (.inr rfl) (sampleCalls n)).1
    refine ⟨p, List.mem_of_find?_eq_some found, fun passes => ?_⟩
    have bound := (sound.each _ _ found).passes_iff.mp passes
    rw [version] at bound
    omega

end InMemoryApprovalProposalStore

end Handrail.Conversation

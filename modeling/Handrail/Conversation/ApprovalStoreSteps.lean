import Handrail.Conversation.ApprovalStore
import Handrail.Conversation.EventClones

/-!
# The calls of the in-memory approval store

What one call does to every proposal, said once: it keeps it, creates it, or changes its status by a legal transition.
-/

namespace Handrail.Conversation
open Js

/-! ### Valid records -/

structure StoredProposal.Sound (p : StoredProposal) : Prop where
  reviewed : p.reviewedArguments.Valid
  expires : p.createdAt.time < p.expiresAt.time
  updated : p.createdAt.time ≤ p.updatedAt.time
  creator : p.createdAttribution.actor.type = .system
  positive : 1 ≤ p.proposalVersion
  pending : p.status = .pending →
    p.proposalVersion = 1 ∧ p.decisionAt = none ∧ p.decisionAttribution = none ∧ p.decisionReason = none
  decided : p.status ≠ .pending → 2 ≤ p.proposalVersion ∧ p.decisionAt.isSome = true ∧
    ∃ a, p.decisionAttribution = some a ∧ (a.actor.type = .user ∨ a.actor.type = .system)
  decisionReason : ∀ r ∈ p.decisionReason, IsReason r
  failureReason : ∀ r ∈ p.failureReason, IsReason r
  failed : p.failureReason.isSome = true ↔ p.status = .failed

theorem validateApprovalReason_of_isReason {reason : JsString} (valid : IsReason reason) :
    validateApprovalReason (some (.str reason)) = .ok reason := by
  unfold IsReason isConversationApprovalReason at valid
  cases read : validateApprovalReason (some (.str reason)) with
  | error e => rw [read] at valid; cases valid
  | ok text =>
    have same := validateApprovalReason_text read
    rw [Option.some.injEq, Json.str.injEq] at same
    rw [same]

namespace StoredProposal
variable {p : StoredProposal}

theorem Sound.record (sound : p.Sound) (safe : p.proposalVersion ≤ JsNumber.maxSafeInteger) :
    (p.record sound.positive safe).Sound where
  reviewed := sound.reviewed
  expires := sound.expires
  creator := sound.creator
  pending := sound.pending
  decided := sound.decided
  decisionReason r given := validateApprovalReason_of_isReason (sound.decisionReason r given)
  failureReason r given := validateApprovalReason_of_isReason (sound.failureReason r given)
  failed := sound.failed

/-- A record of the store passes the validator exactly when its version is a safe integer. -/
theorem Sound.passes_iff (sound : p.Sound) :
    isConversationApprovalProposalRecord p.toJson = .ok () ↔ p.proposalVersion ≤ JsNumber.maxSafeInteger := by
  constructor
  · intro passes
    have passes : isApprovalProposal (Json.fieldsOf p.fields) = .ok () := passes
    simp only [isApprovalProposal, bind_eq_ok, ensure_eq_ok] at passes
    obtain ⟨_, _, _, _, _, _, _, _, _, _, _, _, _, _, _, _, _, version, _⟩ := passes
    have written : Json.get (Json.fieldsOf p.fields) "proposal_version" = some (.num (.ofNat p.proposalVersion)) := by
      rw [Json.get_fieldsOf]
      rfl
    rw [written, isSafeIntegerFrom, Option.any_eq_true] at version
    obtain ⟨n, read, _⟩ := version
    simp only [JsNumber.safeNat?, JsNumber.toNat?_ofNat, Option.filter_eq_some_iff, Option.some.injEq,
      decide_eq_true_eq] at read
    obtain ⟨rfl, safe⟩ := read
    exact safe
  · intro safe
    exact (isApprovalProposal_encode (sound.record safe)).mpr sound.updated

end StoredProposal

/-! ### What a call does to a proposal -/

structure StatusChange (expiry : Attribution) (current : StoredProposal) (data : ProposalTransitionData)
    (attribution : Attribution) (now : Timestamp) : Prop where
  legal : isLegalApprovalProposalTransition current.status data.status = true
  later : current.updatedAt.time ≤ now.time ∨ current.expiresAt.time ≤ now.time
  timely : data.status = .confirmed ∨ data.status = .executing → now.time < current.expiresAt.time
  decider : isDecision data.status = true →
    attribution.actor.type = .user ∨ attribution.actor.type = .system ∨ attribution = expiry

/-- What a call may do to what is stored under one identity; a transition says the version that it starts from. -/
inductive Evolves (expiry : Attribution) (expected : Option Nat) (now : Option Timestamp) :
    Option StoredProposal → Option StoredProposal → Prop
  | kept (stored : Option StoredProposal) : Evolves expiry expected now stored stored
  | created (request : CreateApprovalProposalSnapshot) (time : Timestamp) (read : now = some time)
      (early : time.time < request.expiresAt.time) (creator : request.attribution.actor.type = .system) :
      Evolves expiry expected now none (some (request.proposal time))
  | changed {current : StoredProposal} {data : ProposalTransitionData} {attribution : Attribution} (time : Timestamp)
      (read : now = some time) (change : StatusChange expiry current data attribution time)
      (asked : current.status = .pending ∨ expected = some current.proposalVersion) :
      Evolves expiry expected now (some current) (some (transitionProposal current data time attribution))

theorem legal_from_pending {next : ApprovalProposalStatus}
    (legal : isLegalApprovalProposalTransition .pending next = true) : isDecision next = true := by
  cases next <;> first | rfl | cases legal

theorem legal_from_failed {next : ApprovalProposalStatus}
    (legal : isLegalApprovalProposalTransition .failed next = true) : next = .executing := by
  cases next <;> first | rfl | cases legal

theorem legal_changes {status next : ApprovalProposalStatus} (legal : isLegalApprovalProposalTransition status next = true) :
    status ≠ next := by
  rintro rfl
  cases status <;> cases legal

variable {now : Timestamp}

theorem StatusChange.sound {expiry : Attribution} {current : StoredProposal} {data : ProposalTransitionData}
    {attribution : Attribution} (change : StatusChange expiry current data attribution now)
    (allowed : expiry.actor.type = .user ∨ expiry.actor.type = .system) (sound : current.Sound) :
    (transitionProposal current data now attribution).Sound where
  reviewed := sound.reviewed
  expires := sound.expires
  updated := by
    have created := sound.updated
    have expires := sound.expires
    have later := change.later
    show current.createdAt.time ≤ now.time
    omega
  creator := sound.creator
  positive := Nat.le_add_left 1 _
  pending pending := (data.changes pending).elim
  decided _ := by
    have positive := sound.positive
    refine ⟨Nat.succ_le_succ positive, ?_⟩
    simp only [transitionProposal]
    split
    · rename_i decision
      refine ⟨rfl, attribution, rfl, ?_⟩
      rcases change.decider decision with user | system | rfl
      · exact .inl user
      · exact .inr system
      · exact allowed
    · rename_i undecided
      refine (sound.decided fun pending => undecided ?_).2
      exact legal_from_pending (pending ▸ change.legal)
  decisionReason := by
    simp only [transitionProposal]
    split
    · exact fun r given => (data.decision r given).2
    · exact sound.decisionReason
  failureReason := by
    simp only [transitionProposal]
    split
    · exact data.failure
    · split
      · intro _ given
        cases given
      · exact sound.failureReason
  failed := by
    simp only [transitionProposal]
    split
    · exact data.failed
    · rename_i other
      split
      · rename_i executing
        simp [executing]
      · rename_i notExecuting
        have current := sound.failed.not.mpr fun failed => notExecuting (legal_from_failed (failed ▸ change.legal))
        simpa [other] using current

theorem CreateApprovalProposalSnapshot.proposal_sound {request : CreateApprovalProposalSnapshot}
    (early : now.time < request.expiresAt.time) (creator : request.attribution.actor.type = .system) :
    (request.proposal now).Sound where
  reviewed := request.reviewed
  expires := early
  updated := Int.le_refl _
  creator := creator
  positive := Nat.le_refl 1
  pending _ := ⟨rfl, rfl, rfl, rfl⟩
  decided decided := (decided rfl).elim
  decisionReason := nofun
  failureReason := nofun
  failed := by simp [proposal]

/-! ### The entries of the store -/

namespace InMemoryApprovalProposalStore
variable {store : InMemoryApprovalProposalStore}

def Distinct (store : InMemoryApprovalProposalStore) : Prop := (store.proposals.map StoredProposal.proposalId).Nodup

theorem find_set (p : StoredProposal) (id : Identifier) :
    (store.set p).find id = if p.proposalId = id then some p else store.find id := find?_setFirst

theorem Distinct.set (distinct : store.Distinct) (p : StoredProposal) : (store.set p).Distinct := nodup_setFirst distinct

theorem find_id {id : Identifier} {p : StoredProposal} (found : store.find id = some p) : p.proposalId = id :=
  beq_iff_eq.mp (List.find?_some (p := fun q : StoredProposal => q.proposalId == id) found)

theorem Distinct.find_iff (distinct : store.Distinct) {p : StoredProposal} :
    store.find p.proposalId = some p ↔ p ∈ store.proposals := by
  constructor
  · exact List.mem_of_find?_eq_some
  · intro stored
    refine find?_eq_some_of_unique stored (beq_self_eq_true _) fun other inside same => ?_
    exact List.inj_on_of_nodup_map distinct inside stored (beq_iff_eq.mp same)

/-- What is retained from a call: an earlier result, or the result of the proposal that the call has just stored. -/
inductive Retained (store next : InMemoryApprovalProposalStore) : IdempotencyRecord → Prop
  | old {record : IdempotencyRecord} (known : record ∈ store.idempotency) : Retained store next record
  | created {record : IdempotencyRecord} (operation : record.operation = .create)
      (absent : store.find record.result.proposalId = none)
      (stored : next.find record.result.proposalId = some record.result) : Retained store next record
  | moved {record : IdempotencyRecord} {current : StoredProposal} (request : TransitionApprovalProposalSnapshot)
      (signature : record.requestSignature = transitionRequestSignature request)
      (present : store.find request.proposalId = some current)
      (expected : current.proposalVersion = request.expectedVersion.value)
      (identity : record.result.proposalId = request.proposalId)
      (version : record.result.proposalVersion = current.proposalVersion + 1)
      (stored : next.find request.proposalId = some record.result) : Retained store next record

theorem Retained.cases {next : InMemoryApprovalProposalStore} {record : IdempotencyRecord}
    (retained : Retained store next record) :
    record ∈ store.idempotency ∨ next.find record.result.proposalId = some record.result := by
  cases retained with
  | old known => exact .inl known
  | created _ _ stored => exact .inr stored
  | moved request _ _ _ identity _ stored => exact .inr (identity ▸ stored)

structure Step (expected : Option Nat) (now : Option Timestamp) (store next : InMemoryApprovalProposalStore) : Prop where
  distinct : next.Distinct
  evolves : ∀ id, Evolves store.expiryAttribution expected now (store.find id) (next.find id)
  retained : ∀ record ∈ next.idempotency, Retained store next record
  options : next.limits = store.limits ∧ next.expiryAttribution = store.expiryAttribution

theorem Step.refl (distinct : store.Distinct) (expected : Option Nat) (now : Option Timestamp) :
    Step expected now store store :=
  ⟨distinct, fun _ => .kept _, fun _ => .old, rfl, rfl⟩

/-! ### Expiry -/

structure Expired (expected : Option Nat) (now : Timestamp) (ids : List Identifier)
    (store next : InMemoryApprovalProposalStore) : Prop where
  distinct : next.Distinct
  others : ∀ id ∉ ids, next.find id = store.find id
  evolves : ∀ id, Evolves store.expiryAttribution expected (some now) (store.find id) (next.find id)
  idempotency : next.idempotency = store.idempotency
  options : next.limits = store.limits ∧ next.expiryAttribution = store.expiryAttribution

theorem Expired.step {expected : Option Nat} {ids : List Identifier}
    {next : InMemoryApprovalProposalStore} (expired : Expired expected now ids store next) :
    Step expected (some now) store next where
  distinct := expired.distinct
  evolves := expired.evolves
  retained _ inside := .old (expired.idempotency ▸ inside)
  options := expired.options

theorem due_change {p : StoredProposal} (due : p.isDue now = true) :
    StatusChange store.expiryAttribution p .expired store.expiryAttribution now := by
  simp only [StoredProposal.isDue, Bool.and_eq_true, beq_iff_eq, decide_eq_true_eq] at due
  exact ⟨by rw [due.1]; rfl, .inr due.2, nofun, fun _ => .inr (.inr rfl)⟩

theorem expireIfDue_expired (distinct : store.Distinct) {p : StoredProposal} (expected : Option Nat) (now : Timestamp)
    (stored : store.find p.proposalId = some p) : Expired expected now [p.proposalId] store (store.expireIfDue p now).1 := by
  unfold expireIfDue
  split
  · rename_i due
    have found (id : Identifier) : (store.set (transitionProposal p .expired now store.expiryAttribution)).find id = _ :=
      find_set _ id
    refine ⟨distinct.set _, fun id other => ?_, fun id => ?_, rfl, rfl, rfl⟩
    · rw [found, if_neg fun same => other (List.mem_singleton.mpr same.symm)]
    · rw [found]
      split
      · rename_i same
        obtain rfl : p.proposalId = id := same
        rw [stored]
        refine .changed now rfl (due_change due) (.inl ?_)
        simp only [StoredProposal.isDue, Bool.and_eq_true, beq_iff_eq] at due
        exact due.1
      · exact .kept _
  · exact ⟨distinct, fun _ _ => rfl, fun _ => .kept _, rfl, rfl, rfl⟩

theorem expireGroup_expired {expected : Option Nat} {groupId : Identifier} {ps : List StoredProposal} (distinct : store.Distinct)
    (ids : (ps.map StoredProposal.proposalId).Nodup) (stored : ∀ p ∈ ps, store.find p.proposalId = some p) :
    Expired expected now (ps.map StoredProposal.proposalId) store (expireGroup groupId now ps store).1 := by
  induction ps generalizing store with
  | nil => exact ⟨distinct, fun _ _ => rfl, fun _ => .kept _, rfl, rfl, rfl⟩
  | cons p rest ih =>
    rw [List.map_cons, List.nodup_cons] at ids
    rw [List.forall_mem_cons] at stored
    unfold expireGroup
    split
    · have first := expireIfDue_expired distinct expected now stored.1
      have later := ih first.distinct ids.2 fun q inside => by
        rw [first.others q.proposalId, stored.2 q inside]
        intro same
        exact ids.1 (List.mem_singleton.mp same ▸ List.mem_map_of_mem inside)
      refine ⟨later.distinct, fun id other => ?_, fun id => ?_, later.idempotency.trans first.idempotency,
        later.options.1.trans first.options.1, later.options.2.trans first.options.2⟩
      · rw [List.map_cons, List.mem_cons, not_or] at other
        exact (later.others id other.2).trans (first.others id (mt List.mem_singleton.mp other.1))
      · by_cases same : id = p.proposalId
        · have kept := later.others id (same ▸ ids.1)
          show Evolves _ _ _ _ ((expireGroup groupId now rest (store.expireIfDue p now).1).1.find id)
          rw [kept]
          exact first.evolves id
        · rw [← first.others id (mt List.mem_singleton.mp same), ← first.options.2]
          exact later.evolves id
    · have later := ih distinct ids.2 stored.2
      refine ⟨later.distinct, fun id other => ?_, later.evolves, later.idempotency, later.options⟩
      rw [List.map_cons, List.mem_cons, not_or] at other
      exact later.others id other.2

/-! ### What each call does -/

theorem idempotentResult_eq_ok {operation : ApprovalProposalStoreOperation} {key fingerprint signature : JsString}
    {retry : StoredProposal} (answered : store.idempotentResult operation key fingerprint signature = .ok (some retry)) :
    ∃ record ∈ store.idempotency, record.operation = operation ∧ record.requestSignature = signature ∧
      record.result = retry := by
  unfold idempotentResult at answered
  split at answered
  · cases answered
  · rename_i record found
    split at answered
    · cases answered
    · rename_i same
      simp only [not_or, ne_eq, not_not] at same
      exact ⟨record, List.mem_of_find?_eq_some found, same.1, same.2.2, Option.some.inj (Except.ok.inj answered)⟩

theorem mem_retainIdempotency {record other : IdempotencyRecord}
    (inside : other ∈ (store.retainIdempotency record).idempotency) : other = record ∨ other ∈ store.idempotency :=
  (mem_setFirst inside).imp_right List.mem_of_mem_drop

theorem createStored_step (distinct : store.Distinct) (request : CreateApprovalProposalSnapshot) (now : Option Timestamp) :
    Step none now store (store.createStored request now).1 := by
  have stays := Step.refl distinct none now
  unfold createStored
  dsimp only
  split
  · exact stays
  · exact stays
  · split
    · exact stays
    rename_i absent
    split
    · exact stays
    split
    · exact stays
    rename_i time
    split
    · exact stays
    rename_i early
    split
    · exact stays
    rename_i creator
    have absent : store.find request.proposalId = none := by simpa using absent
    refine ⟨distinct.set _, fun id => ?_, fun record inside => ?_, rfl, rfl⟩
    · show Evolves _ _ _ _ ((store.set (request.proposal time)).find id)
      rw [find_set]
      split
      · rename_i same
        obtain rfl : request.proposalId = id := same
        rw [absent]
        exact .created request time rfl (by omega) (not_not.mp creator)
      · exact .kept _
    · rcases mem_retainIdempotency inside with rfl | old
      · exact .created rfl absent ((find_set _ _).trans (if_pos rfl))
      · exact .old old

theorem getStored_step (distinct : store.Distinct) (id : Identifier) (now : Option Timestamp) :
    Step none now store (store.getStored id now).1 := by
  unfold getStored
  split
  · exact .refl distinct none now
  · rename_i p found
    split
    · exact .refl distinct none none
    · exact (expireIfDue_expired distinct _ _ (by rw [find_id found]; exact found)).step

theorem listGroupStored_step [Collation] (distinct : store.Distinct) (groupId : Identifier) (now : Option Timestamp) :
    Step none now store (store.listGroupStored groupId now).1 := by
  unfold listGroupStored
  split
  · exact .refl distinct none none
  · exact (expireGroup_expired distinct distinct fun p inside => distinct.find_iff.mpr inside).step

theorem legal_to_confirmed {status : ApprovalProposalStatus}
    (legal : isLegalApprovalProposalTransition status .confirmed = true) : status = .pending := by
  cases status <;> first | rfl | cases legal

theorem checkTransition_change (expiry : Attribution) {current : StoredProposal}
    {request : TransitionApprovalProposalSnapshot}
    (passes : checkTransition current request now = .ok ()) (ordered : current.updatedAt.time ≤ now.time)
    (undue : current.isDue now = true → request.status = .expired) :
    StatusChange expiry current request.toProposalTransitionData request.attribution now := by
  unfold checkTransition at passes
  split at passes
  · cases passes
  split at passes
  · cases passes
  rename_i executing
  split at passes
  · cases passes
  rename_i legal
  split at passes
  · cases passes
  rename_i byHost
  split at passes
  · cases passes
  rename_i byUser
  have legal : isLegalApprovalProposalTransition current.status request.status = true := by simpa using legal
  refine ⟨legal, .inl ordered, fun target => ?_, fun decision => ?_⟩
  · rcases target with confirmed | begins
    · have pending : current.status = .pending := legal_to_confirmed (confirmed ▸ legal)
      by_contra late
      have due : current.isDue now = true := by
        simp only [StoredProposal.isDue, pending, Bool.and_eq_true, beq_iff_eq, decide_eq_true_eq, true_and]
        omega
      rw [undue due] at confirmed
      cases confirmed
    · by_contra late
      exact executing ⟨begins, by omega⟩
  · cases status : request.status with
    | confirmed | rejected =>
      have allowed := not_and_not_right.mp byUser (by simp [status])
      simp only [List.mem_cons, List.not_mem_nil, or_false] at allowed
      exact allowed.imp_right .inl
    | expired => exact .inr (.inl (not_and_not_right.mp byHost (by simp [status])))
    | _ => rw [status] at decision; cases decision

theorem transitionStored_step (distinct : store.Distinct) (request : TransitionApprovalProposalSnapshot)
    (now : Option Timestamp) :
    Step (some request.expectedVersion.value) now store (store.transitionStored request now).1 := by
  have stays := Step.refl distinct (some request.expectedVersion.value) now
  unfold transitionStored
  dsimp only
  split
  · exact stays
  · exact stays
  · split
    · exact stays
    rename_i current found
    split
    · exact stays
    rename_i version
    split
    · exact stays
    rename_i time
    split
    · exact stays
    rename_i ordered
    split
    · exact (expireIfDue_expired distinct _ time (by rw [find_id found]; exact found)).step
    rename_i undue
    split
    · exact stays
    rename_i passes
    have change := checkTransition_change store.expiryAttribution passes (by omega) (by simpa using undue)
    have identity : current.proposalId = request.proposalId := find_id found
    refine ⟨distinct.set _, fun id => ?_, fun record inside => ?_, rfl, rfl⟩
    · show Evolves _ _ _ _ ((store.set _).find id)
      rw [find_set]
      split
      · rename_i same
        obtain rfl : request.proposalId = id := identity.symm.trans same
        rw [found]
        exact .changed time rfl change (.inr (congrArg some (not_not.mp version).symm))
      · exact .kept _
    · rcases mem_retainIdempotency inside with rfl | old
      · exact .moved request rfl found (not_not.mp version) identity rfl ((find_set _ _).trans (if_pos identity))
      · exact .old old

theorem snapshotTransitionInput_eq_some {limits : ApprovalProposalStoreLimits} {input : TransitionApprovalProposalInput}
    {request : TransitionApprovalProposalSnapshot} (read : snapshotTransitionInput limits input = some request) :
    readIdentifier input.proposalId = some request.proposalId ∧
      readSafeInteger 1 input.expectedVersion = some request.expectedVersion := by
  simp only [snapshotTransitionInput, Option.bind_eq_bind, Option.bind_eq_some_iff] at read
  obtain ⟨proposalId, identity, _, _, expectedVersion, version, read⟩ := read
  split at read
  · split at read
    · split at read
      · obtain ⟨attribution, _, read⟩ := Option.bind_eq_some_iff.mp read
        obtain rfl := Option.some.inj read
        exact ⟨identity, version⟩
      · cases read
    · cases read
  · cases read

/-- Every call is a step of the state machine. -/
theorem call_step [Collation] (distinct : store.Distinct) (call : ApprovalStoreCall) (reading : HostReading) :
    Step call.expectedVersion reading.now store (store.call call reading).1 := by
  cases call with
  | create input =>
    show Step _ _ store (store.create input reading).1
    unfold create
    split
    · exact .refl distinct _ _
    split
    · exact createStored_step distinct _ _
    · exact .refl distinct _ _
  | get proposalId =>
    show Step _ _ store (store.get proposalId reading).1
    unfold get
    split
    · exact .refl distinct _ _
    split
    · exact getStored_step distinct _ _
    · exact .refl distinct _ _
  | listGroup groupId =>
    show Step _ _ store (store.listGroup groupId reading).1
    unfold listGroup
    split
    · exact .refl distinct _ _
    split
    · exact listGroupStored_step distinct _ _
    · exact .refl distinct _ _
  | transition input =>
    show Step _ _ store (store.transition input reading).1
    unfold transition
    split
    · exact .refl distinct _ _
    rename_i request read
    split
    · have version : (ApprovalStoreCall.transition input).expectedVersion = some request.expectedVersion.value := by
        rw [ApprovalStoreCall.expectedVersion, (snapshotTransitionInput_eq_some read).2]
        rfl
      rw [version]
      exact transitionStored_step distinct request _
    · exact .refl distinct _ _

end InMemoryApprovalProposalStore

end Handrail.Conversation

import Handrail.Postgres.RealtimeCallSteps

/-!
# A realtime call is created once and ended once

Whatever the workers, the clocks and the races are.
-/

namespace Handrail.Postgres
open Js Concurrent

def RealtimeCallStatus.isClosing : RealtimeCallStatus → Bool
  | .ending | .ended => true
  | _ => false

structure LawfulChange (request : RealtimeCallRequest) (before after : RealtimeCallRecord) : Prop where
  unended : before.status ≠ .ended
  updates : ∀ conversationId workerId fingerprint, request ≠ .admit_ conversationId workerId fingerprint
  worker : after.workerId = before.workerId
  reference : ∀ ref, before.providerCallRef = some ref → after.providerCallRef = some ref
  started : before.creationStarted = true → after.creationStarted = true
  begins : ∀ workerId, request = .beginCreation workerId →
    before.workerId = workerId ∧ before.status = .admitted ∧ before.creationStarted = false ∧ after.creationStarted = true
  requested : request = .requestEnd → after.status.isClosing = true
  closing : before.status.isClosing = true → after.status.isClosing = true
  confirmed : after.status = .ended → before.creationStarted = true →
    ∃ ref, request = .confirmEnded ref ∧ before.providerCallRef = some ref
  cancelled : after.status = .ended → before.creationStarted = false → request = .requestEnd

/-! ### Changes are lawful -/

theorem not_closing_of_leased {status : RealtimeCallStatus} (leased : status.isLeased = true) : status.isClosing = false := by
  cases status <;> first | rfl | cases leased

theorem observedStatus_cases (now : Nat) (record : RealtimeCallRecord) :
    observedStatus now record = record.status ∨
      (observedStatus now record = .uncertain ∧ record.status.isLeased = true ∧ record.leaseExpiresAt ≤ now) := by
  unfold observedStatus
  split
  · rename_i expired
    exact .inr ⟨rfl, expired.2, expired.1⟩
  · exact .inl rfl

theorem status_of_observed {now : Nat} {record : RealtimeCallRecord} {status : RealtimeCallStatus}
    (seen : observedStatus now record = status) (certain : status ≠ .uncertain) : record.status = status := by
  rcases observedStatus_cases now record with same | ⟨uncertain, -, -⟩
  · rw [← same, seen]
  · exact (certain (seen.symm.trans uncertain)).elim

theorem observedStatus_kept {now : Nat} {record : RealtimeCallRecord} (kept : record.status.isLeased = false) :
    observedStatus now record = record.status := by
  rcases observedStatus_cases now record with same | ⟨-, leased, -⟩
  · exact same
  · rw [kept] at leased
    cases leased

section
variable {record : RealtimeCallRecord} {callId : JsString} (valid : validRecord record callId = true)
include valid

theorem valid_admitted (admitted : record.status = .admitted) : record.creationStarted = false := by
  cases started : record.creationStarted with
  | false => rfl
  | true => simp [validRecord, admitted, started] at valid

theorem valid_ended (ended : record.status = .ended) (started : record.creationStarted = true) :
    ∃ ref, record.providerCallRef = some ref := by
  cases given : record.providerCallRef with
  | some ref => exact ⟨ref, rfl⟩
  | none => simp [validRecord, ended, started, given] at valid

theorem valid_reference {ref : JsString} (given : record.providerCallRef = some ref) : record.creationStarted = true := by
  cases started : record.creationStarted with
  | true => rfl
  | false => simp [validRecord, given, started] at valid

end

section
variable {record : RealtimeCallRecord} {callId : JsString} {now updatedAt : Nat}

/-- Nothing changes a record that has ended: its reference is the one that could be attached. -/
theorem changes_ended {request : RealtimeCallRequest} {changed : RealtimeCallRecord}
    (valid : validRecord record callId = true) (ended : record.status = .ended)
    (changes : Changes (observed now record) request changed) : observed now record = changed := by
  have kept : observedStatus now record = .ended := (observedStatus_kept (by rw [ended]; rfl)).trans ended
  cases changes with
  | begun own admitted => cases kept.symm.trans admitted
  | @attached workerId providerCallRef own started fits =>
    obtain ⟨ref, given⟩ := valid_ended valid ended started
    have same : ref = providerCallRef := by simpa [observed, given] using fits
    simp [observed, kept, given, same]
  | renewed own leased => simp [observed, kept, RealtimeCallStatus.isLeased] at leased
  | ending => simp [observed, kept]
  | confirmed => simp [observed, kept]

theorem begun_lawful {workerId : JsString} (valid : validRecord record callId = true) (own : record.workerId = workerId)
    (admitted : observedStatus now record = .admitted) :
    LawfulChange (.beginCreation workerId) record
      { observed now record with status := .starting, creationStarted := true, updatedAt } := by
  have admitted : record.status = .admitted := status_of_observed admitted (by simp)
  exact {
    unended := by simp [admitted]
    updates := by simp
    worker := rfl
    reference := fun ref given => given
    started := fun _ => rfl
    begins := fun workerId same => by
      cases same
      exact ⟨own, admitted, valid_admitted valid admitted, rfl⟩
    requested := by simp
    closing := by simp [admitted, RealtimeCallStatus.isClosing]
    confirmed := by simp
    cancelled := by simp }

theorem attached_lawful {workerId providerCallRef : JsString} (unended : record.status ≠ .ended)
    (started : record.creationStarted = true)
    (fits : record.providerCallRef = none ∨ record.providerCallRef = some providerCallRef) :
    LawfulChange (.attachProviderCall workerId providerCallRef) record { observed now record with
      providerCallRef := some providerCallRef
      status := if observedStatus now record = .starting then .active else observedStatus now record
      updatedAt } := by
  have apart : ¬observedStatus now record = .ended := fun ended => unended (status_of_observed ended (by simp))
  exact {
    unended
    updates := by simp
    worker := rfl
    reference := fun ref given => by
      have same : ref = providerCallRef := by simpa [observed, given] using fits
      simp [same]
    started := fun _ => started
    begins := by simp
    requested := by simp
    closing := fun closing => by
      have kept : observedStatus now record = record.status := by
        rcases observedStatus_cases now record with same | ⟨-, leased, -⟩
        · exact same
        · rw [not_closing_of_leased leased] at closing
          cases closing
      have waiting : record.status ≠ .starting := by
        intro starting
        rw [starting] at closing
        cases closing
      simpa [observed, kept, waiting] using closing
    confirmed := fun ended => by
      by_cases starting : observedStatus now record = .starting
      · simp [starting] at ended
      · simp [starting, apart] at ended
    cancelled := fun ended => by
      by_cases starting : observedStatus now record = .starting
      · simp [starting] at ended
      · simp [starting, apart] at ended }

theorem renewed_lawful {workerId : JsString} (leased : (observedStatus now record).isLeased = true) (leaseExpiresAt : Nat) :
    LawfulChange (.renewLease workerId) record { observed now record with leaseExpiresAt, updatedAt } := by
  have certain : observedStatus now record ≠ .uncertain := by
    intro uncertain
    simp [uncertain, RealtimeCallStatus.isLeased] at leased
  have kept : record.status = observedStatus now record := status_of_observed rfl certain
  have leased : record.status.isLeased = true := by
    rw [kept]
    exact leased
  have unended : record.status ≠ .ended := by
    intro ended
    rw [ended] at leased
    cases leased
  exact {
    unended
    updates := by simp
    worker := rfl
    reference := fun ref given => given
    started := fun started => started
    begins := by simp
    requested := by simp
    closing := fun closing => by
      rw [not_closing_of_leased leased] at closing
      cases closing
    confirmed := fun ended => (unended (kept.trans ended)).elim
    cancelled := fun ended => (unended (kept.trans ended)).elim }

theorem ending_lawful (unended : record.status ≠ .ended) :
    LawfulChange .requestEnd record { observed now record with
      status := if observedStatus now record = .ended ∨ !record.creationStarted then .ended else .ending
      updatedAt } := by
  have apart : ¬observedStatus now record = .ended := fun ended => unended (status_of_observed ended (by simp))
  exact {
    unended
    updates := by simp
    worker := rfl
    reference := fun ref given => given
    started := fun started => started
    begins := by simp
    requested := fun _ => by
      cases record.creationStarted <;> simp [apart, RealtimeCallStatus.isClosing]
    closing := fun _ => by
      cases record.creationStarted <;> simp [apart, RealtimeCallStatus.isClosing]
    confirmed := fun ended started => by simp [apart, started] at ended
    cancelled := fun _ _ => rfl }

theorem confirmed_lawful {providerCallRef : JsString} (valid : validRecord record callId = true)
    (named : record.providerCallRef = some providerCallRef) (unended : record.status ≠ .ended) :
    LawfulChange (.confirmEnded providerCallRef) record { record with status := .ended, updatedAt } where
  unended
  updates := by simp
  worker := rfl
  reference := fun ref given => given
  started := fun started => started
  begins := by simp
  requested := by simp
  closing := fun _ => rfl
  confirmed := fun _ _ => ⟨_, rfl, named⟩
  cancelled := fun _ started => by
    rw [valid_reference valid named] at started
    cases started

end

theorem changes_lawful {record changed : RealtimeCallRecord} {callId : JsString} {request : RealtimeCallRequest} {now : Nat}
    (valid : validRecord record callId = true) (changes : Changes (observed now record) request changed)
    (different : observed now record ≠ changed) (updatedAt : Nat) :
    LawfulChange request record { changed with updatedAt } := by
  have unended : record.status ≠ .ended := fun ended => different (changes_ended valid ended changes)
  cases changes with
  | begun own admitted => exact begun_lawful valid own admitted
  | attached own started fits => exact attached_lawful unended started fits
  | renewed own leased leaseExpiresAt => exact renewed_lawful leased leaseExpiresAt
  | ending => exact ending_lawful unended
  | confirmed closing named => exact confirmed_lawful valid named unended

/-! ### What the commits say about the calls -/

def RealtimeCallCommit.begins (key : DocumentKey) (commit : RealtimeCallCommit) : Bool :=
  decide (commit.key = key) &&
    match commit.request with
    | .beginCreation _ => true
    | _ => false

structure RealtimeCallCommit.Stands (commit : RealtimeCallCommit) (call : RealtimeCallRecord) : Prop where
  admitted : ∀ conversationId workerId fingerprint, commit.request = .admit_ conversationId workerId fingerprint →
    call.workerId = workerId
  begun : ∀ workerId, commit.request = .beginCreation workerId → call.workerId = workerId ∧ call.creationStarted = true
  requested : commit.request = .requestEnd → call.status.isClosing = true

structure CallHistory (s : RealtimeCallState) : Prop where
  stands : ∀ commit ∈ s.commits, ∃ d, s.calls commit.key = some d ∧ commit.Stands d.record
  admission : ∀ key d, s.calls key = some d → ∃ commit ∈ s.commits, commit.key = key ∧
    ∃ conversationId fingerprint, commit.request = .admit_ conversationId d.record.workerId fingerprint
  once : ∀ key, (s.commits.filter (RealtimeCallCommit.begins key)).length ≤ 1
  order : s.commits.Pairwise fun later earlier => later.key = earlier.key → earlier.request = .requestEnd →
    ∀ workerId, later.request ≠ .beginCreation workerId
  lawful : ∀ commit ∈ s.commits, ∀ before, commit.before = some before → LawfulChange commit.request before commit.after
  first : ∀ commit ∈ s.commits, commit.before = none → commit.after.status = .admitted

structure CallsEvolve (s t : RealtimeCallState) : Prop where
  calls : ∀ key d, s.calls key = some d → ∃ e, t.calls key = some e ∧
    (∀ ref, d.record.providerCallRef = some ref → e.record.providerCallRef = some ref) ∧
    (d.record.status = .ended → e = d)
  commits : ∀ commit ∈ s.commits, commit ∈ t.commits

theorem CallsEvolve.refl (s : RealtimeCallState) : CallsEvolve s s where
  calls _ d found := ⟨d, found, fun _ given => given, fun _ => rfl⟩
  commits _ member := member

theorem CallsEvolve.trans {s t u : RealtimeCallState} (st : CallsEvolve s t) (tu : CallsEvolve t u) : CallsEvolve s u where
  calls key d found := by
    obtain ⟨e, here, reference, ended⟩ := st.calls key d found
    obtain ⟨f, there, reference', ended'⟩ := tu.calls key e here
    refine ⟨f, there, fun ref given => reference' ref (reference ref given), fun spent => ?_⟩
    obtain rfl := ended spent
    exact ended' spent
  commits commit member := tu.commits commit (st.commits commit member)

section
variable {s : RealtimeCallState} {key : DocumentKey} {request : RealtimeCallRequest} {value : RealtimeCallRecord}

theorem stands_other (history : CallHistory s) {commit : RealtimeCallCommit} (member : commit ∈ s.commits)
    (other : commit.key ≠ key) (expectedVersion : Option Nat) :
    ∃ d, (s.commit request key expectedVersion value).calls commit.key = some d ∧ commit.Stands d.record := by
  obtain ⟨d, found, stands⟩ := history.stands commit member
  exact ⟨d, (Documents.put_other s.calls _ other).trans found, stands⟩

theorem LawfulChange.stands {before after : RealtimeCallRecord} {commit : RealtimeCallCommit}
    (lawful : LawfulChange request before after) (stands : commit.Stands before) : commit.Stands after where
  admitted _ _ _ same := lawful.worker.trans (stands.admitted _ _ _ same)
  begun workerId same := ⟨lawful.worker.trans (stands.begun workerId same).1, lawful.started (stands.begun workerId same).2⟩
  requested same := lawful.closing (stands.requested same)

theorem LawfulChange.stands_new {before after : RealtimeCallRecord} (lawful : LawfulChange request before after)
    (earlier : Option RealtimeCallRecord) : (⟨request, key, earlier, after⟩ : RealtimeCallCommit).Stands after where
  admitted _ _ _ same := (lawful.updates _ _ _ same).elim
  begun workerId same := by
    obtain ⟨own, -, -, started⟩ := lawful.begins workerId same
    exact ⟨lawful.worker.trans own, started⟩
  requested := lawful.requested

theorem unbegun (history : CallHistory s) {d : Versioned RealtimeCallRecord} (found : s.calls key = some d)
    (unstarted : d.record.creationStarted = false) : s.commits.filter (RealtimeCallCommit.begins key) = [] := by
  refine List.filter_eq_nil_iff.mpr fun commit member begins => ?_
  simp only [RealtimeCallCommit.begins, Bool.and_eq_true, decide_eq_true_eq] at begins
  obtain ⟨rfl, begins⟩ := begins
  obtain ⟨e, here, stands⟩ := history.stands commit member
  obtain rfl : e = d := Option.some.inj (here.symm.trans found)
  cases asked : commit.request with
  | beginCreation workerId =>
    rw [(stands.begun workerId asked).2] at unstarted
    cases unstarted
  | get | admit_ | attachProviderCall | renewLease | requestEnd | confirmEnded => simp [asked] at begins

theorem history_update (history : CallHistory s) {d : Versioned RealtimeCallRecord} (found : s.calls key = some d)
    (lawful : LawfulChange request d.record value) : CallHistory (s.commit request key (some d.version) value) where
  stands commit member := by
    rcases List.mem_cons.mp member with rfl | earlier
    · exact ⟨_, Documents.put_self .., lawful.stands_new _⟩
    · by_cases same : commit.key = key
      · obtain ⟨e, here, stands⟩ := history.stands commit earlier
        rw [same, found] at here
        obtain rfl := Option.some.inj here
        rw [same]
        exact ⟨_, Documents.put_self .., lawful.stands stands⟩
      · exact stands_other history earlier same _
  admission k e here := by
    by_cases same : k = key
    · subst same
      obtain rfl := Option.some.inj ((Documents.put_self ..).symm.trans here)
      obtain ⟨commit, member, of, conversationId, fingerprint, asked⟩ := history.admission k d found
      exact ⟨commit, List.mem_cons_of_mem _ member, of, conversationId, fingerprint, asked.trans (by rw [lawful.worker])⟩
    · obtain ⟨commit, member, rest⟩ := history.admission k e ((Documents.put_other s.calls _ same).symm.trans here)
      exact ⟨commit, List.mem_cons_of_mem _ member, rest⟩
  once k := by
    simp only [RealtimeCallState.commit, List.filter_cons]
    split
    · rename_i begins
      simp only [RealtimeCallCommit.begins, Bool.and_eq_true, decide_eq_true_eq] at begins
      obtain ⟨rfl, begins⟩ := begins
      have unstarted : d.record.creationStarted = false := by
        cases request with
        | beginCreation workerId => exact (lawful.begins workerId rfl).2.2.1
        | get | admit_ | attachProviderCall | renewLease | requestEnd | confirmEnded => cases begins
      rw [unbegun history found unstarted]
      exact Nat.le_refl 1
    · exact history.once k
  order := by
    refine List.pairwise_cons.mpr ⟨fun earlier member same ended workerId begins => ?_, history.order⟩
    obtain ⟨e, here, stands⟩ := history.stands earlier member
    rw [← same, found] at here
    obtain rfl := Option.some.inj here
    have closing := stands.requested ended
    rw [(lawful.begins workerId begins).2.1] at closing
    cases closing
  lawful commit member before was := by
    rcases List.mem_cons.mp member with rfl | earlier
    · simp only [found, Option.map_some, Option.some.injEq] at was
      exact was ▸ lawful
    · exact history.lawful commit earlier before was
  first commit member was := by
    rcases List.mem_cons.mp member with rfl | earlier
    · simp [found] at was
    · exact history.first commit earlier was

theorem evolve_update {d : Versioned RealtimeCallRecord} (found : s.calls key = some d)
    (lawful : LawfulChange request d.record value) : CallsEvolve s (s.commit request key (some d.version) value) where
  calls k e here := by
    by_cases same : k = key
    · subst same
      obtain rfl := Option.some.inj (here.symm.trans found)
      exact ⟨_, Documents.put_self .., lawful.reference, fun ended => (lawful.unended ended).elim⟩
    · exact ⟨e, (Documents.put_other s.calls _ same).trans here, fun _ given => given, fun _ => rfl⟩
  commits commit member := List.mem_cons_of_mem _ member

theorem admit_history (history : CallHistory s) (absent : s.calls key = none)
    (conversationId workerId fingerprint digest : JsString)
    (now leaseMs : Nat) : CallHistory (s.commit (.admit_ conversationId workerId fingerprint) key none
      (admittedCall key conversationId workerId digest now leaseMs)) where
  stands commit member := by
    rcases List.mem_cons.mp member with rfl | earlier
    · refine ⟨_, Documents.put_self .., fun _ _ _ same => ?_, by simp, by simp⟩
      cases same
      rfl
    · refine stands_other history earlier (fun same => ?_) _
      obtain ⟨d, found, -⟩ := history.stands commit earlier
      rw [same, absent] at found
      cases found
  admission k e here := by
    by_cases same : k = key
    · subst same
      obtain rfl := Option.some.inj ((Documents.put_self ..).symm.trans here)
      exact ⟨_, List.mem_cons_self, rfl, conversationId, fingerprint, rfl⟩
    · obtain ⟨commit, member, rest⟩ := history.admission k e ((Documents.put_other s.calls _ same).symm.trans here)
      exact ⟨commit, List.mem_cons_of_mem _ member, rest⟩
  once k := by
    simp only [RealtimeCallState.commit, List.filter_cons, RealtimeCallCommit.begins, Bool.and_false,
      Bool.false_eq_true, ↓reduceIte]
    exact history.once k
  order := List.pairwise_cons.mpr ⟨fun earlier member same ended workerId begins => (by cases begins), history.order⟩
  lawful commit member before was := by
    rcases List.mem_cons.mp member with rfl | earlier
    · simp [absent] at was
    · exact history.lawful commit earlier before was
  first commit member was := by
    rcases List.mem_cons.mp member with rfl | earlier
    · rfl
    · exact history.first commit earlier was

theorem evolve_admit (absent : s.calls key = none) (expectedVersion : Option Nat) :
    CallsEvolve s (s.commit request key expectedVersion value) where
  calls k e here := by
    have other : k ≠ key := fun same => by
      rw [same, absent] at here
      cases here
    exact ⟨e, (Documents.put_other s.calls _ other).trans here, fun _ given => given, fun _ => rfl⟩
  commits commit member := List.mem_cons_of_mem _ member

end

def BegunTold (outcome : RealtimeCallOutcome) (s : RealtimeCallState) : Prop :=
  ∀ workerId call, outcome.job.request = .beginCreation workerId → outcome.answer = .updated call →
    ∃ commit ∈ s.commits, commit.key = outcome.job.key ∧ commit.request = .beginCreation workerId

theorem changes_begun {call changed : RealtimeCallRecord} {workerId : JsString}
    (changes : Changes call (.beginCreation workerId) changed) : changed ≠ call := by
  cases changes with
  | begun own admitted =>
    intro same
    have status := congrArg RealtimeCallRecord.status same
    rw [admitted] at status
    cases status

def callSafety : RealtimeCallClaim where
  invariant := CallHistory
  evolves := CallsEvolve
  meets _ _ := True
  told := BegunTold
  refl := .refl
  trans := .trans
  stable told evolves workerId call asked answered := by
    obtain ⟨commit, member, rest⟩ := told workerId call asked answered
    exact ⟨commit, evolves.commits commit member, rest⟩
  rejected _ _ _ _ _ _ answered := by cases answered
  found _ _ _ _ _ _ answered := by cases answered
  existing _ _ _ _ _ _ answered := by cases answered
  unchanged job call document s same workerId answer asked _ := by
    simp only at asked
    rw [asked] at same
    exact (changes_begun same rfl).elim
  clock _ _ history _ := ⟨⟨history.stands, history.admission, history.once, history.order, history.lawful, history.first⟩,
    ⟨(CallsEvolve.refl _).calls, fun _ member => member⟩⟩
  answers _ _ _ history _ _ := ⟨⟨history.stands, history.admission, history.once, history.order, history.lawful, history.first⟩,
    ⟨(CallsEvolve.refl _).calls, fun _ member => member⟩⟩
  admits fingerprint now absent history request digest _ := by
    rw [request]
    exact ⟨admit_history history absent _ _ fingerprint digest now _, evolve_admit absent none,
      fun document workerId call _ answered => by cases answered⟩
  writes found history valid _ _ changes different updated _ _ := by
    obtain ⟨updatedAt, rfl⟩ := updated
    have lawful := changes_lawful valid changes different updatedAt
    exact ⟨history_update history found lawful, evolve_update found lawful,
      fun document workerId call asked _ => ⟨_, List.mem_cons_self, rfl, asked⟩⟩

/-! ### Schedules -/

abbrev RealtimeCalls := System RealtimeCallState RealtimeCallOp RealtimeCallReply Fault RealtimeCallLabel RealtimeCallOutcome Unit

def noRealtimeCalls : RealtimeCalls := ⟨⟨fun _ => none, 0, [], []⟩, []⟩

theorem history_noRealtimeCalls : CallHistory noRealtimeCalls.shared where
  stands _ member := by cases member
  admission _ _ found := by cases found
  once _ := Nat.zero_le 1
  order := .nil
  lawful _ member := by cases member
  first _ member := by cases member

theorem allMeet_realtimeCalls {claim : RealtimeCallClaim} {sha256 : JsString → JsString} (any : ∀ op s, claim.meets op s)
    {s : RealtimeCalls} (actions : List (Action Fault RealtimeCallLabel)) : (claim.contract sha256).AllMeet s actions := by
  induction actions generalizing s with
  | nil => trivial
  | cons action rest ih =>
    refine ⟨?_, ih⟩
    cases action with
    | start label => trivial
    | advance i fault => exact fun _ _ => ⟨trivial, fun op _ _ => any op s.shared⟩

theorem RealtimeCallClaim.evolves_of_changes {claim : RealtimeCallClaim} {sha256 : JsString → JsString} {s t : RealtimeCallState}
    (changes : Relation.ReflTransGen (fun u v => (claim.contract sha256).invariant u ∧
      ∃ kind, (claim.contract sha256).guarantee kind u v) s t) : claim.evolves s t := by
  induction changes with
  | refl => exact claim.refl s
  | tail _ change ih =>
    obtain ⟨-, -, -, evolves⟩ := change
    exact claim.trans ih evolves

/-- From `s` on to `t`, every call is created once and ended once. -/
structure CallsSafe (s t : RealtimeCalls) : Prop where
  begunOnce : ∀ key, (t.shared.commits.filter (RealtimeCallCommit.begins key)).length ≤ 1
  begunByAdmitter : ∀ commit ∈ t.shared.commits, ∀ workerId, commit.request = .beginCreation workerId →
    (∃ a ∈ t.shared.commits, a.key = commit.key ∧
      ∃ conversationId fingerprint, a.request = .admit_ conversationId workerId fingerprint) ∧
    ∀ a ∈ t.shared.commits, a.key = commit.key → ∀ conversationId admitter fingerprint,
      a.request = .admit_ conversationId admitter fingerprint → admitter = workerId
  unbegunAfterEnd : t.shared.commits.Pairwise fun later earlier => later.key = earlier.key → earlier.request = .requestEnd →
    ∀ workerId, later.request ≠ .beginCreation workerId
  told : ∀ p ∈ t.processes, ∀ outcome ∈ p.outputs, BegunTold outcome t.shared
  oneWorker : ∀ p ∈ t.processes, ∀ q ∈ t.processes, ∀ a ∈ p.outputs, ∀ b ∈ q.outputs, a.job.key = b.job.key →
    ∀ workerId other call call', a.job.request = .beginCreation workerId → a.answer = .updated call →
      b.job.request = .beginCreation other → b.answer = .updated call' → workerId = other
  references : ∀ key d ref, s.shared.calls key = some d → d.record.providerCallRef = some ref →
    ∃ e, t.shared.calls key = some e ∧ e.record.providerCallRef = some ref
  terminal : ∀ key d, s.shared.calls key = some d → d.record.status = .ended → t.shared.calls key = some d
  ends : ∀ commit ∈ t.shared.commits, commit.after.status = .ended → ∃ before, commit.before = some before ∧
    (before.creationStarted = true → ∃ ref, commit.request = .confirmEnded ref ∧ before.providerCallRef = some ref) ∧
    (before.creationStarted = false → commit.request = .requestEnd)

/-- Whatever the operations, clocks, faults and lost races of a schedule are. -/
theorem realtime_calls_safe (sha256 : JsString → JsString) (first later : List (Action Fault RealtimeCallLabel)) :
    CallsSafe ((realtimeCallCode sha256).run noRealtimeCalls first)
      ((realtimeCallCode sha256).run noRealtimeCalls (first ++ later)) := by
  have verified := RealtimeCallClaim.verified callSafety sha256
  obtain ⟨before, -⟩ := ((callSafety.contract sha256).holds_start history_noRealtimeCalls).run verified
    (allMeet_realtimeCalls (fun _ _ => trivial) first)
  obtain ⟨after, changes⟩ := before.run verified (allMeet_realtimeCalls (fun _ _ => trivial) later)
  have evolves := RealtimeCallClaim.evolves_of_changes changes
  rw [Code.run_append]
  have history : CallHistory ((realtimeCallCode sha256).run ((realtimeCallCode sha256).run noRealtimeCalls first) later).shared :=
    after.invariant
  refine ⟨history.once, fun commit member workerId begins => ?_, history.order, after.traces,
    fun p ofP q ofQ a toldA b toldB same workerId other call call' asked answered asked' answered' => ?_,
    fun key d ref found given => ?_, fun key d found ended => ?_, fun commit member ended => ?_⟩
  · obtain ⟨d, found, stands⟩ := history.stands commit member
    obtain ⟨worker, -⟩ := stands.begun workerId begins
    refine ⟨?_, fun a admission same conversationId admitter fingerprint asked => ?_⟩
    · obtain ⟨a, admission, same, conversationId, fingerprint, asked⟩ := history.admission commit.key d found
      exact ⟨a, admission, same, conversationId, fingerprint, asked.trans (by rw [worker])⟩
    · obtain ⟨e, here, admits⟩ := history.stands a admission
      rw [same, found] at here
      obtain rfl := Option.some.inj here
      exact (admits.admitted conversationId admitter fingerprint asked).symm.trans worker
  · -- Both commits are of the one worker of the call.
    obtain ⟨c, member, ofA, begins⟩ := after.traces p ofP a toldA workerId call asked answered
    obtain ⟨c', member', ofB, begins'⟩ := after.traces q ofQ b toldB other call' asked' answered'
    obtain ⟨d, found, stands⟩ := history.stands c member
    obtain ⟨e, here, stands'⟩ := history.stands c' member'
    rw [ofB, ← same, ← ofA, found] at here
    obtain rfl := Option.some.inj here
    exact (stands.begun workerId begins).1.symm.trans (stands'.begun other begins').1
  · obtain ⟨e, here, references, -⟩ := evolves.calls key d found
    exact ⟨e, here, references ref given⟩
  · obtain ⟨e, here, -, same⟩ := evolves.calls key d found
    obtain rfl := same ended
    exact here
  · cases was : commit.before with
    | none =>
      rw [history.first commit member was] at ended
      cases ended
    | some record =>
      have lawful := history.lawful commit member record was
      exact ⟨record, rfl, lawful.confirmed ended, lawful.cancelled ended⟩

end Handrail.Postgres

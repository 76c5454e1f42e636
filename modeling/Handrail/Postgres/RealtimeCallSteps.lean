import Handrail.Postgres.RealtimeCalls

/-!
# What the operations of a realtime call write

A write replaces the very document that its operation has read, by what the operation makes of it.
-/

namespace Handrail.Postgres
open Js Concurrent

inductive Changes (call : RealtimeCallRecord) : RealtimeCallRequest → RealtimeCallRecord → Prop
  | begun {workerId : JsString} (own : call.workerId = workerId) (admitted : call.status = .admitted) :
      Changes call (.beginCreation workerId) { call with status := .starting, creationStarted := true }
  | attached {workerId providerCallRef : JsString} (own : call.workerId = workerId) (started : call.creationStarted = true)
      (fits : call.providerCallRef = none ∨ call.providerCallRef = some providerCallRef) :
      Changes call (.attachProviderCall workerId providerCallRef) { call with
        providerCallRef := some providerCallRef
        status := if call.status = .starting then .active else call.status }
  | renewed {workerId : JsString} (own : call.workerId = workerId) (leased : call.status.isLeased = true)
      (leaseExpiresAt : Nat) : Changes call (.renewLease workerId) { call with leaseExpiresAt }
  | ending : Changes call .requestEnd { call with
      status := if call.status = .ended ∨ !call.creationStarted then .ended else .ending }
  | confirmed {providerCallRef : JsString} (closing : call.status = .ending ∨ call.status = .ended)
      (named : call.providerCallRef = some providerCallRef) :
      Changes call (.confirmEnded providerCallRef) { call with status := .ended }

abbrev CallsLater (s t : RealtimeCallState) : Prop := Later (fun _ _ => True) s.calls t.calls

def RealtimeCallState.commit (s : RealtimeCallState) (request : RealtimeCallRequest) (key : DocumentKey)
    (expectedVersion : Option Nat) (value : RealtimeCallRecord) : RealtimeCallState :=
  { s with
    calls := s.calls.put key ⟨expectedVersion.getD 0 + 1, value⟩
    commits := ⟨request, key, (s.calls key).map Versioned.record, value⟩ :: s.commits }

/-- The state after a `get` that answers. -/
def RealtimeCallState.answered (s : RealtimeCallState) (read : RealtimeCallRead) : RealtimeCallState :=
  { s with reads := s.reads ++ [read] }

def admittedCall (key : DocumentKey) (conversationId workerId fingerprint : JsString) (now leaseMs : Nat) :
    RealtimeCallRecord where
  callId := key.recordId
  conversationId
  workerId
  fingerprint
  status := .admitted
  creationStarted := false
  providerCallRef := none
  createdAt := now
  updatedAt := now
  leaseExpiresAt := now + leaseMs

/-- What is claimed of the store: an invariant, a relation between earlier and later states, the conditions of the calls
under consideration, and what an answer means. -/
structure RealtimeCallClaim where
  invariant : RealtimeCallState → Prop
  evolves : RealtimeCallState → RealtimeCallState → Prop
  meets : RealtimeCallOp → RealtimeCallState → Prop
  told : RealtimeCallOutcome → RealtimeCallState → Prop
  refl : ∀ s, evolves s s
  trans : ∀ {s t u}, evolves s t → evolves t u → evolves s u
  stable : ∀ {outcome s t}, told outcome s → evolves s t → told outcome t
  rejected : ∀ job error s, told ⟨job, .rejected error⟩ s
  found : ∀ job call s, told ⟨job, .found call⟩ s
  existing : ∀ job call s, told ⟨job, .admitted false call⟩ s
  unchanged : ∀ job call document s, Changes call job.request call → told ⟨job, .updated document⟩ s
  clock : ∀ now s, invariant s → meets (.setClock now) s → invariant { s with clock := now } ∧ evolves s { s with clock := now }
  /-- A `get` answers a document that it has read before. -/
  answers : ∀ {s t : RealtimeCallState} {key document now}, s.calls key = some document → invariant s → evolves s t →
    invariant t → meets (.judge key s.reads.length document.record) t → readNow t.clock = some now →
    invariant (t.answered ⟨key, s.reads.length, observedStatus now document.record⟩) ∧
      evolves t (t.answered ⟨key, s.reads.length, observedStatus now document.record⟩)
  admits : ∀ {s : RealtimeCallState} {job conversationId workerId} fingerprint now, s.calls job.key = none → invariant s →
    job.request = .admit_ conversationId workerId fingerprint → ∀ digest,
    let value := admittedCall job.key conversationId workerId digest now job.leaseMs.value
    meets (.write job.request job.key none value) s →
    let t := s.commit job.request job.key none value
    invariant t ∧ evolves s t ∧ ∀ document, told ⟨job, .admitted true document⟩ t
  /-- A write replaces a valid document by what the operation makes of it. -/
  writes : ∀ {r s : RealtimeCallState} {job document now changed value}, s.calls job.key = some document → invariant s →
    validRecord document.record job.key.recordId = true → readNow r.clock = some now → evolves r s →
    Changes (observed now document.record) job.request changed → observed now document.record ≠ changed →
    (∃ updatedAt, value = { changed with updatedAt }) → validRecord value job.key.recordId = true →
    meets (.write job.request job.key (some document.version) value) s →
    let t := s.commit job.request job.key (some document.version) value
    invariant t ∧ evolves s t ∧ ∀ answer, told ⟨job, .updated answer⟩ t

namespace RealtimeCallClaim
variable (claim : RealtimeCallClaim) (sha256 : JsString → JsString)

def contract : Contract (realtimeCallCode sha256) where
  invariant := claim.invariant
  rely _ s t := CallsLater s t ∧ claim.evolves s t
  guarantee _ s t := CallsLater s t ∧ claim.evolves s t
  starts _ := True
  fair _ _ := True
  meets := claim.meets
  pre _ outputs _ := outputs = []
  trace _ outputs s := ∀ outcome ∈ outputs, claim.told outcome s
  rely_refl _ s := ⟨.refl (fun _ => trivial) _, claim.refl s⟩
  rely_trans st tu := ⟨st.1.trans (fun _ _ => trivial) tu.1, claim.trans st.2 tu.2⟩
  relies change _ _ := change
  pre_stable pre _ := pre
  trace_stable told _ change outcome member := claim.stable (told outcome member) change.2
  start_pre _ _ := rfl
  start_trace _ _ outcome member := by cases member

variable {claim sha256} {job : RealtimeCallJob} {s t : RealtimeCallState}

theorem safe_answer {answer : RealtimeCallAnswer} (told : claim.told ⟨job, answer⟩ s) :
    (claim.contract sha256).Safe () (job.answer answer) [] s := by
  intro t change _
  refine ⟨fun outcome member => ?_, trivial⟩
  rw [List.nil_append, List.mem_singleton] at member
  rw [member]
  exact claim.stable told change.2

theorem safe_reject (job : RealtimeCallJob) (error : RealtimeCallError) (s : RealtimeCallState) :
    (claim.contract sha256).Safe () (job.reject error) [] s := safe_answer (claim.rejected job error s)

theorem later_refl (s : RealtimeCallState) : CallsLater s s := .refl (fun _ => trivial) _

theorem safe_query {op : RealtimeCallOp} {next : RealtimeCallReply op → RealtimeCallProgram}
    (runs : ∀ t, CallsLater s t → claim.evolves s t → claim.invariant t → claim.meets op t →
      claim.invariant (RealtimeCallState.perform op t).1 ∧
        (CallsLater t (RealtimeCallState.perform op t).1 ∧ claim.evolves t (RealtimeCallState.perform op t).1) ∧
        (claim.contract sha256).Safe () (next (RealtimeCallState.perform op t).2) [] (RealtimeCallState.perform op t).1) :
    (claim.contract sha256).Safe () (job.query op next) [] s := by
  intro fault _
  dsimp only
  cases fault with
  | none => exact fun t change invariant meets => runs t change.1 change.2 invariant meets
  | before => exact safe_reject job _ s
  | after =>
    intro t change invariant meets
    obtain ⟨kept, guarantees, _⟩ := runs t change.1 change.2 invariant meets
    exact ⟨kept, guarantees, safe_reject job _ _⟩

theorem safe_withNow {next : Nat → RealtimeCallProgram}
    (nexts : ∀ t now, readNow t.clock = some now → CallsLater s t → claim.evolves s t →
      (claim.contract sha256).Safe () (next now) [] t) :
    (claim.contract sha256).Safe () (job.withNow next) [] s := by
  intro t change invariant _
  refine ⟨invariant, ⟨later_refl t, claim.refl t⟩, ?_⟩
  simp only [realtimeCallCode, RealtimeCallState.perform]
  cases read : readNow t.clock with
  | some now => exact nexts t now read change.1 change.2
  | none => exact safe_reject job _ t

theorem safe_withDocument {absent : RealtimeCallProgram} {next : Versioned RealtimeCallRecord → Nat → RealtimeCallProgram}
    (absents : ∀ t, CallsLater s t → claim.evolves s t → t.calls job.key = none → (claim.contract sha256).Safe () absent [] t)
    (nexts : ∀ t document, t.calls job.key = some document → validRecord document.record job.key.recordId = true →
      claim.invariant t → (claim.contract sha256).Safe () (next document t.reads.length) [] t) :
    (claim.contract sha256).Safe () (job.withDocument absent next) [] s := by
  unfold RealtimeCallJob.withDocument
  split
  · exact safe_reject job _ s
  · refine safe_query fun t later evolves invariant _ => ⟨invariant, ⟨later_refl t, claim.refl t⟩, ?_⟩
    simp only [RealtimeCallState.perform]
    split
    · exact safe_reject job _ t
    · rename_i read
      exact absents t later evolves (getDocument_ok read).symm
    · rename_i document read
      split
      · exact safe_reject job _ t
      · split
        · exact safe_reject job _ t
        · rename_i valid
          rw [Bool.not_eq_true, Bool.not_eq_false'] at valid
          exact nexts t document (getDocument_ok read).symm valid invariant

theorem safe_withSnapshot {absent : RealtimeCallProgram} {next : Versioned RealtimeCallRecord → RealtimeCallProgram}
    (absents : ∀ t, CallsLater s t → claim.evolves s t → t.calls job.key = none → (claim.contract sha256).Safe () absent [] t)
    (nexts : ∀ u t document now, u.calls job.key = some document → validRecord document.record job.key.recordId = true →
      CallsLater u t → claim.evolves u t → readNow t.clock = some now →
      (claim.contract sha256).Safe () (next ⟨document.version, observed now document.record⟩) [] t) :
    (claim.contract sha256).Safe () (job.withSnapshot absent next) [] s :=
  safe_withDocument absents fun u document found valid _ =>
    safe_withNow fun t now read later evolves => nexts u t document now found valid later evolves read

theorem perform_judge {t : RealtimeCallState} {now : Nat} (key : DocumentKey) (earlier : Nat) (record : RealtimeCallRecord)
    (read : readNow t.clock = some now) : RealtimeCallState.perform (.judge key earlier record) t =
      (t.answered ⟨key, earlier, observedStatus now record⟩, t.clock) := by
  simp only [RealtimeCallState.perform, read]
  rfl

theorem perform_judge_stopped {t : RealtimeCallState} (key : DocumentKey) (earlier : Nat) (record : RealtimeCallRecord)
    (stopped : readNow t.clock = none) : RealtimeCallState.perform (.judge key earlier record) t = (t, t.clock) := by
  simp only [RealtimeCallState.perform, stopped]
  rfl

theorem safe_get : (claim.contract sha256).Safe () job.get [] s := by
  refine safe_withDocument (fun t _ _ _ => safe_answer (claim.found job none t)) fun u document found _ held => ?_
  intro t change invariant meets
  cases read : readNow t.clock with
  | none =>
    have same := perform_judge_stopped job.key u.reads.length document.record read
    simp only [realtimeCallCode, same, read]
    exact ⟨invariant, ⟨later_refl t, claim.refl t⟩, safe_reject job _ t⟩
  | some now =>
    have answered := perform_judge job.key u.reads.length document.record read
    obtain ⟨kept, evolves⟩ := claim.answers found held change.2 invariant meets read
    simp only [realtimeCallCode, answered, read]
    exact ⟨kept, ⟨later_refl t, evolves⟩, safe_answer (claim.found job _ _)⟩

theorem safe_readExisting {conversationId fingerprint : JsString} {absent : RealtimeCallProgram}
    (absents : ∀ t, CallsLater s t → claim.evolves s t → t.calls job.key = none → (claim.contract sha256).Safe () absent [] t) :
    (claim.contract sha256).Safe () (job.readExisting sha256 conversationId fingerprint absent) [] s := by
  refine safe_withSnapshot absents fun u t document now _ _ _ _ _ => ?_
  dsimp only
  split
  · exact safe_reject job _ t
  · exact safe_answer (claim.existing job _ t)

theorem perform_write (request : RealtimeCallRequest) (key : DocumentKey) (expectedVersion : Option Nat)
    (value : RealtimeCallRecord) (s : RealtimeCallState) :
    (∃ e, RealtimeCallState.perform (.write request key expectedVersion value) s = (s, .error e)) ∨
    ((s.calls key).map Versioned.version = expectedVersion ∧
      RealtimeCallState.perform (.write request key expectedVersion value) s =
        (s.commit request key expectedVersion value, .ok ⟨expectedVersion.getD 0 + 1, value⟩)) := by
  simp only [RealtimeCallState.perform]
  rcases compareAndSet_cases (fun _ => true) s.calls key expectedVersion value with ⟨e, refused⟩ | ⟨-, current, written⟩
  · exact .inl ⟨e, by rw [refused]⟩
  · refine .inr ⟨current, ?_⟩
    rw [written]
    rfl

theorem safe_admit {conversationId workerId fingerprint : JsString}
    (request : job.request = .admit_ conversationId workerId fingerprint) :
    (claim.contract sha256).Safe () (job.admit_ sha256 conversationId workerId fingerprint) [] s := by
  unfold RealtimeCallJob.admit_
  split
  · exact safe_reject job _ s
  · refine safe_readExisting fun _ _ _ _ => safe_withNow fun _ now _ _ _ => ?_
    refine safe_query fun t _ _ invariant meets => ?_
    rcases perform_write job.request job.key none (admittedCall job.key conversationId workerId (sha256 fingerprint) now
      job.leaseMs.value) t with ⟨e, refused⟩ | ⟨current, written⟩
    · have same := refused
      simp only [admittedCall] at same
      rw [same]
      refine ⟨invariant, ⟨later_refl t, claim.refl t⟩, ?_⟩
      cases e with
      | invalid | query => exact safe_reject job _ t
      | conflict => exact safe_readExisting fun u _ _ _ => safe_reject job _ u
    · have absent : t.calls job.key = none := Option.map_eq_none_iff.mp current
      obtain ⟨kept, evolves, told⟩ := claim.admits fingerprint now absent invariant request (sha256 fingerprint) meets
      have done := written
      simp only [admittedCall] at done
      rw [done]
      exact ⟨kept, ⟨.create (fun _ => trivial) absent _, evolves⟩, safe_answer (told _)⟩

theorem safe_change {call : RealtimeCallRecord} {next : RealtimeCallRecord → RealtimeCallProgram}
    (nexts : ∀ t changed, CallsLater s t → claim.evolves s t → Changes call job.request changed →
      (claim.contract sha256).Safe () (next changed) [] t) :
    (claim.contract sha256).Safe () (job.change call next) [] s := by
  unfold RealtimeCallJob.change
  split
  · rename_i workerId request
    split
    · exact safe_reject job _ s
    · rename_i fits
      rw [not_or, not_not, not_not] at fits
      exact nexts s _ (later_refl s) (claim.refl s) (request ▸ .begun fits.1 fits.2)
  · rename_i workerId providerCallRef request
    split
    · exact safe_reject job _ s
    · rename_i fits
      simp only [not_or, not_not, not_and_or, Bool.not_eq_true, Bool.not_eq_false'] at fits
      exact nexts s _ (later_refl s) (claim.refl s) (request ▸ .attached fits.1 fits.2.1 fits.2.2)
  · rename_i workerId request
    split
    · exact safe_reject job _ s
    · rename_i fits
      simp only [not_or, not_not, Bool.not_eq_true, Bool.not_eq_false'] at fits
      exact safe_withNow fun t now _ later evolves => nexts t _ later evolves (request ▸ .renewed fits.1 fits.2 _)
  · rename_i request
    exact nexts s _ (later_refl s) (claim.refl s) (request ▸ .ending)
  · rename_i providerCallRef request
    split
    · exact safe_reject job _ s
    · rename_i fits
      simp only [not_or, not_not] at fits
      exact nexts s _ (later_refl s) (claim.refl s)
        (request ▸ .confirmed (Decidable.or_iff_not_imp_left.mpr (by simpa using fits.1)) fits.2)
  · trivial
  · trivial

theorem safe_update (attempt : Nat) : (claim.contract sha256).Safe () (job.update attempt) [] s := by
  unfold RealtimeCallJob.update
  split
  · exact safe_reject job _ s
  · refine safe_withSnapshot (fun t _ _ _ => safe_reject job _ t) fun u r document now found valid later _ read => ?_
    refine safe_change fun r' changed later' evolves' changes => ?_
    dsimp only
    split
    · rename_i same
      exact safe_answer (claim.unchanged job _ _ r' (same ▸ changes))
    · rename_i different
      refine safe_withNow fun r'' updatedAt _ later'' evolves'' => ?_
      split
      · exact safe_reject job _ r''
      · rename_i fits
        rw [Bool.not_eq_true, Bool.not_eq_false'] at fits
        refine safe_query fun t last evolvesLast invariant meets => ?_
        rcases perform_write job.request job.key (some document.version) { changed with updatedAt } t with
          ⟨e, refused⟩ | ⟨current, written⟩
        · rw [refused]
          refine ⟨invariant, ⟨later_refl t, claim.refl t⟩, ?_⟩
          cases e with
          | invalid | query => exact safe_reject job _ t
          | conflict => exact ⟨rfl, rfl⟩
        · have later_ : CallsLater u t := ((later.trans (fun _ _ => trivial) later').trans (fun _ _ => trivial) later'').trans
            (fun _ _ => trivial) last
          obtain ⟨e, here, -, same, -⟩ := later_ job.key document found
          obtain ⟨f, there, version⟩ := Option.map_eq_some_iff.mp current
          obtain rfl : e = f := Option.some.inj (here.symm.trans there)
          rw [same version] at here
          have reached := claim.trans (claim.trans evolves' evolves'') evolvesLast
          obtain ⟨kept, evolved, told⟩ :=
            claim.writes here invariant valid read reached changes different ⟨updatedAt, rfl⟩ fits meets
          rw [written]
          exact ⟨kept, ⟨.put (fun _ => trivial) here trivial, evolved⟩, safe_answer (told _)⟩

theorem safe_body : (claim.contract sha256).Safe () (job.body sha256) [] s := by
  unfold RealtimeCallJob.body
  split
  · exact safe_get
  · rename_i request
    exact safe_admit request
  · split
    · exact safe_reject job _ s
    · exact ⟨rfl, rfl⟩
  · exact ⟨rfl, rfl⟩

theorem verified (claim : RealtimeCallClaim) (sha256 : JsString → JsString) : (claim.contract sha256).Verified := by
  intro label outputs s pre
  obtain rfl : outputs = [] := pre
  cases label with
  | request job => exact safe_body
  | attempt job attempt => exact safe_update attempt
  | clock now =>
    intro t _ invariant meets
    obtain ⟨kept, evolves⟩ := claim.clock now t invariant meets
    exact ⟨kept, ⟨later_refl t, evolves⟩, trivial⟩

end RealtimeCallClaim

end Handrail.Postgres

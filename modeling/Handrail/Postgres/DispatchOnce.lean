import Handrail.Postgres.Dispatch

/-!
# Dispatch is at most once

A claim is never deleted, and only the call that inserted it goes on to `execute`.
-/

namespace Handrail.Postgres
open Js Concurrent

namespace DispatchState

def bound (s : DispatchState) : DispatchIdentity → Option (Option JsString)
  | .tool tenantId toolCallId => s.claims tenantId toolCallId
  | .provider key => (s.operations key).map fun d => some d.record.fingerprint

def result (s : DispatchState) : DispatchIdentity → Option Json
  | .tool tenantId toolCallId => s.ledger tenantId toolCallId
  | .provider key => (s.operations key).bind fun d => d.record.result

structure Persists (s t : DispatchState) : Prop where
  bound : ∀ i b, s.bound i = some b → t.bound i = some b
  result : ∀ i r, s.result i = some r → t.result i = some r
  admitted : ∀ i n, s.admitted i = some n → t.admitted i = some n

theorem Persists.refl (s : DispatchState) : Persists s s where
  bound _ _ h := h
  result _ _ h := h
  admitted _ _ h := h

theorem Persists.trans {s t u : DispatchState} (st : Persists s t) (tu : Persists t u) : Persists s u where
  bound i b h := tu.bound i b (st.bound i b h)
  result i r h := tu.result i r (st.result i r h)
  admitted i n h := tu.admitted i n (st.admitted i n h)

structure Guarantees (number : Nat) (s t : DispatchState) : Prop where
  persists : Persists s t
  executions : ∀ x ∈ t.executions, x ∈ s.executions ∨ s.admitted x.identity = some number

structure Relies (number : Nat) (s t : DispatchState) : Prop where
  persists : Persists s t
  executions : ∀ x ∈ t.executions, s.admitted x.identity = some number → x ∈ s.executions

theorem Relies.refl (number : Nat) (s : DispatchState) : Relies number s s where
  persists := Persists.refl s
  executions _ member _ := member

theorem Relies.trans {number : Nat} {s t u : DispatchState} (st : Relies number s t) (tu : Relies number t u) :
    Relies number s u where
  persists := st.persists.trans tu.persists
  executions x member admitted :=
    st.executions x (tu.executions x member (st.persists.admitted _ _ admitted)) admitted

theorem Guarantees.relied {number other : Nat} {s t : DispatchState} (guarantees : Guarantees number s t)
    (different : number ≠ other) : Relies other s t where
  persists := guarantees.persists
  executions x member admitted := by
    rcases guarantees.executions x member with before | own
    · exact before
    · exact (different (Option.some.inj (own.symm.trans admitted))).elim

end DispatchState

section
variable (sha256 : JsString → JsString) (known : DispatchCall → Prop)

structure DispatchInvariant (s : DispatchState) : Prop where
  unclaimed : ∀ i, s.bound i = none → s.admitted i = none
  claimed : ∀ tenantId toolCallId result, s.ledger tenantId toolCallId = some result → (s.claims tenantId toolCallId).isSome
  printed : ∀ i r, s.result i = some r → r.roundTrip = r
  fresh : ∀ key d, s.operations key = some d → d.version = 1 → d.record.result = none
  executed : ∀ x ∈ s.executions, known x ∧ s.admitted x.identity = some x.number ∧ s.bound x.identity = some (x.digest sha256)
  once : (s.executions.map DispatchCall.identity).Nodup

structure Answered (s : DispatchState) (returned : Returned) : Prop where
  known : known returned.call
  bound : s.bound returned.call.identity = some (returned.call.digest sha256)
  stored : ∃ r, s.result returned.call.identity = some r ∧
    (returned.value = r ∨ returned.call.parseResult r = some returned.value)

variable {sha256 known}

theorem Answered.later {s t : DispatchState} {returned : Returned} (answered : Answered sha256 known s returned)
    (persists : s.Persists t) : Answered sha256 known t returned where
  known := answered.known
  bound := persists.bound _ _ answered.bound
  stored := by
    obtain ⟨r, stored, value⟩ := answered.stored
    exact ⟨r, persists.result _ _ stored, value⟩

variable (sha256 known)

def dispatchContract : Contract (dispatchCode sha256) where
  invariant := DispatchInvariant sha256 known
  rely := DispatchState.Relies
  guarantee := DispatchState.Guarantees
  starts := known
  fair _ _ := True
  meets _ _ := True
  pre call outputs _ := known call ∧ outputs = []
  trace _ outputs s := ∀ returned ∈ outputs, Answered sha256 known s returned
  rely_refl := DispatchState.Relies.refl
  rely_trans := DispatchState.Relies.trans
  relies guarantees _ different := guarantees.relied (different.resolve_right (by simp [dispatchCode]))
  pre_stable pre _ := pre
  trace_stable answered _ guarantees returned member := (answered returned member).later guarantees.persists
  start_pre known _ := ⟨known, rfl⟩
  start_trace _ _ := by simp

end

/-! ### Changes of the tables -/

section
variable {sha256 : JsString → JsString} {known : DispatchCall → Prop} {s t : DispatchState}

theorem claim_keeps (invariant : DispatchInvariant sha256 known s) {i : DispatchIdentity} {b : Option JsString} {number : Nat}
    (free : s.bound i = none) (bound : ∀ j, t.bound j = if j = i then some b else s.bound j)
    (result : ∀ j, t.result j = s.result j)
    (admitted : ∀ j, t.admitted j = if j = i then some number else s.admitted j) (executions : t.executions = s.executions)
    (claimed : ∀ tenantId toolCallId result, t.ledger tenantId toolCallId = some result → (t.claims tenantId toolCallId).isSome)
    (fresh : ∀ key d, t.operations key = some d → d.version = 1 → d.record.result = none) :
    DispatchInvariant sha256 known t ∧ DispatchState.Guarantees number s t ∧ ∀ x ∈ t.executions, x.identity ≠ i := by
  have idle : ∀ x ∈ t.executions, x.identity ≠ i := by
    intro x member same
    rw [executions] at member
    have admission := (invariant.executed x member).2.1
    rw [same, invariant.unclaimed i free] at admission
    cases admission
  have others {j : DispatchIdentity} {c : Option JsString} (at_ : s.bound j = some c) : j ≠ i := by
    rintro rfl
    rw [free] at at_
    cases at_
  refine ⟨⟨fun j open_ => ?_, claimed, fun j r stored => ?_, fresh, fun x member => ?_,
    executions ▸ invariant.once⟩, ⟨⟨?_, ?_, ?_⟩,
    fun x member => .inl (executions ▸ member)⟩, idle⟩
  · rw [bound] at open_
    split at open_
    · cases open_
    · rename_i different
      rw [admitted, if_neg different]
      exact invariant.unclaimed j open_
  · exact invariant.printed j r (result j ▸ stored)
  · have different := idle x member
    rw [executions] at member
    rw [admitted, bound, if_neg different, if_neg different]
    exact invariant.executed x member
  · intro j c at_
    rw [bound, if_neg (others at_)]
    exact at_
  · intro j r stored
    rw [result]
    exact stored
  · intro j n at_
    have different : j ≠ i := by
      rintro rfl
      rw [invariant.unclaimed _ free] at at_
      cases at_
    rw [admitted, if_neg different]
    exact at_

theorem result_keeps (invariant : DispatchInvariant sha256 known s) {i : DispatchIdentity} {r : Json} (number : Nat)
    (missing : s.result i = none) (printed : r.roundTrip = r) (bound : ∀ j, t.bound j = s.bound j)
    (result : ∀ j, t.result j = if j = i then some r else s.result j) (admitted : t.admitted = s.admitted)
    (executions : t.executions = s.executions)
    (claimed : ∀ tenantId toolCallId result, t.ledger tenantId toolCallId = some result → (t.claims tenantId toolCallId).isSome)
    (fresh : ∀ key d, t.operations key = some d → d.version = 1 → d.record.result = none) :
    DispatchInvariant sha256 known t ∧ DispatchState.Guarantees number s t := by
  refine ⟨⟨fun j open_ => ?_, claimed, fun j r' stored => ?_, fresh, fun x member => ?_,
    executions ▸ invariant.once⟩, ⟨⟨?_, ?_, ?_⟩,
    fun x member => .inl (executions ▸ member)⟩⟩
  · rw [admitted]
    exact invariant.unclaimed j (bound j ▸ open_)
  · rw [result] at stored
    split at stored
    · rw [← Option.some.inj stored]
      exact printed
    · exact invariant.printed j r' stored
  · rw [executions] at member
    rw [admitted, bound]
    exact invariant.executed x member
  · intro j c at_
    rw [bound]
    exact at_
  · intro j r' stored
    have different : j ≠ i := by
      rintro rfl
      rw [missing] at stored
      cases stored
    rw [result, if_neg different]
    exact stored
  · intro j n at_
    rw [admitted]
    exact at_

theorem putRow_some {α : Type} {rows : JsString → JsString → Option α} {a b x y : JsString} {row value : α}
    (found : DispatchState.putRow rows a b row x y = some value) : (x = a ∧ y = b ∧ value = row) ∨ rows x y = some value := by
  unfold DispatchState.putRow at found
  split at found
  · rename_i here
    exact .inl ⟨here.1, here.2, (Option.some.inj found).symm⟩
  · exact .inr found

theorem admitTool_cases (invariant : DispatchInvariant sha256 known s) (number : Nat) (tenantId toolCallId : JsString)
    (fingerprint : Option JsString) :
    let op := DispatchOp.admitTool number tenantId toolCallId fingerprint
    DispatchState.perform op s = (s, .identityConflict) ∨ DispatchState.perform op s = (s, .uncertain) ∨
    (∃ r, s.result (.tool tenantId toolCallId) = some r ∧ s.bound (.tool tenantId toolCallId) = some fingerprint ∧
      DispatchState.perform op s = (s, .completed r)) ∨
    (∃ next, DispatchState.perform op s = (next, .admitted) ∧ DispatchInvariant sha256 known next ∧
      DispatchState.Guarantees number s next ∧ (∀ x ∈ next.executions, x.identity ≠ .tool tenantId toolCallId) ∧
      next.admitted (.tool tenantId toolCallId) = some number ∧ next.bound (.tool tenantId toolCallId) = some fingerprint) := by
  simp only [DispatchState.perform]
  split
  · exact .inl rfl
  · rename_i fits
    split
    · rename_i r existing
      obtain ⟨claim, held⟩ := Option.isSome_iff_exists.mp (invariant.claimed _ _ r existing)
      have same : claim = fingerprint := by simpa [existing, held] using fits
      have printed := invariant.printed (.tool tenantId toolCallId) r existing
      exact .inr (.inr (.inl ⟨r, existing, same ▸ held, by rw [printed]⟩))
    · rename_i missing
      split
      · exact .inr (.inl rfl)
      · rename_i unclaimed
        have free : s.bound (.tool tenantId toolCallId) = none := by simpa [DispatchState.bound] using unclaimed
        let next : DispatchState := { s with
          claims := DispatchState.putRow s.claims tenantId toolCallId fingerprint
          admitted := Function.update s.admitted (.tool tenantId toolCallId) (some number) }
        have bound (j : DispatchIdentity) :
            next.bound j = if j = .tool tenantId toolCallId then some fingerprint else s.bound j := by
          cases j <;> simp [next, DispatchState.bound, DispatchState.putRow]
        have admitted (j : DispatchIdentity) :
            next.admitted j = if j = .tool tenantId toolCallId then some number else s.admitted j := Function.update_apply ..
        have claimed (a b : JsString) (r : Json) (stored : next.ledger a b = some r) : (next.claims a b).isSome := by
          simp only [next, DispatchState.putRow]
          split
          · rfl
          · exact invariant.claimed a b r stored
        have result (j : DispatchIdentity) : next.result j = s.result j := by cases j <;> rfl
        obtain ⟨kept, guarantees, idle⟩ := claim_keeps invariant free bound result admitted rfl claimed invariant.fresh
        exact .inr (.inr (.inr ⟨next, rfl, kept, guarantees, idle, by simp [admitted], by simp [bound]⟩))

theorem insertResult_cases (invariant : DispatchInvariant sha256 known s) (number : Nat) {tenantId toolCallId : JsString}
    (claimed : (s.bound (.tool tenantId toolCallId)).isSome) (result : Json) :
    let op := DispatchOp.insertResult tenantId toolCallId result
    DispatchState.perform op s = (s, false) ∨
    (∃ next, DispatchState.perform op s = (next, true) ∧ DispatchInvariant sha256 known next ∧
      DispatchState.Guarantees number s next ∧ next.result (.tool tenantId toolCallId) = some result.roundTrip) := by
  simp only [DispatchState.perform]
  split
  · exact .inl rfl
  · rename_i missing
    have missing : s.result (.tool tenantId toolCallId) = none := by simpa [DispatchState.result] using missing
    let next : DispatchState := { s with ledger := DispatchState.putRow s.ledger tenantId toolCallId result.roundTrip }
    have results (j : DispatchIdentity) :
        next.result j = if j = .tool tenantId toolCallId then some result.roundTrip else s.result j := by
      cases j <;> simp [next, DispatchState.result, DispatchState.putRow]
    have still (a b : JsString) (r : Json) (stored : next.ledger a b = some r) : (next.claims a b).isSome := by
      rcases putRow_some stored with ⟨rfl, rfl, _⟩ | before
      · exact claimed
      · exact invariant.claimed a b r before
    have bound (j : DispatchIdentity) : next.bound j = s.bound j := by cases j <;> rfl
    obtain ⟨kept, guarantees⟩ := result_keeps invariant number missing (Json.roundTrip_roundTrip _) bound results rfl rfl
      still invariant.fresh
    exact .inr ⟨next, rfl, kept, guarantees, by simp [results]⟩

theorem startOperation_cases (invariant : DispatchInvariant sha256 known s) (number : Nat) (key : DocumentKey)
    (fingerprint : JsString) :
    let op := DispatchOp.setOperation number key none ⟨fingerprint, .started, none⟩
    (∃ e, DispatchState.perform op s = (s, .error e)) ∨
    (∃ next, DispatchState.perform op s = (next, .ok ()) ∧ DispatchInvariant sha256 known next ∧
      DispatchState.Guarantees number s next ∧ (∀ x ∈ next.executions, x.identity ≠ .provider key) ∧
      next.admitted (.provider key) = some number ∧ next.bound (.provider key) = some (some fingerprint)) := by
  simp only [DispatchState.perform]
  rcases compareAndSet_cases (fun _ => true) s.operations key none
    (ProviderOperationRecord.stringify ⟨fingerprint, .started, none⟩) with
    ⟨e, refused⟩ | ⟨_, current, written⟩
  · exact .inl ⟨e, by rw [refused]⟩
  · have absent : s.operations key = none := Option.map_eq_none_iff.mp current
    let next : DispatchState := { s with
      operations := s.operations.put key ⟨1, ⟨fingerprint, .started, none⟩⟩
      admitted := Function.update s.admitted (.provider key) (some number) }
    have bound (j : DispatchIdentity) : next.bound j = if j = .provider key then some (some fingerprint) else s.bound j := by
      cases j with
      | tool a b => simp [next, DispatchState.bound]
      | provider k => by_cases here : k = key <;> simp [next, DispatchState.bound, Documents.put, here]
    have result (j : DispatchIdentity) : next.result j = s.result j := by
      cases j with
      | tool a b => rfl
      | provider k => by_cases here : k = key <;> simp [next, DispatchState.result, Documents.put, here, absent]
    have admitted (j : DispatchIdentity) : next.admitted j = if j = .provider key then some number else s.admitted j :=
      Function.update_apply ..
    have free : s.bound (.provider key) = none := by simp [DispatchState.bound, absent]
    have fresh (k : DocumentKey) (d : Versioned ProviderOperationRecord) (found : next.operations k = some d)
        (first : d.version = 1) : d.record.result = none := by
      by_cases here : k = key
      · rw [here] at found
        obtain rfl := Option.some.inj ((Documents.put_self ..).symm.trans found)
        rfl
      · exact invariant.fresh k d ((Documents.put_other _ _ here).symm.trans found) first
    obtain ⟨kept, guarantees, idle⟩ := claim_keeps invariant free bound result admitted rfl invariant.claimed fresh
    refine .inr ⟨next, ?_, kept, guarantees, idle, by simp [admitted], by simp [bound]⟩
    rw [written]
    rfl

theorem completeOperation_cases (invariant : DispatchInvariant sha256 known s) (number : Nat) {key : DocumentKey}
    {fingerprint : JsString} (claimed : s.bound (.provider key) = some (some fingerprint)) (result : Json) :
    let op := DispatchOp.setOperation number key (some 1) ⟨fingerprint, .completed, some result⟩
    (∃ e, DispatchState.perform op s = (s, .error e)) ∨
    (∃ next, DispatchState.perform op s = (next, .ok ()) ∧ DispatchInvariant sha256 known next ∧
      DispatchState.Guarantees number s next ∧ next.result (.provider key) = some result.roundTrip) := by
  simp only [DispatchState.perform]
  rcases compareAndSet_cases (fun _ => true) s.operations key (some 1)
    (ProviderOperationRecord.stringify ⟨fingerprint, .completed, some result⟩) with
    ⟨e, refused⟩ | ⟨_, current, written⟩
  · exact .inl ⟨e, by rw [refused]⟩
  · obtain ⟨d, found, version⟩ := Option.map_eq_some_iff.mp current
    have same : d.record.fingerprint = fingerprint := by simpa [DispatchState.bound, found] using claimed
    have missing : s.result (.provider key) = none := by simp [DispatchState.result, found, invariant.fresh key d found version]
    let next : DispatchState := { s with
      operations := s.operations.put key ⟨2, ⟨fingerprint, .completed, some result.roundTrip⟩⟩ }
    have bound (j : DispatchIdentity) : next.bound j = s.bound j := by
      cases j with
      | tool a b => rfl
      | provider k => by_cases here : k = key <;> simp [next, DispatchState.bound, Documents.put, here, found, same]
    have results (j : DispatchIdentity) :
        next.result j = if j = .provider key then some result.roundTrip else s.result j := by
      cases j with
      | tool a b => simp [next, DispatchState.result]
      | provider k => by_cases here : k = key <;> simp [next, DispatchState.result, Documents.put, here]
    have fresh (k : DocumentKey) (e : Versioned ProviderOperationRecord) (at_ : next.operations k = some e)
        (first : e.version = 1) : e.record.result = none := by
      by_cases here : k = key
      · rw [here] at at_
        obtain rfl := Option.some.inj ((Documents.put_self ..).symm.trans at_)
        cases first
      · exact invariant.fresh k e ((Documents.put_other _ _ here).symm.trans at_) first
    obtain ⟨kept, guarantees⟩ := result_keeps invariant number missing (Json.roundTrip_roundTrip _) bound results rfl rfl
      invariant.claimed fresh
    refine .inr ⟨next, ?_, kept, guarantees, by simp [results]⟩
    rw [written]
    rfl

/-! ### The programs keep the contract -/

variable {number : Nat} {call : DispatchCall}

theorem DispatchState.Guarantees.same (s : DispatchState) : DispatchState.Guarantees number s s where
  persists := DispatchState.Persists.refl s
  executions _ member := .inl member

theorem safe_returned {value : Json} (answered : Answered sha256 known s ⟨call, value⟩) :
    (dispatchContract sha256 known).Safe number (.emit ⟨call, value⟩ .done) [] s := by
  intro t relies _
  refine ⟨fun returned member => ?_, trivial⟩
  rw [List.nil_append, List.mem_singleton] at member
  rw [member]
  exact answered.later relies.persists

theorem safe_attempt {op : DispatchOp} {next : DispatchReply op → DispatchProgram} {thrown : DispatchProgram}
    (runs : ∀ t, DispatchState.Relies number s t → DispatchInvariant sha256 known t →
      DispatchInvariant sha256 known (DispatchState.perform op t).1 ∧
        DispatchState.Guarantees number t (DispatchState.perform op t).1 ∧
        (dispatchContract sha256 known).Safe number (next (DispatchState.perform op t).2) [] (DispatchState.perform op t).1)
    (throws : ∀ t, (dispatchContract sha256 known).Safe number thrown [] t) :
    (dispatchContract sha256 known).Safe number (attempt op next thrown) [] s := by
  intro reading _
  dsimp only
  cases reading.fault with
  | none => exact fun t relies invariant _ => runs t relies invariant
  | before => exact throws s
  | after =>
    intro t relies invariant _
    obtain ⟨kept, guarantees, _⟩ := runs t relies invariant
    exact ⟨kept, guarantees, throws _⟩

theorem safe_execute (call : DispatchCall) {next : Json → DispatchProgram} (isKnown : known call)
    (admitted : s.admitted call.identity = some call.number) (bound : s.bound call.identity = some (call.digest sha256))
    (idle : ∀ x ∈ s.executions, x.identity ≠ call.identity)
    (nexts : ∀ t result, s.Persists t → (dispatchContract sha256 known).Safe call.number (next result) [] t) :
    (dispatchContract sha256 known).Safe call.number (execute call next) [] s := by
  intro t relies invariant _
  have stillIdle : ∀ x ∈ t.executions, x.identity ≠ call.identity := by
    intro x member same
    exact idle x (relies.executions x member (same ▸ admitted)) same
  have admission := relies.persists.admitted _ _ admitted
  refine ⟨⟨invariant.unclaimed, invariant.claimed, invariant.printed, invariant.fresh, fun x member => ?_, ?_⟩,
    ⟨⟨fun _ _ at_ => at_, fun _ _ at_ => at_, fun _ _ at_ => at_⟩, fun x member => ?_⟩, fun reading _ => ?_⟩
  · rcases List.mem_append.mp member with before | new
    · exact invariant.executed x before
    · rw [List.mem_singleton.mp new]
      exact ⟨isKnown, admission, relies.persists.bound _ _ bound⟩
  · have once : ((t.executions ++ [call]).map DispatchCall.identity).Nodup := by
      rw [List.map_append, List.nodup_append]
      refine ⟨invariant.once, by simp, fun i before j new same => ?_⟩
      obtain ⟨x, member, rfl⟩ := List.mem_map.mp before
      rw [List.map_singleton, List.mem_singleton] at new
      exact stillIdle x member (same.trans new)
    exact once
  · rcases List.mem_append.mp member with before | new
    · exact .inl before
    · rw [List.mem_singleton.mp new]
      exact .inr admission
  · dsimp only
    split
    · trivial
    · exact nexts _ _ ⟨relies.persists.bound, relies.persists.result, relies.persists.admitted⟩

theorem safe_getOrExecuteTool (tenantId toolCallId : JsString) (requestFingerprint : Option JsString)
    (isKnown : known (.getOrExecuteTool number tenantId toolCallId requestFingerprint)) :
    (dispatchContract sha256 known).Safe number
      (getOrExecuteTool sha256 number tenantId toolCallId requestFingerprint) [] s := by
  unfold getOrExecuteTool
  dsimp only
  split
  · trivial
  · refine safe_attempt (fun t relies invariant => ?_) fun _ => trivial
    rcases admitTool_cases invariant number tenantId toolCallId (requestFingerprint.map sha256) with
      refused | uncertain | ⟨r, stored, bound, completed⟩ | ⟨next, admits, kept, guarantees, idle, admitted, bound⟩
    · rw [refused]
      exact ⟨invariant, .same t, trivial⟩
    · rw [uncertain]
      exact ⟨invariant, .same t, trivial⟩
    · rw [completed]
      exact ⟨invariant, .same t, safe_returned ⟨isKnown, bound, r, stored, .inl rfl⟩⟩
    · rw [admits]
      refine ⟨kept, guarantees, ?_⟩
      refine safe_execute (.getOrExecuteTool number tenantId toolCallId requestFingerprint) isKnown admitted bound idle
        fun u result persists => ?_
      refine safe_attempt (fun v relies invariant => ?_) fun _ => trivial
      have held := relies.persists.bound _ _ (persists.bound _ _ bound)
      rcases insertResult_cases invariant number (Option.isSome_of_eq_some held) result with
        refused | ⟨last, inserted, kept, guarantees, stored⟩
      · rw [refused]
        exact ⟨invariant, .same v, trivial⟩
      · rw [inserted]
        exact ⟨kept, guarantees, safe_returned ⟨isKnown, guarantees.persists.bound _ _ held, _, stored, .inl rfl⟩⟩

theorem safe_readCompleted {key : DocumentKey} {requestFingerprint : JsString} {parseResult : Json → Option Json}
    (isKnown : known (.run number key requestFingerprint parseResult)) {absent thrown : DispatchProgram}
    (absents : ∀ t, (dispatchContract sha256 known).Safe number absent [] t)
    (throws : ∀ t, (dispatchContract sha256 known).Safe number thrown [] t) :
    (dispatchContract sha256 known).Safe number (readCompleted key (sha256 requestFingerprint) parseResult
      (fun value => .emit ⟨.run number key requestFingerprint parseResult, value⟩ .done) absent thrown) [] s := by
  refine safe_attempt (fun t relies invariant => ⟨invariant, .same t, ?_⟩) throws
  simp only [DispatchState.perform]
  split
  · exact throws t
  · exact absents t
  · rename_i document read
    have found := getDocument_ok read
    by_cases version : document.version ≠ if document.record.status = .started then 1 else 2
    · rw [if_pos version]
      exact throws t
    rw [if_neg version]
    by_cases fingerprint : document.record.fingerprint ≠ sha256 requestFingerprint
    · rw [if_pos fingerprint]
      exact throws t
    rw [if_neg fingerprint]
    by_cases status : document.record.status ≠ .completed
    · rw [if_pos status]
      exact throws t
    rw [if_neg status]
    split
    · exact throws t
    · rename_i value parsed
      obtain ⟨r, stored, value⟩ := Option.bind_eq_some_iff.mp parsed
      have result : t.result (.provider key) = some r := by rw [DispatchState.result, ← found, Option.bind_some, stored]
      rw [not_not] at fingerprint
      refine safe_returned ⟨isKnown, ?_, r, result, .inr ?_⟩
      · simp only [DispatchCall.identity, DispatchState.bound, ← found, Option.map_some, fingerprint]
        rfl
      · rw [invariant.printed _ r result] at value
        exact value

theorem safe_run (key : DocumentKey) (requestFingerprint : JsString) (parseResult : Json → Option Json)
    (isKnown : known (.run number key requestFingerprint parseResult)) :
    (dispatchContract sha256 known).Safe number (run sha256 number key requestFingerprint parseResult) [] s := by
  unfold run
  dsimp only
  split
  · trivial
  · refine safe_readCompleted isKnown (fun t => ?_) fun _ => trivial
    refine safe_attempt (fun u relies invariant => ?_) fun _ => trivial
    rcases startOperation_cases invariant number key (sha256 requestFingerprint) with
      ⟨e, refused⟩ | ⟨next, started, kept, guarantees, idle, admitted, bound⟩
    · rw [refused]
      refine ⟨invariant, .same u, ?_⟩
      cases e with
      | invalid | query => trivial
      | conflict => exact safe_readCompleted isKnown (fun _ => trivial) fun _ => trivial
    · rw [started]
      refine ⟨kept, guarantees, ?_⟩
      refine safe_execute (.run number key requestFingerprint parseResult) isKnown admitted bound idle
        fun v executed persists => ?_
      split
      · trivial
      · rename_i result _
        have repair (w : DispatchState) : (dispatchContract sha256 known).Safe number (readCompleted key
            (sha256 requestFingerprint) parseResult
            (fun value => .emit ⟨.run number key requestFingerprint parseResult, value⟩ .done) .done .done) [] w :=
          safe_readCompleted isKnown (fun _ => trivial) fun _ => trivial
        refine safe_attempt (fun w relies invariant => ?_) repair
        have held := relies.persists.bound _ _ (persists.bound _ _ bound)
        rcases completeOperation_cases invariant number held result with ⟨e, refused⟩ | ⟨last, completed, kept,
          guarantees, stored⟩
        · rw [refused]
          exact ⟨invariant, .same w, repair w⟩
        · rw [completed]
          exact ⟨kept, guarantees, safe_returned ⟨isKnown, guarantees.persists.bound _ _ held, _, stored, .inl rfl⟩⟩

theorem dispatch_verified : (dispatchContract sha256 known).Verified := by
  intro call outputs s pre
  obtain ⟨isKnown, rfl⟩ := pre
  cases call with
  | getOrExecuteTool number tenantId toolCallId fingerprint => exact safe_getOrExecuteTool tenantId toolCallId fingerprint isKnown
  | run number key fingerprint parseResult => exact safe_run key fingerprint parseResult isKnown

end

/-! ### Schedules -/

abbrev Dispatches := System DispatchState DispatchOp DispatchReply DispatchReading DispatchCall Returned Nat

def noDispatches : Dispatches where
  shared := ⟨fun _ => none, fun _ _ => none, fun _ _ => none, fun _ => none, []⟩
  processes := []

def Dispatches.HasReturned (s : Dispatches) (returned : Returned) : Prop := ∃ p ∈ s.processes, returned ∈ p.outputs

/-- The call started its `execute`, or returned a result. -/
def Dispatches.Serves (s : Dispatches) (call : DispatchCall) : Prop :=
  call ∈ s.shared.executions ∨ ∃ value, s.HasReturned ⟨call, value⟩

section
variable (sha256 : JsString → JsString)

/-- From `s` on to `t`, dispatch is at most once. -/
structure AtMostOnce (s t : Dispatches) : Prop where
  once : (t.shared.executions.map DispatchCall.identity).Nodup
  durable : ∀ i r, s.shared.result i = some r → t.shared.result i = some r
  returned : ∀ returned, s.HasReturned returned → ∃ r, t.shared.result returned.call.identity = some r ∧
    (returned.value = r ∨ returned.call.parseResult r = some returned.value)
  bound : ∀ i b, s.shared.bound i = some b → ∀ call, t.Serves call → call.identity = i → call.digest sha256 = b
  fingerprints : ∀ a b, s.Serves a → t.Serves b → a.identity = b.identity → a.requestFingerprint = b.requestFingerprint

variable {sha256} {known : DispatchCall → Prop} {s t : Dispatches}

theorem dispatchInvariant_noDispatches : DispatchInvariant sha256 known noDispatches.shared where
  unclaimed _ _ := rfl
  claimed _ _ _ stored := by cases stored
  printed i _ stored := by cases i <;> cases stored
  fresh _ _ found := by cases found
  executed _ member := by cases member
  once := List.nodup_nil

theorem allMeet_dispatches {actions : List (Action DispatchReading DispatchCall)}
    (started : ∀ call, .start call ∈ actions → known call) : (dispatchContract sha256 known).AllMeet s actions := by
  induction actions generalizing s with
  | nil => trivial
  | cons action rest ih =>
    refine ⟨?_, ih fun call member => started call (List.mem_cons_of_mem _ member)⟩
    cases action with
    | start call => exact started call (List.mem_cons_self ..)
    | advance i reading => exact fun _ _ => ⟨trivial, fun _ _ _ => trivial⟩

theorem persists_of_changes {s t : DispatchState}
    (changes : Relation.ReflTransGen (fun u v => DispatchInvariant sha256 known u ∧ ∃ number, DispatchState.Guarantees number u v)
      s t) : s.Persists t := by
  induction changes with
  | refl => exact DispatchState.Persists.refl s
  | tail _ change ih =>
    obtain ⟨_, _, guarantees⟩ := change
    exact ih.trans guarantees.persists

theorem served_bound (holds : (dispatchContract sha256 known).Holds s) {call : DispatchCall} (serves : s.Serves call) :
    known call ∧ s.shared.bound call.identity = some (call.digest sha256) := by
  rcases serves with executed | ⟨value, p, member, returned⟩
  · obtain ⟨isKnown, _, bound⟩ := holds.invariant.executed call executed
    exact ⟨isKnown, bound⟩
  · have answered := holds.traces p member _ returned
    exact ⟨answered.known, answered.bound⟩

theorem atMostOnce_of_holds (before : (dispatchContract sha256 known).Holds s) (after : (dispatchContract sha256 known).Holds t)
    (persists : s.shared.Persists t.shared)
    (separates : ∀ a b, known a → known b → a.identity = b.identity → a.digest sha256 = b.digest sha256 →
      a.requestFingerprint = b.requestFingerprint) : AtMostOnce sha256 s t where
  once := after.invariant.once
  durable := persists.result
  returned returned has := by
    obtain ⟨p, member, output⟩ := has
    exact ((before.traces p member returned output).later persists).stored
  bound i b bound call serves same := by
    obtain ⟨_, held⟩ := served_bound after serves
    rw [same, persists.bound i b bound] at held
    exact (Option.some.inj held).symm
  fingerprints a b servesA servesB same := by
    obtain ⟨knownA, heldA⟩ := served_bound before servesA
    obtain ⟨knownB, heldB⟩ := served_bound after servesB
    have still := persists.bound _ _ heldA
    rw [same, heldB] at still
    exact separates a b knownA knownB same (Option.some.inj still).symm

end

/-- Along every schedule of calls whose fingerprints `sha256` does not confuse, dispatch is at most once. -/
theorem dispatch_at_most_once (sha256 : JsString → JsString) (first later : List (Action DispatchReading DispatchCall))
    (separates : ∀ a b : DispatchCall, .start a ∈ first ++ later → .start b ∈ first ++ later → a.identity = b.identity →
      a.digest sha256 = b.digest sha256 → a.requestFingerprint = b.requestFingerprint) :
    AtMostOnce sha256 ((dispatchCode sha256).run noDispatches first) ((dispatchCode sha256).run noDispatches (first ++ later)) := by
  let started (call : DispatchCall) : Prop := .start call ∈ first ++ later
  have verified : (dispatchContract sha256 started).Verified := dispatch_verified
  have meets : (dispatchContract sha256 started).AllMeet noDispatches (first ++ later) :=
    allMeet_dispatches fun _ member => member
  rw [Contract.allMeet_append] at meets
  obtain ⟨before, _⟩ := ((dispatchContract sha256 started).holds_start dispatchInvariant_noDispatches).run verified meets.1
  obtain ⟨after, changes⟩ := before.run verified meets.2
  rw [Code.run_append]
  exact atMostOnce_of_holds before after (persists_of_changes changes) separates

/-! ### A crash -/

def sampleCall (number : Nat) (fingerprint : String) : DispatchCall :=
  .getOrExecuteTool number (js "tenant") (js "call") (some (js fingerprint))

def sampleQueries (process count : Nat) : List (Action DispatchReading DispatchCall) :=
  List.replicate count (.advance process ⟨.none, some (.str (js "done"))⟩)

def sampleSha256 (text : JsString) : JsString :=
  if text = js "input" then js "c96c6d5be8d08a12e7b5cdc1b207fa6b2430974c86803d8891675e76fd992c20"
  else if text = js "other" then js "d9298a10d1b0735837dc4bd85dac641b0f3cef27a47e5d53a54f2f3f5b2fcffa"
  else text

/-- The first worker crashes after it has started its `execute`. No retry executes again, with the same input or other. -/
theorem dispatch_at_most_once_crash : ∃ first later,
    first = .start (sampleCall 0 "input") :: sampleQueries 0 3 ∧
    later = .start (sampleCall 1 "input") :: sampleQueries 1 6 ++ .start (sampleCall 2 "other") :: sampleQueries 2 6 ∧
    ((dispatchCode sampleSha256).run noDispatches (first ++ later)).shared.executions.map DispatchCall.number = [0] ∧
    AtMostOnce sampleSha256 ((dispatchCode sampleSha256).run noDispatches first)
      ((dispatchCode sampleSha256).run noDispatches (first ++ later)) := by
  refine ⟨_, _, rfl, rfl, by decide +kernel, dispatch_at_most_once sampleSha256 _ _ fun a b startA startB _ same => ?_⟩
  simp only [List.mem_append, List.mem_cons, sampleQueries, List.mem_replicate, Action.start.injEq, reduceCtorEq, and_false,
    or_false] at startA startB
  have distinct : sampleSha256 (js "input") ≠ sampleSha256 (js "other") := by decide +kernel
  rcases startA with rfl | rfl | rfl <;> rcases startB with rfl | rfl | rfl <;>
    simp_all [sampleCall, DispatchCall.digest, DispatchCall.requestFingerprint]

end Handrail.Postgres

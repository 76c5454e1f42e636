import Handrail.Server.KeyHolders

/-!
# Completed operations

Once an operation has returned a valid result, its call settles the key as completed, no other call runs an operation
under the key, and what the others answer is that result, replayed.
-/

namespace Handrail.Server.KeyedRequests
open Js Concurrent Execution

variable {T L : Type} {w v : KeyedRequests T L} {x y : Execution T L} {i : Nat} {stored : StoredResult}

def Completing (x : Execution T L) (stored : StoredResult) : Prop :=
  match x.phase with
  | .awaiting _ => x.operationResult = some stored ∧ x.lifecycle = none
  | .releasing _ result => result = .success stored false ∧ ∀ error, x.run.outcome ≠ some (.error error)
  | .settling settlement result => settlement.status = .completed stored ∧ result = .success stored false
  | _ => ∃ reservation, x.settlements = [⟨reservation, .completed stored⟩]

/-! ### The call itself -/

variable {stored : StoredResult}

theorem completing_receive {answer : Answer T L} {context : AuthenticatedContext}
    (cloned : cloneStoredResult answer.value = some stored) (live : x.lifecycle = none) (leased : x.lease.isSome = true) :
    Completing (x.receive answer (.operation context)) stored := by
  unfold receive
  dsimp only
  rw [cloned]
  dsimp only
  rw [if_neg (by simp [live])]
  obtain ⟨lease, held⟩ := Option.isSome_iff_exists.mp leased
  unfold cleanup
  dsimp only
  rw [held]
  exact ⟨rfl, fun error failed => by cases failed⟩

variable [DecidableEq T] [DecidableEq L]

omit [DecidableEq T] [DecidableEq L] in
theorem operation_of_result (returned : x.operationResult = some stored) :
    ∃ context answer, x.phase = .awaiting (.operation context) ∧ x.run.outcome = some (.ok answer) ∧
      cloneStoredResult answer.value = some stored := by
  unfold operationResult at returned
  split at returned
  · rename_i context answer phase answered
    exact ⟨context, answer, phase, answered, returned⟩
  · cases returned

omit [DecidableEq T] [DecidableEq L] in
theorem completing_proceed (booked : x.Booked) (secured : x.Secured)
    (completing : Completing x stored) {outcome : Except Thrown (Answer T L)} (answered : x.run.outcome = some outcome) :
    Completing (x.proceed outcome) stored := by
  unfold Completing at completing
  unfold Booked at booked
  unfold Secured at secured
  unfold proceed
  split
  · rename_i call phase
    rw [phase] at completing secured
    obtain ⟨returned, live⟩ := completing
    obtain ⟨context, answer, operating, same, cloned⟩ := operation_of_result returned
    cases phase.symm.trans operating
    cases answered.symm.trans same
    exact completing_receive (x := x.record (.received answer)) cloned live (secured.2 rfl)
  · rename_i lease result phase
    rw [phase] at completing secured
    obtain ⟨rfl, unfailed⟩ := completing
    obtain ⟨reservation, held⟩ := Option.isSome_iff_exists.mp secured
    cases outcome with
    | error error => exact (unfailed error answered).elim
    | ok answer =>
      dsimp only
      unfold settle
      rw [held]
      exact ⟨rfl, rfl⟩
  · rename_i settlement result phase
    rw [phase] at completing booked
    obtain ⟨status, rfl⟩ := completing
    obtain ⟨-, settlements, -⟩ := booked
    have settled : ∃ reservation, x.settlements = [⟨reservation, .completed stored⟩] :=
      ⟨settlement.reservation, by rw [settlements, ← status]⟩
    have kept (z : Execution T L) (record : TerminalRecord) (same : z.history = x.history ++ [.called (.retainTerminal record)]) :
        z.settlements = x.settlements := by
      rw [Execution.settlements, same, List.filterMap_append]
      exact List.append_nil _
    cases outcome with
    | error error =>
      obtain ⟨reservation, one⟩ := settled
      exact ⟨reservation, (kept _ _ rfl).trans one⟩
    | ok answer =>
      obtain ⟨reservation, one⟩ := settled
      exact ⟨reservation, (kept _ _ rfl).trans one⟩
  · rename_i record result phase
    rw [phase] at completing
    exact completing
  · rename_i result phase
    unfold Completing
    rw [phase] at completing ⊢
    exact completing

omit [DecidableEq T] [DecidableEq L] in
/-- What happens at an await leaves the completion as it is, if the operation's answer and the release are let be. -/
theorem Completing.frame (completing : Completing x stored) (phase : y.phase = x.phase)
    (settlements : y.settlements = x.settlements)
    (operation : ∀ call, x.phase = .awaiting call → y.run.outcome = x.run.outcome ∧ y.lifecycle = x.lifecycle)
    (release : ∀ lease, x.phase = .releasing lease (.success stored false) →
      (∀ error, x.run.outcome ≠ some (.error error)) → ∀ error, y.run.outcome ≠ some (.error error)) :
    Completing y stored := by
  unfold Completing at completing ⊢
  rw [phase]
  split at completing
  · rename_i call awaits
    obtain ⟨sameOutcome, sameLifecycle⟩ := operation call awaits
    refine ⟨?_, sameLifecycle.trans completing.2⟩
    rw [← completing.1, operationResult, operationResult, phase, sameOutcome]
  · rename_i lease result releases
    obtain ⟨rfl, unfailed⟩ := completing
    exact ⟨rfl, release lease releases unfailed⟩
  · exact completing
  · rw [settlements]
    exact completing

theorem completing_move {action : Execution.Action T L} (booked : x.Booked) (secured : x.Secured)
    (completing : Completing x stored) (undisturbed : undisturbed x action = true) (move : Move x action y) :
    Completing y stored := by
  cases move with
  | stay => exact completing
  | abort kind live =>
    refine completing.frame rfl rfl (fun call phase => ?_) (fun _ _ unfailed => unfailed)
    unfold Completing at completing
    rw [phase] at completing
    rw [KeyedRequests.undisturbed, completing.1] at undisturbed
    cases undisturbed
  | take effect allowed =>
    refine completing.frame rfl ?_ (fun _ _ => ⟨rfl, rfl⟩) (fun _ _ unfailed => unfailed)
    exact (List.filterMap_append ..).trans (List.append_nil _)
  | answer outcome open_ going live truthful =>
    refine completing.frame rfl rfl (fun call phase => ?_) (fun lease phase unfailed error failed => ?_)
    · unfold Completing at completing
      rw [phase] at completing
      obtain ⟨context, answer, operating, answered, cloned⟩ := operation_of_result completing.1
      rw [open_] at answered
      cases answered
    · cases failed
      rw [KeyedRequests.undisturbed, phase] at undisturbed
      cases undisturbed
  | overtaken late call phase aborted =>
    unfold Completing at completing
    rw [phase] at completing
    exact (aborted completing.2).elim
  | proceed late outcome answered => exact completing_proceed booked secured completing answered

omit [DecidableEq T] [DecidableEq L] in
theorem completing_settlements (booked : x.Booked) (completing : Completing x stored) :
    (∀ settlement ∈ x.settlements, settlement.status = .completed stored) ∧
      (x.isReturned = true → ∃ reservation, x.settlements = [⟨reservation, .completed stored⟩]) := by
  unfold Completing at completing
  unfold Booked at booked
  unfold isReturned
  split at completing
  · rename_i call phase
    rw [phase] at booked ⊢
    rw [booked.2.1]
    exact ⟨fun settlement member => absurd member List.not_mem_nil, fun returned => by cases returned⟩
  · rename_i lease result phase
    rw [phase] at booked ⊢
    rw [booked.2.1]
    exact ⟨fun settlement member => absurd member List.not_mem_nil, fun returned => by cases returned⟩
  · rename_i settlement result phase
    rw [phase] at booked ⊢
    rw [booked.2.1]
    exact ⟨fun other member => List.mem_singleton.mp member ▸ completing.1, fun returned => by cases returned⟩
  · obtain ⟨reservation, one⟩ := completing
    rw [one]
    exact ⟨fun other member => by rw [List.mem_singleton.mp member], fun _ => ⟨reservation, rfl⟩⟩

/-! ### The other calls -/

def operations (x : Execution T L) : Nat := x.history.countP ExecutionEvent.isOperation

omit [DecidableEq T] [DecidableEq L] in
theorem operations_append {events : List (ExecutionEvent T L)} (history : y.history = x.history ++ events)
    (none_ : ∀ event ∈ events, event.isOperation = false) : operations y = operations x := by
  have zero : events.countP ExecutionEvent.isOperation = 0 :=
    List.countP_eq_zero.mpr fun event member => by simp [none_ event member]
  rw [operations, history, List.countP_append, zero]
  rfl

omit [DecidableEq T] [DecidableEq L] in
theorem operations_leaves (leaves : Leaves x y) : operations y = operations x := by
  obtain ⟨-, -, events, history, quiet⟩ := leaves
  exact operations_append history fun event member => isOperation_of_quiet (quiet event member)

omit [DecidableEq T] [DecidableEq L] in
theorem operations_proceed (secured : x.Secured) (free : x.holds = false) (outcome : Except Thrown (Answer T L)) :
    operations (x.proceed outcome) = operations x := by
  unfold proceed
  split
  · rename_i call phase
    cases outcome with
    | error error => exact operations_leaves (leaves_caught error)
    | ok answer =>
      have received : operations (x.record (.received answer)) = operations x :=
        operations_append rfl fun event member => by
          rw [List.mem_singleton.mp member]
          rfl
      refine Eq.trans ?_ received
      rcases enters_receive (x := x.record (.received answer)) answer call with left | ⟨next, follows, left | ⟨-, history⟩⟩
      · exact operations_leaves left
      · exact operations_leaves left
      · refine operations_append history fun event member => ?_
        rw [List.mem_singleton.mp member]
        cases follows with
        | concurrency =>
          unfold Secured at secured
          rw [phase] at secured
          rw [holds_of_reservation phase (secured.1 rfl)] at free
          cases free
        | _ => rfl
  · cases outcome with
    | error error => exact operations_leaves (leaves_settle (x := x.cleanupFailed) _)
    | ok answer => exact operations_leaves (leaves_settle _)
  · cases outcome with
    | error error => exact operations_leaves (leaves_retain (x := x.cleanupFailed) _)
    | ok answer => exact operations_leaves (leaves_retain _)
  · rfl
  · rfl

theorem operations_move {action : Execution.Action T L} (secured : x.Secured) (free : x.holds = false) (move : Move x action y) :
    operations y = operations x := by
  cases move with
  | stay | abort | answer => rfl
  | take effect =>
    refine operations_append rfl fun event member => ?_
    rw [List.mem_singleton.mp member]
    rfl
  | overtaken => exact operations_leaves (leaves_caught .other)
  | proceed late outcome => exact operations_proceed secured free outcome

omit [DecidableEq T] [DecidableEq L] in
theorem operations_execute [UrlPlatform] (options : ProtectionOptions) (input : ExecutionInput) :
    operations (execute options input : Execution T L) = 0 := by
  unfold execute
  dsimp only
  split
  · exact operations_leaves (leaves_decline ..)
  · split
    · split
      · exact operations_leaves (leaves_caught _)
      · rcases enters_enter (T := T) (L := L) .origin (.validateOrigin _) with left | ⟨-, history⟩
        · exact operations_leaves left
        · rw [operations, history]
          rfl
    · exact operations_leaves (leaves_decline ..)

/-! ### The completed operation -/

structure Fixed (w : KeyedRequests T L) (i : Nat) (stored : StoredResult) : Prop where
  completing : ∃ x, w.calls[i]? = some x ∧ Completing x stored
  record : w.record = .inFlight ∨ w.record = .completed stored
  others : ∀ (j : Nat) (y : Execution T L), j ≠ i → w.calls[j]? = some y →
    y.holds = false ∧ ∀ other, y.result ≠ some (.success other false)

theorem Exclusive.fixed (exclusive : w.Exclusive) {i : Nat} (found : w.calls[i]? = some x)
    (returned : x.operationResult = some stored) (live : x.lifecycle = none) : Fixed w i stored := by
  have held := holds_of_operationResult (exclusive.sound i x found).2.2 returned
  have flight := exclusive.inFlight i x found held
  obtain ⟨context, answer, phase, -, -⟩ := operation_of_result returned
  refine ⟨⟨x, found, ?_⟩, .inl flight, fun j y apart other => ?_⟩
  · rw [Completing, phase]
    exact ⟨returned, live⟩
  · have free : y.holds = false := by
      by_contra holds
      exact apart (exclusive.alone j i y x other found (by simpa using holds) held)
    refine ⟨free, fun result succeeds => ?_⟩
    rcases exclusive.successes j y result false other succeeds with completed | ⟨-, holds⟩
    · rw [flight] at completed
      cases completed
    · rw [free] at holds
      cases holds

theorem Fixed.other (fixed : Fixed w i stored) (exclusive : w.Exclusive) {k : Nat} (apart : k ≠ i) (found : w.calls[k]? = some x)
    {action : Execution.Action T L} (lets : Lets w.record x action) (move : Move x action y) :
    y.holds = false ∧ (∀ other, y.result ≠ some (.success other false)) ∧ operations y = operations x := by
  obtain ⟨free, unsuccessful⟩ := fixed.others k x apart found
  obtain ⟨booked, sound, secured⟩ := exclusive.sound k x found
  refine ⟨?_, fun other succeeds => ?_, operations_move secured free move⟩
  · by_contra holds
    rcases holds_move sound secured move (by simpa using holds) with held | ⟨reservation, reserves, -⟩
    · rw [free] at held
      cases held
    · rcases lets.free reservation reserves with absent | failed
      · rcases fixed.record with flight | completed
        · rw [flight] at absent
          cases absent
        · rw [completed] at absent
          cases absent
      · rcases fixed.record with flight | completed
        · rw [flight] at failed
          cases failed
        · rw [completed] at failed
          cases failed
  · rcases result_move move succeeds with before | ⟨again, -⟩ | ⟨-, returned, -⟩
    · exact unsuccessful other before
    · cases again
    · rw [holds_of_operationResult secured returned] at free
      cases free

def operationsAt (w : KeyedRequests T L) (j : Nat) : Nat := ((w.calls[j]?).map operations).getD 0

section
variable [UrlPlatform] {options : ProtectionOptions} {idempotency : Idempotency}

theorem Fixed.change (fixed : Fixed w i stored) (exclusive : w.Exclusive) {label : KeyedAction T L} (met : meets w label = true)
    (change : Change options w label v) : Fixed v i stored ∧ ∀ j, j ≠ i → operationsAt v j = operationsAt w j := by
  obtain ⟨x, found, completing⟩ := fixed.completing
  cases change with
  | stay => exact ⟨fixed, fun _ _ => rfl⟩
  | execute input =>
    have small := (List.getElem?_eq_some_iff.mp found).1
    refine ⟨⟨⟨x, ?_, completing⟩, fixed.record, fun j y apart at_ => ?_⟩, fun j apart => ?_⟩
    · rw [List.getElem?_append_left small, found]
    · rcases getElem?_concat_cases at_ with other | ⟨-, rfl⟩
      · exact fixed.others j y apart other
      · exact ⟨holds_execute options input, fun other => result_execute options input other false⟩
    · unfold operationsAt
      rcases Nat.lt_trichotomy j w.calls.length with before | here | after
      · rw [List.getElem?_append_left before]
      · rw [here, List.getElem?_concat_length, List.getElem?_eq_none (le_refl _)]
        exact operations_execute options input
      · rw [List.getElem?_eq_none (by simp; omega), List.getElem?_eq_none (by omega)]
  | act _ k z action at_ lets undisturbed =>
    by_cases own : k = i
    · subst own
      cases found.symm.trans at_
      obtain ⟨booked, sound, secured⟩ := exclusive.sound k x found
      have on := completing_move booked secured completing (undisturbed met) (move_step x action)
      refine ⟨⟨⟨_, ?_, on⟩, ?_, fun j y apart other => ?_⟩, fun j apart => ?_⟩
      · rw [getElem?_set_found found, if_pos rfl]
      · rcases recordAfter_cases (x := x) w.record action with same | ⟨-, -, reserved⟩ |
          ⟨settlement, result, -, -, phase, -, settled⟩
        · rw [same]
          exact fixed.record
        · exact .inl reserved
        · unfold Completing at completing
          rw [phase] at completing
          exact .inr (settled.trans (congrArg SettlementStatus.keyRecord completing.1))
      · rw [getElem?_set_found found, if_neg (Ne.symm apart)] at other
        exact fixed.others j y apart other
      · unfold operationsAt
        rw [getElem?_set_found found, if_neg (Ne.symm apart)]
    · have moved := fixed.other exclusive own at_ lets (move_step z action)
      refine ⟨⟨⟨x, ?_, completing⟩, ?_, fun j y apart other => ?_⟩, fun j apart => ?_⟩
      · rw [getElem?_set_found at_, if_neg own, found]
      · rcases recordAfter_cases (x := z) w.record action with same | ⟨-, -, reserved⟩ | ⟨_, _, -, -, -, held, -⟩
        · rw [same]
          exact fixed.record
        · exact .inl reserved
        · rw [(fixed.others k z own at_).1] at held
          cases held
      · rw [getElem?_set_found at_] at other
        split at other
        · cases other
          exact ⟨moved.1, moved.2.1⟩
        · exact fixed.others j y apart other
      · unfold operationsAt
        rw [getElem?_set_found at_]
        split
        · rename_i here
          rw [← here, at_]
          exact moved.2.2
        · rfl

variable (options idempotency)

def AllMet (w : KeyedRequests T L) : List (KeyedAction T L) → Prop
  | [] => True
  | action :: rest => meets w action = true ∧ AllMet (w.step options idempotency action) rest

instance decidableAllMet : (w : KeyedRequests T L) → (actions : List (KeyedAction T L)) →
    Decidable (AllMet options idempotency w actions)
  | _, [] => inferInstanceAs (Decidable True)
  | w, action :: rest =>
    let _ := decidableAllMet (w.step options idempotency action) rest
    inferInstanceAs (Decidable (meets w action = true ∧ AllMet options idempotency (w.step options idempotency action) rest))

variable {options idempotency}

theorem exclusive_run (exclusive : w.Exclusive) (actions : List (KeyedAction T L)) :
    (w.run options idempotency actions).Exclusive := by
  induction actions generalizing w with
  | nil => exact exclusive
  | cons action rest ih => exact ih (exclusive_change exclusive (change_step w action))

theorem Fixed.run (fixed : Fixed w i stored) (exclusive : w.Exclusive) {actions : List (KeyedAction T L)}
    (met : AllMet options idempotency w actions) :
    Fixed (w.run options idempotency actions) i stored ∧
      ∀ j, j ≠ i → operationsAt (w.run options idempotency actions) j = operationsAt w j := by
  induction actions generalizing w with
  | nil => exact ⟨fixed, fun _ _ => rfl⟩
  | cons action rest ih =>
    obtain ⟨next, same⟩ := fixed.change exclusive met.1 (change_step w action)
    obtain ⟨last, sameLater⟩ := ih next (exclusive_change exclusive (change_step w action)) met.2
    exact ⟨last, fun j apart => (sameLater j apart).trans (same j apart)⟩

structure Completed (i : Nat) (stored : StoredResult) (w v : KeyedRequests T L) : Prop where
  settles : ∃ x, v.calls[i]? = some x ∧ (∀ settlement ∈ x.settlements, settlement.status = .completed stored) ∧
    (x.isReturned = true → ∃ reservation, x.settlements = [⟨reservation, .completed stored⟩])
  operations : ∀ j, j ≠ i → operationsAt v j = operationsAt w j
  replays : ∀ (j : Nat) (x : Execution T L) (result : StoredResult) (replayed : Bool), j ≠ i → v.calls[j]? = some x →
    x.result = some (.success result replayed) → result = stored ∧ replayed = true

/-- After an operation has returned a valid result in a call that is not aborted, in every run in which no such call is
aborted before it goes on and no such call's lease fails to be released, that call settles the key as completed with the
result, no other call runs an operation, and every other call that succeeds replays the result. -/
theorem completed_once (first later : List (KeyedAction T L))
    (found : (create.run options idempotency first).calls[i]? = some x) (returned : x.operationResult = some stored)
    (live : x.lifecycle = none) (met : AllMet options idempotency (create.run options idempotency first) later) :
    Completed i stored (create.run options idempotency first) (create.run options idempotency (first ++ later)) := by
  have exclusive : (create.run options idempotency first).Exclusive := exclusive_run exclusive_create first
  obtain ⟨fixed, same⟩ := (exclusive.fixed found returned live).run exclusive met
  have whole : (create.run options idempotency first).run options idempotency later =
      create.run options idempotency (first ++ later) := (List.foldl_append ..).symm
  rw [whole] at fixed same
  have last : (create.run options idempotency (first ++ later)).Exclusive := exclusive_run exclusive_create _
  obtain ⟨y, there, completing⟩ := fixed.completing
  refine ⟨⟨y, there, completing_settlements (last.sound i y there).1 completing⟩, same,
    fun j z result replayed apart other succeeds => ?_⟩
  obtain ⟨free, unsuccessful⟩ := fixed.others j z apart other
  rcases last.successes j z result replayed other succeeds with completed | ⟨-, held⟩
  · rcases fixed.record with flight | settled
    · rw [flight] at completed
      cases completed
    · cases settled.symm.trans completed
      cases replayed with
      | true => exact ⟨rfl, rfl⟩
      | false => exact (unsuccessful _ succeeds).elim
  · rw [free] at held
    cases held

end

/-! ### A completed and a forgotten operation -/

def sampleInput : ExecutionInput := ⟨sampleRequest, .undefined, none⟩

def sampleKey : Idempotency := ⟨js "idem.1", js "fingerprint.1"⟩

def sampleReturn : List (Execution.Action Nat Nat) := [
  .take (.reserved 7), .answer (.ok ⟨sampleObject [("status", .str (js "reserved"))], some 7, none⟩), .resume false,
  .take (.leased 3), .answer (.ok ⟨sampleObject [("status", .str (js "acquired"))], none, some 3⟩), .resume false,
  .answer (.ok (sampleAnswer [("status", .num (JsNumber.ofNat 200)), ("value", .str (js "done"))]))]

def sampleOperation (i : Nat) : List (KeyedAction Nat Nat) :=
  .execute sampleInput :: (samplePassed ++ sampleReturn).map (.act i)

def sampleCleanup (i : Nat) (released : Except Thrown (Answer Nat Nat)) : List (KeyedAction Nat Nat) :=
  ([.resume false, .answer released, .resume false, .take .settled, .answer (.ok (sampleAnswer [])), .resume false,
    .answer (.ok (sampleAnswer [])), .resume false] : List (Execution.Action Nat Nat)).map (.act i)

def sampleReplay : List (KeyedAction Nat Nat) :=
  .execute sampleInput :: samplePassed.map (.act 1) ++ [.replay 1, .act 1 (.resume false),
    .act 1 (.answer (.ok (sampleAnswer []))), .act 1 (.resume false)]

theorem sample_returned : let _ := sampleUrls
    ∃ x stored, (create.run {} sampleKey (sampleOperation 0)).calls[0]? = some x ∧ x.operationResult = some stored ∧
      x.lifecycle = none := by
  let _ := sampleUrls
  have done : ((create.run {} sampleKey (sampleOperation 0)).calls[0]?).any (fun x =>
      x.operationResult.isSome && x.lifecycle.isNone) = true := by
    decide +kernel
  cases found : (create.run {} sampleKey (sampleOperation 0)).calls[0]? with
  | none =>
    rw [found] at done
    cases done
  | some x =>
    rw [found] at done
    simp only [Option.any_some, Bool.and_eq_true, Option.isNone_iff_eq_none] at done
    obtain ⟨stored, returned⟩ := Option.isSome_iff_exists.mp done.1
    exact ⟨x, stored, found, returned, done.2⟩

theorem completed_once_replayed : let _ := sampleUrls
    ∃ stored, Completed 0 stored (create.run {} sampleKey (sampleOperation 0))
      (create.run {} sampleKey (sampleOperation 0 ++ (sampleCleanup 0 (.ok (sampleAnswer [])) ++ sampleReplay))) := by
  let _ := sampleUrls
  obtain ⟨x, stored, found, returned, live⟩ := sample_returned
  exact ⟨stored, completed_once _ _ found returned live (by decide +kernel)⟩

/-- The lease fails to be released, so the result of the operation is forgotten, and the operation runs again. -/
theorem executed_again : let _ := sampleUrls
    ∃ later : List (KeyedAction Nat Nat),
      let w := create.run {} sampleKey (sampleOperation 0)
      let v := create.run {} sampleKey (sampleOperation 0 ++ later)
      (∃ x stored, w.calls[0]? = some x ∧ x.operationResult = some stored ∧ x.lifecycle = none ∧ ¬Completed 0 stored w v) ∧
        operationsAt w 1 = 0 ∧ operationsAt v 1 = 1 := by
  let _ := sampleUrls
  have before : operationsAt (create.run {} sampleKey (sampleOperation 0)) 1 = 0 := by
    decide +kernel
  have after : operationsAt (create.run {} sampleKey (sampleOperation 0 ++
      (sampleCleanup 0 (.error .other) ++ sampleOperation 1))) 1 = 1 := by
    decide +kernel
  obtain ⟨x, stored, found, returned, live⟩ := sample_returned
  refine ⟨sampleCleanup 0 (.error .other) ++ sampleOperation 1, ⟨x, stored, found, returned, live, fun completed => ?_⟩,
    before, after⟩
  have same := completed.operations 1 (by decide)
  rw [before, after] at same
  cases same

end Handrail.Server.KeyedRequests

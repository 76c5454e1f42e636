import Handrail.Concurrent.Named
import Handrail.Js.Arrays
import Handrail.Server.KeyedRequests
import Handrail.Server.Protection

/-!
# Who holds the key

A call holds the key from the reservation to the settlement. One call holds it at a time, and only a call that holds it
calls the operation, so a completed result is the only one that is ever replayed.
-/

namespace Handrail.Server.Execution
open Js Concurrent KeyedRequests

variable {T L : Type} {x y : Execution T L}

/-! ### What a call relies on -/

def Secured (x : Execution T L) : Prop :=
  match x.phase with
  | .awaiting call => (unreserved call = false → x.reservation.isSome = true) ∧ (unleased call = false → x.lease.isSome = true)
  | .releasing .. => x.reservation.isSome = true
  | .settling settlement result => settlement.status = result.settlement ∧
      ∀ answer, x.run.outcome = some (.ok answer) → x.run.effect = some .settled
  | _ => True

theorem secured_settle (result : ProtectedResult) : (x.settle result).Secured := by
  unfold settle
  split
  · exact ⟨rfl, fun answer answered => by cases answered⟩
  · trivial

theorem secured_cleanup (backed : x.lease.isSome = true → x.reservation.isSome = true) (result : ProtectedResult) :
    (x.cleanup result).Secured := by
  unfold cleanup
  split
  · rename_i lease held
    exact backed (by rw [held]; rfl)
  · exact secured_settle result

theorem secured_caught (backed : x.lease.isSome = true → x.reservation.isSome = true) (error : Thrown) :
    (x.caught error).Secured :=
  secured_cleanup (x := { x with terminal := { x.terminal with outcome := .error (x.publicCodeForThrown error) } }) backed _

variable {call : ProtectedCall}

theorem secured_enter (backed : x.lease.isSome = true → x.reservation.isSome = true)
    (reserved : unreserved call = false → x.reservation.isSome = true) (leased : unleased call = false → x.lease.isSome = true)
    (stage : TerminalStage) : (x.enter stage call).Secured := by
  unfold enter
  dsimp only
  split
  · exact secured_caught (x := { x with terminal := { x.terminal with stage } }) backed .other
  · exact ⟨reserved, leased⟩

theorem backed_of_secured (booked : x.Booked) (secured : x.Secured) (phase : x.phase = .awaiting call)
    (held : x.lease.isSome = true) : x.reservation.isSome = true := by
  unfold Booked at booked
  unfold Secured at secured
  rw [phase] at booked secured
  cases call with
  | operation context => exact secured.1 rfl
  | _ =>
    rw [booked.2.2.2.2 rfl] at held
    cases held

theorem secured_receive (backed : x.lease.isSome = true → x.reservation.isSome = true)
    (reserved : unreserved call = false → x.reservation.isSome = true) (answer : Answer T L) :
    (x.receive answer call).Secured := by
  cases call with
  | validateOrigin request | authorize context | checkRateLimit context =>
    unfold receive
    dsimp only
    split
    · exact secured_caught backed .other
    · trivial
    · refine secured_enter ?_ ?_ ?_ _
      · exact backed
      · intro late
        cases late
      · intro late
        cases late
  | authenticate request =>
    unfold receive
    dsimp only
    split
    · exact secured_caught backed .other
    · trivial
    · refine secured_enter ?_ ?_ ?_ _
      · exact backed
      · intro late
        cases late
      · intro late
        cases late
  | reserveIdempotency context =>
    unfold receive
    dsimp only
    split
    · exact secured_caught backed .other
    · split
      · exact secured_caught backed .other
      · trivial
    · trivial
    · trivial
    · refine secured_enter ?_ ?_ ?_ _
      · exact fun _ => rfl
      · exact fun _ => rfl
      · intro late
        cases late
  | acquireConcurrency context =>
    unfold receive
    dsimp only
    split
    · exact secured_caught backed .other
    · refine secured_cleanup ?_ _
      exact backed
    · refine secured_enter ?_ ?_ ?_ _
      · exact fun _ => reserved rfl
      · exact fun _ => reserved rfl
      · exact fun _ => rfl
  | operation context =>
    unfold receive
    dsimp only
    split
    · exact secured_caught backed .other
    · split
      · exact secured_caught backed .other
      · refine secured_cleanup ?_ _
        exact backed

/-! ### The holder -/

theorem holds_settle (result : ProtectedResult) : (x.settle result).holds = x.reservation.isSome := by
  unfold settle
  split
  · rename_i made held
    rw [held]
    rfl
  · rename_i free
    rw [free]
    rfl

theorem holds_cleanup (result : ProtectedResult) : (x.cleanup result).holds = x.reservation.isSome := by
  unfold cleanup
  split
  · rfl
  · exact holds_settle result

theorem holds_caught (error : Thrown) : (x.caught error).holds = x.reservation.isSome :=
  holds_cleanup (x := { x with terminal := { x.terminal with outcome := .error (x.publicCodeForThrown error) } }) _

theorem holds_enter (stage : TerminalStage) (call : ProtectedCall) : (x.enter stage call).holds = x.reservation.isSome := by
  unfold enter
  dsimp only
  split
  · exact holds_caught (x := { x with terminal := { x.terminal with stage } }) .other
  · exact Bool.or_false _

theorem holds_receive {answer : Answer T L} (held : (x.receive answer call).holds = true) :
    x.reservation.isSome = true ∨ ∃ reservation, named answer call = some (.reserved reservation) := by
  cases call with
  | validateOrigin | authorize | checkRateLimit =>
    unfold receive at held
    dsimp only at held
    split at held
    · rw [holds_caught] at held
      exact .inl held
    · cases held
    · rw [holds_enter] at held
      exact .inl held
  | authenticate =>
    unfold receive at held
    dsimp only at held
    split at held
    · rw [holds_caught] at held
      exact .inl held
    · cases held
    · rw [holds_enter] at held
      exact .inl held
  | reserveIdempotency =>
    unfold receive at held
    unfold named
    dsimp only at held ⊢
    split at held
    · rw [holds_caught] at held
      exact .inl held
    · split at held
      · rw [holds_caught] at held
        exact .inl held
      · cases held
    · cases held
    · cases held
    · rename_i made decided
      rw [decided]
      exact .inr ⟨made, rfl⟩
  | acquireConcurrency =>
    unfold receive at held
    dsimp only at held
    split at held
    · rw [holds_caught] at held
      exact .inl held
    · rw [holds_cleanup] at held
      exact .inl held
    · rw [holds_enter] at held
      exact .inl held
  | operation =>
    unfold receive at held
    dsimp only at held
    split at held
    · rw [holds_caught] at held
      exact .inl held
    · split at held
      · rw [holds_caught] at held
        exact .inl held
      · rw [holds_cleanup] at held
        exact .inl held

theorem holds_of_reservation (phase : x.phase = .awaiting call) (held : x.reservation.isSome = true) :
    x.holds = true := by
  rw [holds, phase, held]
  rfl

/-! ### Results -/

theorem result_settle (result : ProtectedResult) : (x.settle result).result = some result := by
  unfold settle
  split <;> rfl

theorem result_cleanup (result : ProtectedResult) : (x.cleanup result).result = some result := by
  unfold cleanup
  split
  · rfl
  · exact result_settle result

theorem result_caught (error : Thrown) : (x.caught error).result = some (.failed (x.publicCodeForThrown error)) :=
  result_cleanup _

theorem result_enter (stage : TerminalStage) (call : ProtectedCall) (stored : StoredResult) (replayed : Bool) :
    (x.enter stage call).result ≠ some (.success stored replayed) := by
  unfold enter
  dsimp only
  split
  · rw [result_caught]
    intro same
    cases same
  · intro same
    cases same

/-- A call succeeds with a result that the host replays or that its operation returned. -/
theorem result_receive {answer : Answer T L} {stored : StoredResult} {replayed : Bool}
    (succeeds : (x.receive answer call).result = some (.success stored replayed)) :
    (replayed = true ∧ (∃ context, call = .reserveIdempotency context) ∧
      ∃ value, isIdempotencyDecision answer = some (.replay value) ∧ cloneStoredResult value = some stored) ∨
    (replayed = false ∧ (∃ context, call = .operation context) ∧ cloneStoredResult answer.value = some stored ∧
      (x.receive answer call).holds = x.reservation.isSome) := by
  cases call with
  | validateOrigin | authorize | checkRateLimit =>
    unfold receive at succeeds
    dsimp only at succeeds
    split at succeeds
    · rw [result_caught] at succeeds
      cases succeeds
    · cases succeeds
    · exact (result_enter _ _ _ _ succeeds).elim
  | authenticate =>
    unfold receive at succeeds
    dsimp only at succeeds
    split at succeeds
    · rw [result_caught] at succeeds
      cases succeeds
    · cases succeeds
    · exact (result_enter _ _ _ _ succeeds).elim
  | reserveIdempotency context =>
    unfold receive at succeeds
    dsimp only at succeeds
    split at succeeds
    · rw [result_caught] at succeeds
      cases succeeds
    · rename_i value decided
      split at succeeds
      · rw [result_caught] at succeeds
        cases succeeds
      · rename_i result cloned
        cases succeeds
        exact .inl ⟨rfl, ⟨context, rfl⟩, value, decided, cloned⟩
    · cases succeeds
    · cases succeeds
    · exact (result_enter _ _ _ _ succeeds).elim
  | acquireConcurrency =>
    unfold receive at succeeds
    dsimp only at succeeds
    split at succeeds
    · rw [result_caught] at succeeds
      cases succeeds
    · rw [result_cleanup] at succeeds
      cases succeeds
    · exact (result_enter _ _ _ _ succeeds).elim
  | operation context =>
    unfold receive at succeeds
    dsimp only at succeeds
    split at succeeds
    · rw [result_caught] at succeeds
      cases succeeds
    · rename_i result cloned
      split at succeeds
      · rw [result_caught] at succeeds
        cases succeeds
      · rename_i live
        rw [result_cleanup] at succeeds
        cases succeeds
        refine .inr ⟨rfl, ⟨context, rfl⟩, cloned, ?_⟩
        unfold receive
        dsimp only
        rw [cloned]
        dsimp only
        rw [if_neg live, holds_cleanup]

variable [DecidableEq T] [DecidableEq L] {record : KeyRecord}

theorem secured_move {action : Action T L} (booked : x.Booked) (secured : x.Secured) (lets : Lets record x action)
    (move : Move x action y) : y.Secured := by
  cases move with
  | stay | abort => exact secured
  | take effect allowed =>
    unfold Secured at secured ⊢
    dsimp only [Execution.record] at secured ⊢
    split
    · rename_i call phase
      rw [phase] at secured
      exact secured
    · rename_i phase
      rw [phase] at secured
      exact secured
    · rename_i settlement result phase
      rw [phase] at secured
      refine ⟨secured.1, fun answer answered => ?_⟩
      unfold allows at allowed
      simp only [Bool.and_eq_true, Option.isNone_iff_eq_none] at allowed
      rw [allowed.1.2] at answered
      cases answered
    · trivial
  | answer outcome open_ going live truthful =>
    unfold Secured at secured ⊢
    dsimp only at secured ⊢
    split
    · rename_i call phase
      rw [phase] at secured
      exact secured
    · rename_i phase
      rw [phase] at secured
      exact secured
    · rename_i settlement result phase
      rw [phase] at secured
      refine ⟨secured.1, fun answer answered => ?_⟩
      cases answered
      exact lets.settled answer settlement result rfl phase
    · trivial
  | overtaken late call phase => exact secured_caught (backed_of_secured booked secured phase) .other
  | proceed late outcome answered =>
    unfold proceed
    split
    · rename_i call phase
      cases outcome with
      | error error => exact secured_caught (backed_of_secured booked secured phase) error
      | ok answer =>
        have backed := backed_of_secured booked secured phase
        unfold Secured at secured
        rw [phase] at secured
        exact secured_receive (x := x.record (.received answer)) backed secured.1 answer
    · cases outcome with
      | error error => exact secured_settle (x := x.cleanupFailed) _
      | ok answer => exact secured_settle _
    · cases outcome with
      | error error => trivial
      | ok answer => trivial
    · trivial
    · exact secured

theorem holds_move {action : Action T L} (sound : x.Sound) (secured : x.Secured) (move : Move x action y)
    (held : y.holds = true) : x.holds = true ∨ ∃ reservation, action = .take (.reserved reservation) ∧
      x.allows (.reserved reservation) = true := by
  cases move with
  | stay | abort | answer => exact .inl held
  | take effect allowed =>
    cases effect with
    | reserved reservation => exact .inr ⟨reservation, rfl, allowed⟩
    | leased lease =>
      obtain ⟨context, phase⟩ := phase_leased (apt_of_allows allowed)
      unfold holds at held
      dsimp only [Execution.record] at held
      rw [phase] at held
      exact .inl (holds_of_reservation phase (by simpa using held))
    | settled =>
      obtain ⟨settlement, result, phase⟩ := phase_settled (apt_of_allows allowed)
      unfold holds at held
      dsimp only [Execution.record] at held
      rw [phase] at held
      cases held
  | overtaken late call phase =>
    rw [holds_caught] at held
    exact .inl (holds_of_reservation phase held)
  | proceed late outcome answered =>
    left
    unfold proceed at held
    split at held
    · rename_i call phase
      cases outcome with
      | error error =>
        rw [holds_caught] at held
        exact holds_of_reservation phase held
      | ok answer =>
        rcases holds_receive held with held | ⟨reservation, names⟩
        · exact holds_of_reservation phase held
        · have own := sound.answer _ answered
          simp only [truthful, phase, names, Option.isNone_some, Bool.false_or, decide_eq_true_eq] at own
          simp [holds, phase, ← own]
    · rename_i lease result phase
      unfold Secured at secured
      rw [phase] at secured
      rw [holds, phase]
      exact secured
    · cases outcome <;> cases held
    · cases held
    · exact held

theorem result_move {action : Action T L} (move : Move x action y) {stored : StoredResult} {replayed : Bool}
    (succeeds : y.result = some (.success stored replayed)) :
    x.result = some (.success stored replayed) ∨
      (replayed = true ∧ ∃ answer value, x.run.outcome = some (.ok answer) ∧ x.replayed answer = some value ∧
        cloneStoredResult value = some stored) ∨
      (replayed = false ∧ x.operationResult = some stored ∧ y.holds = x.reservation.isSome) := by
  cases move with
  | stay | abort | take | answer => exact .inl succeeds
  | overtaken =>
    rw [result_caught] at succeeds
    cases succeeds
  | proceed late outcome answered =>
    unfold proceed at succeeds
    split at succeeds
    · rename_i call phase
      right
      cases outcome with
      | error error =>
        rw [result_caught] at succeeds
        cases succeeds
      | ok answer =>
        rcases result_receive succeeds with ⟨again, ⟨context, reserving⟩, value, decided, cloned⟩ |
          ⟨first, ⟨context, operating⟩, cloned, held⟩
        · refine .inl ⟨again, answer, value, answered, ?_, cloned⟩
          rw [Execution.replayed, phase, reserving]
          dsimp only
          rw [decided]
        · refine .inr ⟨first, ?_, ?_⟩
          · rw [operationResult, phase, operating, answered]
            exact cloned
          · unfold proceed
            rw [phase]
            exact held
    · rename_i lease result phase
      left
      rw [Execution.result, phase]
      cases outcome with
      | error error =>
        rw [result_settle] at succeeds
        cases succeeds
      | ok answer =>
        rw [result_settle] at succeeds
        exact succeeds
    · rename_i settlement result phase
      left
      rw [Execution.result, phase]
      cases outcome with
      | error error => cases succeeds
      | ok answer => exact succeeds
    · rename_i record result phase
      left
      rw [Execution.result, phase]
      exact succeeds
    · exact .inl succeeds

end Handrail.Server.Execution

namespace Handrail.Server.KeyedRequests
open Js Concurrent Execution

variable {T L : Type} {w : KeyedRequests T L} {x y : Execution T L}

/-! ### The key and its holder -/

theorem holds_settling {settlement : Settlement T} {result : ProtectedResult} (phase : x.phase = .settling settlement result)
    (pending : x.run.effect = none) : x.holds = true := by
  rw [holds, phase, pending]
  rfl

theorem recordAfter_cases (record : KeyRecord) (action : Execution.Action T L) :
    recordAfter record x action = record ∨
      (∃ reservation, action = .take (.reserved reservation) ∧ recordAfter record x action = .inFlight) ∨
      (∃ settlement result, action = .take .settled ∧ x.allows .settled = true ∧ x.phase = .settling settlement result ∧
        x.holds = true ∧ recordAfter record x action = settlement.status.keyRecord) := by
  cases action with
  | take effect =>
    by_cases allowed : x.allows effect = true
    · cases effect with
      | reserved reservation => exact .inr (.inl ⟨reservation, rfl, by simp [recordAfter, allowed]⟩)
      | leased lease => exact .inl (by simp [recordAfter])
      | settled =>
        obtain ⟨settlement, result, phase⟩ := phase_settled (apt_of_allows allowed)
        have pending : x.run.effect = none := by
          unfold allows at allowed
          simp only [Bool.and_eq_true, Option.isNone_iff_eq_none] at allowed
          exact allowed.1.1
        exact .inr (.inr ⟨settlement, result, rfl, allowed, phase, holds_settling phase pending,
          by simp [recordAfter, allowed, phase]⟩)
    · exact .inl (by simp [recordAfter, allowed])
  | _ => exact .inl rfl

theorem recordAfter_take (record : KeyRecord) {reservation : T} (allowed : x.allows (.reserved reservation) = true) :
    recordAfter record x (.take (.reserved reservation)) = .inFlight := by
  simp [recordAfter, allowed]

theorem holds_of_operationResult (secured : x.Secured) {stored : StoredResult} (returned : x.operationResult = some stored) :
    x.holds = true := by
  unfold operationResult at returned
  split at returned
  · rename_i context answer phase answered
    unfold Secured at secured
    rw [phase] at secured
    exact holds_of_reservation phase (secured.1 rfl)
  · cases returned

variable [DecidableEq T] [DecidableEq L]

structure Exclusive (w : KeyedRequests T L) : Prop where
  sound : ∀ (i : Nat) (x : Execution T L), w.calls[i]? = some x → x.Booked ∧ x.Sound ∧ x.Secured
  alone : ∀ (i j : Nat) (x y : Execution T L), w.calls[i]? = some x → w.calls[j]? = some y → x.holds = true →
    y.holds = true → i = j
  inFlight : ∀ (i : Nat) (x : Execution T L), w.calls[i]? = some x → x.holds = true → w.record = .inFlight
  replays : ∀ (i : Nat) (x : Execution T L) (answer : Answer T L) (value : JsValue), w.calls[i]? = some x →
    x.run.outcome = some (.ok answer) → x.replayed answer = some value →
      ∃ result, w.record = .completed result ∧ value = result.toValue
  successes : ∀ (i : Nat) (x : Execution T L) (stored : StoredResult) (replayed : Bool), w.calls[i]? = some x →
    x.result = some (.success stored replayed) → w.record = .completed stored ∨ replayed = false ∧ x.holds = true

theorem Exclusive.completed (exclusive : w.Exclusive) {i : Nat} (found : w.calls[i]? = some x) {action : Execution.Action T L}
    (lets : Lets w.record x action) {result : StoredResult} (completed : w.record = .completed result) :
    recordAfter w.record x action = .completed result := by
  rcases recordAfter_cases (x := x) w.record action with same | ⟨reservation, reserves, -⟩ | ⟨_, _, -, -, -, held, -⟩
  · rw [same, completed]
  · rcases lets.free reservation reserves with absent | failed
    · rw [completed] at absent
      cases absent
    · rw [completed] at failed
      cases failed
  · rw [exclusive.inFlight i x found held] at completed
    cases completed

theorem Exclusive.held (exclusive : w.Exclusive) {i j : Nat} (found : w.calls[i]? = some x)
    (action : Execution.Action T L) (other : w.calls[j]? = some y) (held : y.holds = true) (apart : i ≠ j) :
    recordAfter w.record x action = .inFlight := by
  have flight := exclusive.inFlight j y other held
  rcases recordAfter_cases (x := x) w.record action with same | ⟨reservation, -, reserved⟩ | ⟨_, _, -, -, -, holder, -⟩
  · rw [same, flight]
  · exact reserved
  · exact (apart (exclusive.alone i j x y found other holder held)).elim

theorem holds_settled (allowed : x.allows .settled = true) : (x.step (.take .settled)).holds = false := by
  obtain ⟨settlement, result, phase⟩ := phase_settled (apt_of_allows allowed)
  have stepped : x.step (.take .settled) =
      { x.record (.took .settled) with run := { x.run with effect := some .settled } } := if_pos allowed
  rw [stepped]
  unfold holds
  dsimp only [Execution.record]
  rw [phase]
  rfl

theorem Exclusive.replays_step (exclusive : w.Exclusive) {i : Nat} (found : w.calls[i]? = some x) {action : Execution.Action T L}
    (lets : Lets w.record x action) (move : Move x action y) {answer : Answer T L} {value : JsValue}
    (answered : y.run.outcome = some (.ok answer)) (replays : y.replayed answer = some value) :
    ∃ result, w.record = .completed result ∧ value = result.toValue := by
  cases move with
  | stay | abort | take => exact exclusive.replays i x answer value found answered replays
  | answer outcome =>
    cases answered
    exact lets.stored answer value rfl replays
  | overtaken =>
    rw [(sameHoldings_caught .other).2.2.2.2] at answered
    cases answered
  | proceed late outcome =>
    rcases run_proceed (x := x) outcome with fresh | ⟨record, result, phase, same⟩ | ⟨-, same⟩
    · rw [fresh] at answered
      cases answered
    · rw [same] at replays
      cases replays
    · rw [same] at answered replays
      exact exclusive.replays i x answer value found answered replays

omit [DecidableEq T] [DecidableEq L] in
theorem left_of_result {result : ProtectedResult} (left : x.result = some result) {call : ProtectedCall} :
    x.phase ≠ .awaiting call := by
  intro phase
  rw [Execution.result, phase] at left
  cases left

omit [DecidableEq T] [DecidableEq L] in
theorem holds_proceed (secured : x.Secured) {stored : StoredResult} {replayed : Bool}
    (before : x.result = some (.success stored replayed)) (held : x.holds = true) {outcome : Except Thrown (Answer T L)}
    (answered : x.run.outcome = some outcome) (after : (x.proceed outcome).result = some (.success stored replayed)) :
    (x.proceed outcome).holds = true := by
  unfold proceed at after ⊢
  unfold Secured at secured
  unfold holds at held
  split
  · rename_i call phase
    exact (left_of_result before phase).elim
  · rename_i lease result phase
    rw [phase] at secured
    cases outcome with
    | error error => exact (holds_settle (x := x.cleanupFailed) _).trans secured
    | ok answer => exact (holds_settle _).trans secured
  · rename_i settlement result phase
    rw [phase] at secured held after
    cases outcome with
    | error error => cases after
    | ok answer =>
      rw [secured.2 answer answered] at held
      cases held
  · rename_i record result phase
    rw [phase] at held
    cases held
  · rename_i result phase
    rw [phase] at held
    cases held

theorem holder_succeeds (secured : x.Secured) (record : KeyRecord) {stored : StoredResult} {replayed : Bool}
    (before : x.result = some (.success stored replayed)) (held : x.holds = true) (action : Execution.Action T L)
    (after : (x.step action).result = some (.success stored replayed)) :
    (x.step action).holds = true ∨ recordAfter record x action = .completed stored := by
  have move := move_step x action
  generalize stepped : x.step action = y at move after
  cases move with
  | stay | abort | answer => exact .inl held
  | take effect allowed =>
    cases effect with
    | reserved =>
      obtain ⟨context, phase⟩ := phase_reserved (apt_of_allows allowed)
      exact (left_of_result before phase).elim
    | leased =>
      obtain ⟨context, phase⟩ := phase_leased (apt_of_allows allowed)
      exact (left_of_result before phase).elim
    | settled =>
      obtain ⟨settlement, result, phase⟩ := phase_settled (apt_of_allows allowed)
      unfold Secured at secured
      rw [phase] at secured
      rw [Execution.result, phase] at before
      right
      simp only [recordAfter, allowed, if_true, phase]
      rw [secured.1, Option.some.inj before]
      rfl
  | overtaken late call phase => exact (left_of_result before phase).elim
  | proceed late outcome answered => exact .inl (holds_proceed secured before held answered after)

theorem exclusive_act (exclusive : w.Exclusive) {i : Nat} (found : w.calls[i]? = some x) {action : Execution.Action T L}
    (lets : Lets w.record x action) :
    Exclusive ⟨recordAfter w.record x action, w.calls.set i (x.step action)⟩ := by
  have move := move_step x action
  obtain ⟨booked, sound, secured⟩ := exclusive.sound i x found
  have next : (x.step action).Booked ∧ (x.step action).Sound ∧ (x.step action).Secured :=
    ⟨booked_move booked move, sound_move sound move, secured_move booked secured lets move⟩
  -- A call comes to hold the key only when nobody does.
  have holder (held : (x.step action).holds = true) : x.holds = true ∨
      (recordAfter w.record x action = .inFlight ∧ ∀ (j : Nat) (z : Execution T L), w.calls[j]? = some z → z.holds = false) := by
    rcases holds_move sound secured move held with before | ⟨reservation, rfl, allowed⟩
    · exact .inl before
    · refine .inr ⟨recordAfter_take w.record allowed, fun j z other => ?_⟩
      by_contra holds
      have flight := exclusive.inFlight j z other (by simpa using holds)
      rcases lets.free reservation rfl with absent | failed
      · rw [flight] at absent
        cases absent
      · rw [flight] at failed
        cases failed
  constructor
  · intro k z at_
    rw [getElem?_set_found found] at at_
    split at at_
    · cases at_
      exact next
    · exact exclusive.sound k z at_
  · intro j k a b atJ atK heldA heldB
    rw [getElem?_set_found found] at atJ atK
    split at atJ
    · cases atJ
      split at atK
      · omega
      · rename_i here other
        rcases holder heldA with before | ⟨-, nobody⟩
        · exact here ▸ exclusive.alone i k x b found atK before heldB
        · rw [nobody k b atK] at heldB
          cases heldB
    · split at atK
      · cases atK
        rename_i other here
        rcases holder heldB with before | ⟨-, nobody⟩
        · exact here ▸ exclusive.alone j i a x atJ found heldA before
        · rw [nobody j a atJ] at heldA
          cases heldA
      · exact exclusive.alone j k a b atJ atK heldA heldB
  · intro k z at_ held
    dsimp only
    rw [getElem?_set_found found] at at_
    split at at_
    · cases at_
      rcases recordAfter_cases (x := x) w.record action with same | ⟨_, -, reserved⟩ | ⟨_, _, rfl, allowed, -⟩
      · rcases holder held with before | ⟨flight, -⟩
        · rw [same, exclusive.inFlight i x found before]
        · exact flight
      · exact reserved
      · rw [holds_settled allowed] at held
        cases held
    · rename_i apart
      exact exclusive.held found action at_ held apart
  · intro k z answer value at_ answered replays
    dsimp only
    rw [getElem?_set_found found] at at_
    split at at_
    · cases at_
      obtain ⟨result, completed, same⟩ := exclusive.replays_step found lets move answered replays
      exact ⟨result, exclusive.completed found lets completed, same⟩
    · obtain ⟨result, completed, same⟩ := exclusive.replays k z answer value at_ answered replays
      exact ⟨result, exclusive.completed found lets completed, same⟩
  · intro k z stored replayed at_ succeeds
    dsimp only
    rw [getElem?_set_found found] at at_
    split at at_
    · cases at_
      rcases result_move move succeeds with before | ⟨rfl, answer, value, answered, replays, cloned⟩ | ⟨rfl, returned, held⟩
      · rcases exclusive.successes i x stored replayed found before with completed | ⟨rfl, held⟩
        · exact .inl (exclusive.completed found lets completed)
        · rcases holder_succeeds secured w.record before held action succeeds with on | completes
          · exact .inr ⟨rfl, on⟩
          · exact .inl completes
      · obtain ⟨result, completed, rfl⟩ := exclusive.replays i x answer value found answered replays
        rw [cloneStoredResult_toValue] at cloned
        cases cloned
        exact .inl (exclusive.completed found lets completed)
      · refine .inr ⟨rfl, ?_⟩
        unfold operationResult at returned
        split at returned
        · rename_i context answer phase answered
          unfold Secured at secured
          rw [phase] at secured
          exact held.trans (secured.1 rfl)
        · cases returned
    · rcases exclusive.successes k z stored replayed at_ succeeds with completed | own
      · exact .inl (exclusive.completed found lets completed)
      · exact .inr own

theorem exclusive_create : (create : KeyedRequests T L).Exclusive where
  sound i x found := by cases found
  alone i j x y found := by cases found
  inFlight i x found := by cases found
  replays i x answer value found := by cases found
  successes i x stored replayed found := by cases found

/-! ### New calls -/

section
variable [UrlPlatform] (options : ProtectionOptions) (input : ExecutionInput)

omit [DecidableEq T] [DecidableEq L] in
theorem holds_execute : (execute options input : Execution T L).holds = false := by
  unfold execute
  dsimp only
  split
  · rfl
  · split
    · split
      · exact holds_caught _
      · exact holds_enter ..
    · rfl

omit [DecidableEq T] [DecidableEq L] in
theorem result_execute (stored : StoredResult) (replayed : Bool) :
    (execute options input : Execution T L).result ≠ some (.success stored replayed) := by
  unfold execute
  dsimp only
  split
  · intro same
    cases same
  · split
    · split
      · rw [result_caught]
        intro same
        cases same
      · exact result_enter _ _ _ _
    · intro same
      cases same

omit [DecidableEq T] [DecidableEq L] in
theorem secured_execute : (execute options input : Execution T L).Secured := by
  unfold execute
  dsimp only
  split
  · trivial
  · split
    · split
      · refine secured_caught ?_ _
        exact id
      · refine secured_enter ?_ ?_ ?_ _
        · exact id
        · intro late
          cases late
        · intro late
          cases late
    · trivial

theorem exclusive_execute (exclusive : w.Exclusive) :
    Exclusive { w with calls := w.calls ++ [(execute options input : Execution T L)] } := by
  have unanswered : (execute options input : Execution T L).run = {} := (sameHoldings_execute options input).2.2.2.2
  constructor
  · intro i x at_
    rcases getElem?_concat_cases at_ with found | ⟨-, rfl⟩
    · exact exclusive.sound i x found
    · exact ⟨booked_execute options input, sound_of_run unanswered, secured_execute options input⟩
  · intro i j x y atI atJ heldI heldJ
    rcases getElem?_concat_cases atI with foundI | ⟨-, rfl⟩
    · rcases getElem?_concat_cases atJ with foundJ | ⟨-, rfl⟩
      · exact exclusive.alone i j x y foundI foundJ heldI heldJ
      · rw [holds_execute] at heldJ
        cases heldJ
    · rw [holds_execute] at heldI
      cases heldI
  · intro i x at_ held
    rcases getElem?_concat_cases at_ with found | ⟨-, rfl⟩
    · exact exclusive.inFlight i x found held
    · rw [holds_execute] at held
      cases held
  · intro i x answer value at_ answered replays
    rcases getElem?_concat_cases at_ with found | ⟨-, rfl⟩
    · exact exclusive.replays i x answer value found answered replays
    · rw [unanswered] at answered
      cases answered
  · intro i x stored replayed at_ succeeds
    rcases getElem?_concat_cases at_ with found | ⟨-, rfl⟩
    · exact exclusive.successes i x stored replayed found succeeds
    · exact (result_execute options input stored replayed succeeds).elim

variable {options}

theorem exclusive_change {label : KeyedAction T L} {v : KeyedRequests T L} (exclusive : w.Exclusive)
    (change : Change options w label v) : v.Exclusive := by
  cases change with
  | stay => exact exclusive
  | execute input => exact exclusive_execute options input exclusive
  | act _ i x action found lets => exact exclusive_act exclusive found lets

end

end Handrail.Server.KeyedRequests

import Handrail.Server.ProtectorHoldings

/-!
# Requests under one key

Calls of `execute` that carry one idempotency key and fingerprint, over the host's record of the key. The host reserves
the key atomically, replays a completed result, and lets a key be reserved again after a failed settlement.
-/

namespace Handrail.Server
open Js

variable {T L : Type}

inductive KeyRecord where
  | absent
  | inFlight
  | completed (result : StoredResult)
  | failed

def SettlementStatus.keyRecord : SettlementStatus → KeyRecord
  | .completed result => .completed result
  | .failed _ => .failed

namespace Execution

/-- The result once the call has left the `try`. -/
def result (x : Execution T L) : Option ProtectedResult :=
  match x.phase with
  | .awaiting _ => none
  | .releasing _ result | .settling _ result | .retaining _ result | .returned result => some result

def operationResult (x : Execution T L) : Option StoredResult :=
  match x.phase, x.run.outcome with
  | .awaiting (.operation _), some (.ok answer) => cloneStoredResult answer.value
  | _, _ => none

def holds (x : Execution T L) : Bool :=
  match x.phase with
  | .awaiting _ =>
    x.reservation.isSome ||
      match x.run.effect with
      | some (.reserved _) => true
      | _ => false
  | .releasing .. => x.reservation.isSome
  | .settling .. => x.run.effect.isNone
  | _ => false

/-- The replay that an answer of `reserveIdempotency` amounts to. -/
def replayed (x : Execution T L) (answer : Answer T L) : Option JsValue :=
  match x.phase with
  | .awaiting (.reserveIdempotency _) =>
    match isIdempotencyDecision answer with
    | some (.replay result) => some result
    | _ => none
  | _ => none

end Execution

structure KeyedRequests (T L : Type) where
  record : KeyRecord
  calls : List (Execution T L)

inductive KeyedAction (T L : Type) where
  | execute (input : ExecutionInput)
  | act (call : Nat) (action : Execution.Action T L)
  /-- `reserveIdempotency` answers with the completed result. -/
  | replay (call : Nat)

/-- `{ status: "replay", result }` -/
def replayAnswer (result : StoredResult) : Answer T L :=
  ⟨.obj [(js "status", .str (js "replay")), (js "result", result.toValue)], none, none⟩

namespace KeyedRequests

def hasSettled (x : Execution T L) : Bool :=
  match x.run.effect with
  | some .settled => true
  | _ => false

/-- The host reserves a free key, replays only by `replay`, and says that it has settled only when it has. -/
def lets (record : KeyRecord) (x : Execution T L) : Execution.Action T L → Bool
  | .take (.reserved _) =>
    match record with
    | .absent | .failed => true
    | _ => false
  | .answer (.ok answer) =>
    (x.replayed answer).isNone &&
      match x.phase with
      | .settling .. => hasSettled x
      | _ => true
  | _ => true

def recordAfter (record : KeyRecord) (x : Execution T L) : Execution.Action T L → KeyRecord
  | .take effect =>
    if x.allows effect then
      match effect, x.phase with
      | .reserved _, _ => .inFlight
      | .settled, .settling settlement _ => settlement.status.keyRecord
      | _, _ => record
    else record
  | _ => record

def isReserving (x : Execution T L) : Bool :=
  match x.phase with
  | .awaiting (.reserveIdempotency _) => true
  | _ => false

def create : KeyedRequests T L := ⟨.absent, []⟩

variable [DecidableEq T] [DecidableEq L] [UrlPlatform] (options : ProtectionOptions) (idempotency : Idempotency)

def carries (input : ExecutionInput) : Bool :=
  match validateRequest options.maximumBodyBytes input.request with
  | .ok request => request.idempotency = idempotency
  | .error _ => true

def step (w : KeyedRequests T L) : KeyedAction T L → KeyedRequests T L
  | .execute input =>
    if carries options idempotency input then { w with calls := w.calls ++ [execute options input] } else w
  | .act i action =>
    match w.calls[i]? with
    | none => w
    | some x =>
      if lets w.record x action then
        { record := recordAfter w.record x action
          calls := w.calls.set i (x.step action) }
      else w
  | .replay i =>
    match w.calls[i]?, w.record with
    | some x, .completed result =>
      if isReserving x then { w with calls := w.calls.set i (x.step (.answer (.ok (replayAnswer result)))) } else w
    | _, _ => w

def run (w : KeyedRequests T L) (actions : List (KeyedAction T L)) : KeyedRequests T L :=
  actions.foldl (step options idempotency) w

/-! ### What one step does -/

omit [DecidableEq T] [DecidableEq L] [UrlPlatform] in
theorem isIdempotencyDecision_replayAnswer (result : StoredResult) :
    isIdempotencyDecision (replayAnswer result : Answer T L) = some (.replay result.toValue) := rfl

structure Lets (record : KeyRecord) (x : Execution T L) (action : Execution.Action T L) : Prop where
  free : ∀ reservation, action = .take (.reserved reservation) → record = .absent ∨ record = .failed
  stored : ∀ answer value, action = .answer (.ok answer) → x.replayed answer = some value →
    ∃ result, record = .completed result ∧ value = result.toValue
  settled : ∀ answer settlement result, action = .answer (.ok answer) → x.phase = .settling settlement result →
    x.run.effect = some .settled

/-- A call whose operation has returned a valid result is not aborted before it goes on, and its lease is released
without a failure. -/
def undisturbed (x : Execution T L) : Execution.Action T L → Bool
  | .abort _ => x.operationResult.isNone
  | .answer (.error _) =>
    match x.phase with
    | .releasing _ (.success ..) => false
    | _ => true
  | _ => true

def meets (w : KeyedRequests T L) : KeyedAction T L → Bool
  | .act i action => (w.calls[i]?).all fun x => undisturbed x action
  | _ => true

inductive Change (w : KeyedRequests T L) : KeyedAction T L → KeyedRequests T L → Prop
  | stay (label) : Change w label w
  | execute (input) : Change w (.execute input) { w with calls := w.calls ++ [Server.execute options input] }
  | act (label i x action) (found : w.calls[i]? = some x) (lets : Lets w.record x action)
    (met : meets w label = true → undisturbed x action = true) :
    Change w label { record := recordAfter w.record x action, calls := w.calls.set i (x.step action) }

omit [DecidableEq T] [DecidableEq L] [UrlPlatform] in
theorem lets_iff {record : KeyRecord} {x : Execution T L} {action : Execution.Action T L}
    (allowed : lets record x action = true) :
    Lets record x action where
  free reservation same := by
    rw [same] at allowed
    unfold lets at allowed
    cases record with
    | absent => exact .inl rfl
    | failed => exact .inr rfl
    | _ => cases allowed
  stored answer value same replays := by
    rw [same, lets, replays] at allowed
    cases allowed
  settled answer settlement result same phase := by
    rw [same, lets, phase, Bool.and_eq_true] at allowed
    have answered : hasSettled x = true := allowed.2
    unfold hasSettled at answered
    split at answered
    · rename_i settled
      exact settled
    · cases answered

variable {options idempotency}

theorem change_step (w : KeyedRequests T L) (label : KeyedAction T L) :
    Change options w label (w.step options idempotency label) := by
  cases label with
  | execute input =>
    unfold step
    dsimp only
    split
    · exact .execute input
    · exact .stay _
  | act i action =>
    unfold step
    dsimp only
    split
    · exact .stay _
    · rename_i x found
      split
      · rename_i allowed
        refine .act _ i x action found (lets_iff allowed) fun met => ?_
        simpa [meets, found] using met
      · exact .stay _
  | replay i =>
    unfold step
    dsimp only
    split
    · rename_i x result found completed
      split
      · rename_i reserving
        have lets : Lets w.record x (.answer (.ok (replayAnswer result))) := {
          free reservation same := by cases same
          stored answer value same replays := by
            cases same
            refine ⟨result, completed, ?_⟩
            unfold Execution.replayed at replays
            split at replays
            · rw [isIdempotencyDecision_replayAnswer] at replays
              exact (Option.some.inj replays).symm
            · cases replays
          settled answer settlement other same phase := by
            unfold isReserving at reserving
            rw [phase] at reserving
            cases reserving }
        exact .act _ i x (.answer (.ok (replayAnswer result))) found lets fun _ => rfl
      · exact .stay _
    · exact .stay _

end KeyedRequests

end Handrail.Server

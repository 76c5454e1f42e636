import Handrail.Server.RequestProtector

/-!
# What a protected request owes

The reservations and leases that the hooks committed during a call, and those that the call gave back. The bookkeeping is
right at every await: what is settled or released is what the call holds, and the retained outcome is that of the result.
-/

namespace Handrail.Server

variable {T L : Type}

def ProtectedResult.outcome : ProtectedResult → TerminalOutcome
  | .success _ false => .success
  | .success _ true => .replay
  | .failure error => .error error.code

namespace ExecutionEvent

def reservation : ExecutionEvent T L → Option T
  | .took (.reserved reservation) => some reservation
  | _ => none

def lease : ExecutionEvent T L → Option L
  | .took (.leased lease) => some lease
  | _ => none

def settlement : ExecutionEvent T L → Option (Settlement T)
  | .called (.settleIdempotency settlement) => some settlement
  | _ => none

def released : ExecutionEvent T L → Option L
  | .called (.releaseConcurrency lease) => some lease
  | _ => none

def retained : ExecutionEvent T L → Option TerminalRecord
  | .called (.retainTerminal record) => some record
  | _ => none

end ExecutionEvent

namespace Execution

def reservations (x : Execution T L) : List T := x.history.filterMap ExecutionEvent.reservation

def leases (x : Execution T L) : List L := x.history.filterMap ExecutionEvent.lease

def settlements (x : Execution T L) : List (Settlement T) := x.history.filterMap ExecutionEvent.settlement

def releases (x : Execution T L) : List L := x.history.filterMap ExecutionEvent.released

def retained (x : Execution T L) : List TerminalRecord := x.history.filterMap ExecutionEvent.retained

/-- The calls up to the one that reserves come before there is a reservation, and those up to the one that acquires before
there is a lease. -/
def unreserved : ProtectedCall → Bool
  | .acquireConcurrency _ | .operation _ => false
  | _ => true

def unleased : ProtectedCall → Bool
  | .operation _ => false
  | _ => true

def Booked (x : Execution T L) : Prop :=
  match x.phase with
  | .awaiting call => x.releases = [] ∧ x.settlements = [] ∧ x.retained = [] ∧
      (unreserved call = true → x.reservation = none) ∧ (unleased call = true → x.lease = none)
  | .releasing lease result => x.releases = [lease] ∧ x.settlements = [] ∧ x.retained = [] ∧ x.lease = some lease ∧
      x.terminal.outcome = result.outcome
  | .settling settlement result => x.releases = x.lease.toList ∧ x.settlements = [settlement] ∧ x.retained = [] ∧
      x.reservation = some settlement.reservation ∧ x.terminal.outcome = result.outcome
  | .retaining record result => x.releases = x.lease.toList ∧
      x.settlements.map Settlement.reservation = x.reservation.toList ∧ x.retained = [record] ∧
      record.outcome = result.outcome
  | .returned result => x.releases = x.lease.toList ∧
      x.settlements.map Settlement.reservation = x.reservation.toList ∧
      ∃ record, x.retained = [record] ∧ record.outcome = result.outcome

variable {x : Execution T L}

variable {result : ProtectedResult}

theorem booked_retain (releases : x.releases = x.lease.toList)
    (settlements : x.settlements.map Settlement.reservation = x.reservation.toList) (retained : x.retained = [])
    (outcome : x.terminal.outcome = result.outcome) : (x.retain result).Booked := by
  refine ⟨?_, ?_, ?_, outcome⟩
  · rw [← show x.lease = (x.retain result).lease from rfl, ← releases]
    exact (List.filterMap_append ..).trans (List.append_nil _)
  · rw [← show x.reservation = (x.retain result).reservation from rfl, ← settlements]
    exact congrArg _ ((List.filterMap_append ..).trans (List.append_nil _))
  · refine (List.filterMap_append ..).trans ?_
    rw [show x.history.filterMap ExecutionEvent.retained = [] from retained]
    rfl

theorem booked_settle (releases : x.releases = x.lease.toList) (settlements : x.settlements = [])
    (retained : x.retained = []) (outcome : x.terminal.outcome = result.outcome) : (x.settle result).Booked := by
  unfold settle
  split
  · rename_i reservation held
    refine ⟨?_, ?_, ?_, held, outcome⟩
    · exact ((List.filterMap_append ..).trans (List.append_nil _)).trans releases
    · refine (List.filterMap_append ..).trans ?_
      rw [show x.history.filterMap ExecutionEvent.settlement = [] from settlements]
      rfl
    · exact ((List.filterMap_append ..).trans (List.append_nil _)).trans retained
  · rename_i free
    exact booked_retain releases (by rw [settlements, free]; rfl) retained outcome

structure Unended (x : Execution T L) : Prop where
  releases : x.releases = []
  settlements : x.settlements = []
  retained : x.retained = []

theorem booked_cleanup (unended : x.Unended) (outcome : x.terminal.outcome = result.outcome) :
    (x.cleanup result).Booked := by
  unfold cleanup
  split
  · rename_i lease held
    refine ⟨?_, ?_, ?_, held, outcome⟩
    · refine (List.filterMap_append ..).trans ?_
      rw [show x.history.filterMap ExecutionEvent.released = [] from unended.releases]
      rfl
    · exact ((List.filterMap_append ..).trans (List.append_nil _)).trans unended.settlements
    · exact ((List.filterMap_append ..).trans (List.append_nil _)).trans unended.retained
  · rename_i free
    exact booked_settle (by rw [unended.releases, free]; rfl) unended.settlements unended.retained outcome

theorem booked_caught (unended : x.Unended) (error : Thrown) : (x.caught error).Booked :=
  booked_cleanup ⟨unended.releases, unended.settlements, unended.retained⟩ rfl

theorem booked_decline (unended : x.Unended) (unreserved : x.reservation = none) (unleased : x.lease = none)
    {outcome : TerminalOutcome} (same : outcome = result.outcome) :
    (x.decline outcome result).Booked := by
  refine booked_retain ?_ ?_ unended.retained same
  · exact unended.releases.trans (by rw [show _ = x.lease from rfl, unleased]; rfl)
  · refine (congrArg _ unended.settlements).trans ?_
    rw [show _ = x.reservation from rfl, unreserved]
    rfl

theorem booked_enter (unended : x.Unended) {call : ProtectedCall} (reservation : unreserved call = true → x.reservation = none)
    (lease : unleased call = true → x.lease = none) (stage : TerminalStage) : (x.enter stage call).Booked := by
  unfold enter
  dsimp only
  split
  · exact booked_caught (x := { x with terminal := { x.terminal with stage } })
      ⟨unended.releases, unended.settlements, unended.retained⟩ .other
  · refine ⟨?_, ?_, ?_, reservation, lease⟩
    · exact ((List.filterMap_append ..).trans (List.append_nil _)).trans unended.releases
    · exact ((List.filterMap_append ..).trans (List.append_nil _)).trans unended.settlements
    · exact ((List.filterMap_append ..).trans (List.append_nil _)).trans unended.retained

theorem Unended.record (unended : x.Unended) {event : ExecutionEvent T L} (released : event.released = none)
    (settlement : event.settlement = none) (retained : event.retained = none) : (x.record event).Unended where
  releases := (List.filterMap_append ..).trans (by
    rw [show x.history.filterMap ExecutionEvent.released = [] from unended.releases, List.filterMap_cons, released]
    rfl)
  settlements := (List.filterMap_append ..).trans (by
    rw [show x.history.filterMap ExecutionEvent.settlement = [] from unended.settlements, List.filterMap_cons, settlement]
    rfl)
  retained := (List.filterMap_append ..).trans (by
    rw [show x.history.filterMap ExecutionEvent.retained = [] from unended.retained, List.filterMap_cons, retained]
    rfl)

theorem booked_receive (unended : x.Unended) {call : ProtectedCall} (reservation : unreserved call = true → x.reservation = none)
    (lease : unleased call = true → x.lease = none) (answer : Answer T L) : (x.receive answer call).Booked := by
  cases call with
  | validateOrigin request | authorize context =>
    unfold receive
    dsimp only
    split
    · exact booked_caught unended .other
    · exact booked_decline unended (reservation rfl) (lease rfl) rfl
    · exact booked_enter unended (fun _ => reservation rfl) (fun _ => lease rfl) _
  | authenticate request =>
    unfold receive
    dsimp only
    split
    · exact booked_caught unended .other
    · exact booked_decline unended (reservation rfl) (lease rfl) rfl
    · rename_i principal decided
      exact booked_enter (x := { x with terminal := { x.terminal with principalId := some principal.descriptor.id } })
        ⟨unended.releases, unended.settlements, unended.retained⟩ (fun _ => reservation rfl) (fun _ => lease rfl) _
  | checkRateLimit context =>
    unfold receive
    dsimp only
    split
    · exact booked_caught unended .other
    · exact booked_decline unended (reservation rfl) (lease rfl) rfl
    · exact booked_enter unended (fun _ => reservation rfl) (fun _ => lease rfl) _
  | reserveIdempotency context =>
    unfold receive
    dsimp only
    split
    · exact booked_caught unended .other
    · split
      · exact booked_caught unended .other
      · exact booked_decline unended (reservation rfl) (lease rfl) rfl
    · exact booked_decline unended (reservation rfl) (lease rfl) rfl
    · exact booked_decline unended (reservation rfl) (lease rfl) rfl
    · rename_i made decided
      exact booked_enter (x := { x with reservation := some made })
        ⟨unended.releases, unended.settlements, unended.retained⟩ (fun early => by cases early) (fun _ => lease rfl) _
  | acquireConcurrency context =>
    unfold receive
    dsimp only
    split
    · exact booked_caught unended .other
    · exact booked_cleanup ⟨unended.releases, unended.settlements, unended.retained⟩ rfl
    · rename_i made decided
      exact booked_enter (x := { x with lease := some made })
        ⟨unended.releases, unended.settlements, unended.retained⟩ (fun early => by cases early)
        (fun early => by cases early) _
  | operation context =>
    unfold receive
    dsimp only
    split
    · exact booked_caught unended .other
    · split
      · exact booked_caught unended .other
      · exact booked_cleanup ⟨unended.releases, unended.settlements, unended.retained⟩ rfl

theorem booked_proceed (booked : x.Booked) (outcome : Except Thrown (Answer T L)) : (x.proceed outcome).Booked := by
  unfold proceed
  unfold Booked at booked
  split
  · rename_i call phase
    rw [phase] at booked
    obtain ⟨releases, settlements, retained, reservation, lease⟩ := booked
    cases outcome with
    | error error => exact booked_caught ⟨releases, settlements, retained⟩ error
    | ok answer =>
      exact booked_receive (Unended.record ⟨releases, settlements, retained⟩ rfl rfl rfl) reservation lease answer
  · rename_i lease result phase
    rw [phase] at booked
    obtain ⟨releases, settlements, retained, held, same⟩ := booked
    cases outcome with
    | error error => exact booked_settle (x := x.cleanupFailed) (releases.trans (congrArg Option.toList held.symm)) settlements retained rfl
    | ok answer => exact booked_settle (releases.trans (congrArg Option.toList held.symm)) settlements retained same
  · rename_i settlement result phase
    rw [phase] at booked
    obtain ⟨releases, settlements, retained, held, same⟩ := booked
    have settled : x.settlements.map Settlement.reservation = x.reservation.toList := by
      rw [settlements, held]
      rfl
    cases outcome with
    | error error => exact booked_retain (x := x.cleanupFailed) releases settled retained rfl
    | ok answer => exact booked_retain releases settled retained same
  · rename_i record result phase
    rw [phase] at booked
    obtain ⟨releases, settled, retained, same⟩ := booked
    exact ⟨releases, settled, record, retained, same⟩
  · rename_i result phase
    unfold Booked
    rw [phase] at booked ⊢
    exact booked

theorem booked_took (booked : x.Booked) (effect : Effect T L) (lifecycle : Option LifecycleKind) (run : HookRun T L) :
    Booked { x.record (.took effect) with lifecycle, run } := by
  have released : (x.record (.took effect)).releases = x.releases := (List.filterMap_append ..).trans (List.append_nil _)
  have settled : (x.record (.took effect)).settlements = x.settlements :=
    (List.filterMap_append ..).trans (List.append_nil _)
  have retained : (x.record (.took effect)).retained = x.retained := (List.filterMap_append ..).trans (List.append_nil _)
  unfold Booked at booked ⊢
  rw [← released, ← settled, ← retained] at booked
  exact booked

/-- By its own books a call gives back what it holds, and all of it before it returns. -/
theorem Booked.holdings (booked : x.Booked) :
    ((x.settlements.map Settlement.reservation).Sublist x.reservation.toList ∧ x.releases.Sublist x.lease.toList) ∧
      (x.isReturned = true → x.settlements.map Settlement.reservation = x.reservation.toList ∧ x.releases = x.lease.toList) := by
  unfold Booked at booked
  unfold isReturned
  split at booked
  · rename_i call phase
    obtain ⟨releases, settlements, -⟩ := booked
    rw [releases, settlements, phase]
    exact ⟨⟨List.nil_sublist _, List.nil_sublist _⟩, fun returned => by cases returned⟩
  · rename_i lease result phase
    obtain ⟨releases, settlements, -, held, -⟩ := booked
    rw [releases, settlements, held, phase]
    exact ⟨⟨List.nil_sublist _, List.Sublist.refl _⟩, fun returned => by cases returned⟩
  · rename_i settlement result phase
    obtain ⟨releases, settlements, -, held, -⟩ := booked
    rw [releases, settlements, held, phase]
    exact ⟨⟨List.Sublist.refl _, List.Sublist.refl _⟩, fun returned => by cases returned⟩
  · rename_i record result phase
    obtain ⟨releases, settled, -⟩ := booked
    rw [releases, settled]
    exact ⟨⟨List.Sublist.refl _, List.Sublist.refl _⟩, fun _ => ⟨rfl, rfl⟩⟩
  · rename_i result phase
    obtain ⟨releases, settled, -⟩ := booked
    rw [releases, settled]
    exact ⟨⟨List.Sublist.refl _, List.Sublist.refl _⟩, fun _ => ⟨rfl, rfl⟩⟩

theorem Booked.retained (booked : x.Booked) : x.retained.length ≤ 1 ∧
    ∀ result, x.phase = .returned result → ∃ record, x.retained = [record] ∧ record.outcome = result.outcome := by
  unfold Booked at booked
  split at booked
  · rename_i call phase
    obtain ⟨-, -, none_, -⟩ := booked
    rw [none_, phase]
    exact ⟨Nat.zero_le 1, fun result returned => by cases returned⟩
  · rename_i lease result phase
    obtain ⟨-, -, none_, -⟩ := booked
    rw [none_, phase]
    exact ⟨Nat.zero_le 1, fun result returned => by cases returned⟩
  · rename_i settlement result phase
    obtain ⟨-, -, none_, -⟩ := booked
    rw [none_, phase]
    exact ⟨Nat.zero_le 1, fun result returned => by cases returned⟩
  · rename_i record result phase
    obtain ⟨-, -, one, -⟩ := booked
    rw [one, phase]
    exact ⟨le_refl 1, fun result returned => by cases returned⟩
  · rename_i result phase
    obtain ⟨-, -, record, one, same⟩ := booked
    rw [one, phase]
    exact ⟨le_refl 1, fun result returned => ⟨record, rfl, by rw [← Phase.returned.inj returned, same]⟩⟩

theorem awaiting_of_isProtected (awaits : x.isProtected = true) : ∃ call, x.phase = .awaiting call := by
  unfold isProtected at awaits
  split at awaits
  · rename_i call phase
    exact ⟨call, phase⟩
  · cases awaits

variable [DecidableEq T] [DecidableEq L]

inductive Move (x : Execution T L) : Action T L → Execution T L → Prop
  | stay (action) (idle : ∀ late, action = .resume late →
      x.run.outcome = none ∧ ∀ call, x.phase = .awaiting call → x.lifecycle = none) : Move x action x
  | abort (kind) (live : x.lifecycle = none) : Move x (.abort kind) { x with lifecycle := some kind }
  | take (effect) (allowed : x.allows effect = true) :
    Move x (.take effect) { x.record (.took effect) with run := { x.run with effect := some effect } }
  | answer (outcome) (open_ : x.run.outcome = none) (going : x.isReturned = false)
    (live : ∀ call, x.phase = .awaiting call → x.lifecycle = none) (truthful : x.truthful outcome = true) :
    Move x (.answer outcome) { x with run := { x.run with outcome := some outcome } }
  | overtaken (late) (call) (phase : x.phase = .awaiting call) (aborted : x.lifecycle ≠ none)
    (early : late = true → x.run.outcome = none) : Move x (.resume late) (x.caught .other)
  | proceed (late) (outcome) (answered : x.run.outcome = some outcome)
    (resolved : ∀ call, x.phase = .awaiting call → x.lifecycle = none ∨ late = true) :
    Move x (.resume late) (x.proceed outcome)

theorem move_step (x : Execution T L) (action : Action T L) : Move x action (x.step action) := by
  cases action with
  | abort kind =>
    unfold step
    dsimp only
    split
    · rename_i live
      exact .abort kind (Option.isNone_iff_eq_none.mp live)
    · exact .stay _ fun late resumes => by cases resumes
  | take effect =>
    unfold step
    dsimp only
    split
    · rename_i allowed
      exact .take effect allowed
    · exact .stay _ fun late resumes => by cases resumes
  | answer outcome =>
    unfold step
    dsimp only
    split
    · rename_i taken
      simp only [Bool.and_eq_true, Bool.not_eq_true', Option.isNone_iff_eq_none] at taken
      obtain ⟨⟨⟨open_, going⟩, live⟩, truthful⟩ := taken
      refine .answer outcome open_ going (fun call phase => ?_) truthful
      simpa [isProtected, phase] using live
    · exact .stay _ fun late resumes => by cases resumes
  | resume late =>
    unfold step
    dsimp only
    split
    · rename_i overtaken
      simp only [Bool.and_eq_true, Bool.not_eq_true'] at overtaken
      obtain ⟨⟨awaits, aborted⟩, early⟩ := overtaken
      obtain ⟨call, phase⟩ := awaiting_of_isProtected awaits
      refine .overtaken late call phase (Option.isSome_iff_ne_none.mp aborted) fun after => ?_
      simpa [after] using early
    · rename_i resolves
      split
      · rename_i outcome answered
        refine .proceed late outcome answered fun call phase => ?_
        simp only [isProtected, phase, answered, Option.isSome_some, Bool.and_true, Bool.true_and, Bool.and_eq_true,
          Bool.not_eq_true', not_and, Bool.not_eq_false] at resolves
        by_cases live : x.lifecycle = none
        · exact .inl live
        · exact .inr (resolves (Option.isSome_iff_ne_none.mpr live))
      · rename_i unanswered
        refine .stay _ fun other resumes => ⟨unanswered, fun call phase => ?_⟩
        simpa [isProtected, phase, unanswered] using resolves

theorem booked_move {y : Execution T L} {action : Action T L} (booked : x.Booked) (move : Move x action y) : y.Booked := by
  cases move with
  | stay | abort | answer => exact booked
  | take effect => exact booked_took booked effect x.lifecycle _
  | overtaken late call phase =>
    unfold Booked at booked
    rw [phase] at booked
    exact booked_caught ⟨booked.1, booked.2.1, booked.2.2.1⟩ .other
  | proceed late outcome => exact booked_proceed booked outcome

omit [DecidableEq T] [DecidableEq L] in
theorem booked_execute [UrlPlatform] (options : ProtectionOptions) (input : ExecutionInput) :
    (execute options input : Execution T L).Booked := by
  unfold execute
  dsimp only
  split
  · exact booked_decline ⟨rfl, rfl, rfl⟩ rfl rfl rfl
  · split
    · split
      · exact booked_caught ⟨rfl, rfl, rfl⟩ .other
      · exact booked_enter ⟨rfl, rfl, rfl⟩ (fun _ => rfl) (fun _ => rfl) .origin
    · exact booked_decline ⟨rfl, rfl, rfl⟩ rfl rfl rfl

end Execution

end Handrail.Server

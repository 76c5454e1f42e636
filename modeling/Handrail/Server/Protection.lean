import Handrail.Js.Arrays
import Handrail.Server.ProtectorHoldings

/-!
# What protection promises

The operation runs at most once and only after every gate has let its request pass, the call returns, and what the hooks
committed for it is given back exactly once, unless the answer that told of it is lost.
-/

namespace Handrail.Server
open Js

variable {T L : Type}

inductive Follows (answer : Answer T L) : ProtectedCall → ProtectedCall → Prop
  | origin {request} (allowed : isBooleanDecision answer = some true) :
    Follows answer (.validateOrigin request) (.authenticate request)
  | authentication {request principal} (authenticated : isAuthenticationDecision answer = some (some principal)) :
    Follows answer (.authenticate request) (.authorize ⟨request, principal⟩)
  | authorization {context} (allowed : isBooleanDecision answer = some true) :
    Follows answer (.authorize context) (.checkRateLimit context)
  | rateLimit {context} (allowed : isRateLimitDecision answer = some .allowed) :
    Follows answer (.checkRateLimit context) (.reserveIdempotency context)
  | idempotency {context reservation} (reserved : isIdempotencyDecision answer = some (.reserved reservation)) :
    Follows answer (.reserveIdempotency context) (.acquireConcurrency context)
  | concurrency {context lease} (acquired : isConcurrencyDecision answer = some (.acquired lease)) :
    Follows answer (.acquireConcurrency context) (.operation context)

inductive Cleared (request : ProtectedRequest) : List (ExecutionEvent T L) → ProtectedCall → Prop
  | first : Cleared request [] (.validateOrigin request)
  | next {exchanges call answer next} (cleared : Cleared request exchanges call) (follows : Follows answer call next) :
    Cleared request (exchanges ++ [.called (.protected_ call), .received answer]) next

namespace ExecutionEvent

/-- Calls under `protectedAwait` and their answers. -/
def isExchange : ExecutionEvent T L → Bool
  | .called (.protected_ _) | .received _ => true
  | _ => false

def isOperation : ExecutionEvent T L → Bool
  | .called (.protected_ (.operation _)) => true
  | _ => false

end ExecutionEvent

def Admitted [UrlPlatform] (options : ProtectionOptions) (input : ExecutionInput) (before : List (ExecutionEvent T L))
    (call : ProtectedCall) : Prop :=
  ∃ request, validateRequest options.maximumBodyBytes input.request = .ok request ∧
    Cleared request (before.filter ExecutionEvent.isExchange) call

namespace Execution

def remaining (x : Execution T L) : Nat :=
  match x.phase with
  | .awaiting (.validateOrigin _) => 10
  | .awaiting (.authenticate _) => 9
  | .awaiting (.authorize _) => 8
  | .awaiting (.checkRateLimit _) => 7
  | .awaiting (.reserveIdempotency _) => 6
  | .awaiting (.acquireConcurrency _) => 5
  | .awaiting (.operation _) => 4
  | .releasing .. => 3
  | .settling .. => 2
  | .retaining .. => 1
  | .returned _ => 0

variable {x y : Execution T L}

/-! ### The way through the gates -/

/-- A call leaves the `try` without calling the operation. -/
def Leaves (x y : Execution T L) : Prop :=
  y.isProtected = false ∧ y.remaining ≤ 3 ∧
    ∃ events, y.history = x.history ++ events ∧ ∀ event ∈ events, ExecutionEvent.isExchange event = false

theorem leaves_retain (result : ProtectedResult) : Leaves x (x.retain result) :=
  ⟨rfl, (by decide : 1 ≤ 3), _, rfl, by simp [ExecutionEvent.isExchange]⟩

theorem leaves_settle (result : ProtectedResult) : Leaves x (x.settle result) := by
  unfold settle
  split
  · exact ⟨rfl, (by decide : 2 ≤ 3), _, rfl, by simp [ExecutionEvent.isExchange]⟩
  · exact leaves_retain result

theorem leaves_cleanup (result : ProtectedResult) : Leaves x (x.cleanup result) := by
  unfold cleanup
  split
  · exact ⟨rfl, le_refl 3, _, rfl, by simp [ExecutionEvent.isExchange]⟩
  · exact leaves_settle result

theorem leaves_caught (error : Thrown) : Leaves x (x.caught error) :=
  leaves_cleanup (x := { x with terminal := { x.terminal with outcome := .error (x.publicCodeForThrown error) } }) _

theorem leaves_decline (outcome : TerminalOutcome) (result : ProtectedResult) : Leaves x (x.decline outcome result) :=
  leaves_retain (x := { x with terminal := { x.terminal with outcome } }) result

def Enters (x y : Execution T L) (call : ProtectedCall) : Prop :=
  Leaves x y ∨ y.phase = .awaiting call ∧ y.history = x.history ++ [.called (.protected_ call)]

theorem enters_enter (stage : TerminalStage) (call : ProtectedCall) : Enters x (x.enter stage call) call := by
  unfold enter
  dsimp only
  split
  · exact .inl (leaves_caught (x := { x with terminal := { x.terminal with stage } }) .other)
  · exact .inr ⟨rfl, rfl⟩

theorem enters_receive (answer : Answer T L) (call : ProtectedCall) :
    Leaves x (x.receive answer call) ∨ ∃ next, Follows answer call next ∧ Enters x (x.receive answer call) next := by
  cases call with
  | validateOrigin request =>
    unfold receive
    dsimp only
    split
    · exact .inl (leaves_caught .other)
    · exact .inl (leaves_decline ..)
    · rename_i allowed
      exact .inr ⟨_, .origin allowed, enters_enter ..⟩
  | authenticate request =>
    unfold receive
    dsimp only
    split
    · exact .inl (leaves_caught .other)
    · exact .inl (leaves_decline ..)
    · rename_i principal authenticated
      exact .inr ⟨_, .authentication authenticated, enters_enter
        (x := { x with terminal := { x.terminal with principalId := some principal.descriptor.id } }) ..⟩
  | authorize context =>
    unfold receive
    dsimp only
    split
    · exact .inl (leaves_caught .other)
    · exact .inl (leaves_decline ..)
    · rename_i allowed
      exact .inr ⟨_, .authorization allowed, enters_enter ..⟩
  | checkRateLimit context =>
    unfold receive
    dsimp only
    split
    · exact .inl (leaves_caught .other)
    · exact .inl (leaves_decline ..)
    · rename_i allowed
      exact .inr ⟨_, .rateLimit allowed, enters_enter ..⟩
  | reserveIdempotency context =>
    unfold receive
    dsimp only
    split
    · exact .inl (leaves_caught .other)
    · split
      · exact .inl (leaves_caught .other)
      · exact .inl (leaves_decline ..)
    · exact .inl (leaves_decline ..)
    · exact .inl (leaves_decline ..)
    · rename_i reservation reserved
      exact .inr ⟨_, .idempotency reserved, enters_enter (x := { x with reservation := some reservation }) ..⟩
  | acquireConcurrency context =>
    unfold receive
    dsimp only
    split
    · exact .inl (leaves_caught .other)
    · rename_i retryAfterMs exhausted
      exact .inl (leaves_cleanup
        (x := { x with terminal := { x.terminal with outcome := .error .concurrencyExhausted } }) _)
    · rename_i lease acquired
      exact .inr ⟨_, .concurrency acquired, enters_enter (x := { x with lease := some lease }) ..⟩
  | operation context =>
    unfold receive
    dsimp only
    split
    · exact .inl (leaves_caught .other)
    · rename_i stored cloned
      split
      · exact .inl (leaves_caught .other)
      · exact .inl (leaves_cleanup (x := { x with terminal := { x.terminal with
          stage := .completed
          outcome := .success } }) _)

/-! ### Progress -/

theorem remaining_follows {answer : Answer T L} {call next : ProtectedCall} (follows : Follows answer call next)
    (before : x.phase = .awaiting call) (after : y.phase = .awaiting next) : y.remaining < x.remaining := by
  unfold remaining
  rw [before, after]
  cases follows <;> simp

theorem remaining_le : x.remaining ≤ 10 := by
  unfold remaining
  split <;> decide

theorem remaining_awaiting {call : ProtectedCall} (phase : x.phase = .awaiting call) : 4 ≤ x.remaining := by
  unfold remaining
  rw [phase]
  cases call <;> simp

theorem remaining_proceed (going : x.isReturned = false) (outcome : Except Thrown (Answer T L)) :
    (x.proceed outcome).remaining < x.remaining := by
  unfold proceed
  split
  · rename_i call phase
    have long := remaining_awaiting phase
    cases outcome with
    | error error => exact lt_of_le_of_lt (leaves_caught error).2.1 long
    | ok answer =>
      rcases enters_receive (x := x.record (.received answer)) answer call with leaves | ⟨next, follows, leaves | ⟨after, -⟩⟩
      · exact lt_of_le_of_lt leaves.2.1 long
      · exact lt_of_le_of_lt leaves.2.1 long
      · exact remaining_follows follows phase after
  · rename_i lease result phase
    have start : x.remaining = 3 := by rw [remaining, phase]
    have settled (z : Execution T L) (result : ProtectedResult) : (z.settle result).remaining ≤ 2 := by
      unfold settle
      split
      · exact le_refl 2
      · exact (by decide : 1 ≤ 2)
    rw [start]
    cases outcome with
    | error error => exact Nat.lt_succ_of_le (settled _ _)
    | ok answer => exact Nat.lt_succ_of_le (settled _ _)
  · rename_i settlement result phase
    have start : x.remaining = 2 := by rw [remaining, phase]
    rw [start]
    cases outcome with
    | error error => exact (by decide : 1 < 2)
    | ok answer => exact (by decide : 1 < 2)
  · rename_i record result phase
    have start : x.remaining = 1 := by rw [remaining, phase]
    rw [start]
    exact (by decide : 0 < 1)
  · rename_i result phase
    rw [isReturned, phase] at going
    cases going

section
variable [DecidableEq T] [DecidableEq L]

/-- A call waits for the hook that it awaits, and under `protectedAwait` no longer than until the signal aborts. -/
def CanResume (x : Execution T L) : Prop := x.run.outcome ≠ none ∨ x.isProtected = true ∧ x.lifecycle ≠ none

theorem remaining_resume (going : x.isReturned = false) (ready : x.CanResume) (late : Bool) :
    (x.step (.resume late)).remaining < x.remaining := by
  have move := move_step x (.resume late)
  generalize x.step (.resume late) = y at move
  cases move with
  | stay _ idle =>
    obtain ⟨unanswered, live⟩ := idle late rfl
    rcases ready with answered | ⟨awaits, aborted⟩
    · exact (answered unanswered).elim
    · obtain ⟨call, phase⟩ := awaiting_of_isProtected awaits
      exact (aborted (live call phase)).elim
  | overtaken _ call phase => exact lt_of_le_of_lt (leaves_caught .other).2.1 (remaining_awaiting phase)
  | proceed _ outcome => exact remaining_proceed going outcome

end

section

/-! ### Order -/

structure Ordered [UrlPlatform] (options : ProtectionOptions) (input : ExecutionInput) (x : Execution T L) : Prop where
  admitted : ∀ (i : Nat) (context : AuthenticatedContext),
    x.history[i]? = some (.called (.protected_ (.operation context))) →
      Admitted options input (x.history.take i) (.operation context)
  once : x.history.countP ExecutionEvent.isOperation ≤ 1
  awaiting : ∀ call, x.phase = .awaiting call →
    ∃ request exchanges, validateRequest options.maximumBodyBytes input.request = .ok request ∧
      x.history.filter ExecutionEvent.isExchange = exchanges ++ [.called (.protected_ call)] ∧
      Cleared request exchanges call
  unbegun : ∀ call, x.phase = .awaiting call → (∀ context, call ≠ .operation context) →
    x.history.countP ExecutionEvent.isOperation = 0

theorem isOperation_of_quiet {event : ExecutionEvent T L} (quiet : event.isExchange = false) : event.isOperation = false := by
  cases event with
  | called call =>
    cases call with
    | protected_ => cases quiet
    | _ => rfl
  | took => rfl
  | received => rfl

variable [UrlPlatform] {options : ProtectionOptions} {input : ExecutionInput}

theorem Ordered.still (ordered : Ordered options input x) {events : List (ExecutionEvent T L)}
    (history : y.history = x.history ++ events) (none_ : ∀ event ∈ events, event.isOperation = false) :
    (∀ (i : Nat) (context : AuthenticatedContext), y.history[i]? = some (.called (.protected_ (.operation context))) →
      Admitted options input (y.history.take i) (.operation context)) ∧
    y.history.countP ExecutionEvent.isOperation = x.history.countP ExecutionEvent.isOperation := by
  constructor
  · intro i context found
    rw [history] at found ⊢
    by_cases small : i < x.history.length
    · rw [List.getElem?_append_left small] at found
      rw [List.take_append_of_le_length (Nat.le_of_lt small)]
      exact ordered.admitted i context found
    · rw [List.getElem?_append_right (Nat.le_of_not_lt small)] at found
      have other := none_ _ (List.mem_of_getElem? found)
      cases other
  · have zero : events.countP ExecutionEvent.isOperation = 0 :=
      List.countP_eq_zero.mpr fun event member => by simp [none_ event member]
    rw [history, List.countP_append, zero]
    exact Nat.add_zero _

theorem Ordered.quiet (ordered : Ordered options input x) {events : List (ExecutionEvent T L)}
    (history : y.history = x.history ++ events) (quiet : ∀ event ∈ events, event.isExchange = false)
    (phase : ∀ call, y.phase = .awaiting call → x.phase = .awaiting call) : Ordered options input y := by
  obtain ⟨admitted, once⟩ := ordered.still history fun event member => isOperation_of_quiet (quiet event member)
  refine ⟨admitted, once ▸ ordered.once, fun call awaits => ?_, fun call awaits other => ?_⟩
  · obtain ⟨request, exchanges, valid, order, cleared⟩ := ordered.awaiting call (phase call awaits)
    have silent : events.filter ExecutionEvent.isExchange = [] :=
      List.filter_eq_nil_iff.mpr fun event member => by simp [quiet event member]
    refine ⟨request, exchanges, valid, ?_, cleared⟩
    rw [history, List.filter_append, silent, List.append_nil, order]
  · rw [once]
    exact ordered.unbegun call (phase call awaits) other

theorem Ordered.left (ordered : Ordered options input x) {events : List (ExecutionEvent T L)}
    (history : y.history = x.history ++ events) (none_ : ∀ event ∈ events, event.isOperation = false)
    (left : y.isProtected = false) : Ordered options input y := by
  obtain ⟨admitted, once⟩ := ordered.still history none_
  refine ⟨admitted, once ▸ ordered.once, fun call awaits => ?_, fun call awaits => ?_⟩
  · rw [isProtected, awaits] at left
    cases left
  · rw [isProtected, awaits] at left
    cases left

theorem Ordered.leaves (ordered : Ordered options input x) (leaves : Leaves x y) : Ordered options input y := by
  obtain ⟨left, -, events, history, quiet⟩ := leaves
  exact ordered.left history (fun event member => isOperation_of_quiet (quiet event member)) left

theorem Ordered.leaves_received (ordered : Ordered options input x) {answer : Answer T L}
    (leaves : Leaves (x.record (.received answer)) y) : Ordered options input y := by
  obtain ⟨left, -, events, history, quiet⟩ := leaves
  refine ordered.left (history.trans (List.append_assoc ..)) (fun event member => ?_) left
  rcases List.mem_cons.mp member with rfl | later
  · rfl
  · exact isOperation_of_quiet (quiet event later)

theorem Ordered.next (ordered : Ordered options input x) {call next : ProtectedCall} (phase : x.phase = .awaiting call)
    {answer : Answer T L} (follows : Follows answer call next) (after : y.phase = .awaiting next)
    (history : y.history = x.history ++ [.received answer] ++ [.called (.protected_ next)]) : Ordered options input y := by
  obtain ⟨request, exchanges, valid, order, cleared⟩ := ordered.awaiting call phase
  have first : x.history.countP ExecutionEvent.isOperation = 0 := by
    refine ordered.unbegun call phase fun context same => ?_
    rw [same] at follows
    cases follows
  have exchanged : (x.history ++ [ExecutionEvent.received answer]).filter ExecutionEvent.isExchange =
      exchanges ++ [.called (.protected_ call), .received answer] := by
    rw [List.filter_append, order, List.append_assoc]
    rfl
  constructor
  · intro i context found
    rw [history] at found ⊢
    rcases getElem?_concat_cases found with before | ⟨atEnd, last⟩
    · rcases getElem?_concat_cases before with earlier | ⟨-, answered⟩
      · have some_ : 0 < x.history.countP ExecutionEvent.isOperation :=
          List.countP_pos_iff.mpr ⟨_, List.mem_of_getElem? earlier, rfl⟩
        omega
      · cases answered
    · cases last
      rw [atEnd, List.take_left]
      refine ⟨request, valid, ?_⟩
      rw [exchanged]
      exact cleared.next follows
  · rw [history, List.countP_append, List.countP_append, first, List.countP_singleton, List.countP_singleton]
    cases next <;> simp [ExecutionEvent.isOperation]
  · intro other awaits
    obtain rfl : next = other := Phase.awaiting.inj (after.symm.trans awaits)
    refine ⟨request, _, valid, ?_, cleared.next follows⟩
    rw [history, List.filter_append, exchanged]
    rfl
  · intro other awaits none_
    obtain rfl : next = other := Phase.awaiting.inj (after.symm.trans awaits)
    rw [history, List.countP_append, List.countP_append, first]
    cases next with
    | operation context => exact (none_ context rfl).elim
    | _ => rfl

theorem Ordered.proceed (ordered : Ordered options input x) (outcome : Except Thrown (Answer T L)) :
    Ordered options input (x.proceed outcome) := by
  unfold Execution.proceed
  split
  · rename_i call phase
    cases outcome with
    | error error => exact ordered.leaves (leaves_caught error)
    | ok answer =>
      rcases enters_receive (x := x.record (.received answer)) answer call with left | ⟨next, follows, left | ⟨after, history⟩⟩
      · exact ordered.leaves_received left
      · exact ordered.leaves_received left
      · exact ordered.next phase follows after history
  · cases outcome with
    | error error => exact ordered.leaves (leaves_settle (x := x.cleanupFailed) _)
    | ok answer => exact ordered.leaves (leaves_settle _)
  · cases outcome with
    | error error => exact ordered.leaves (leaves_retain (x := x.cleanupFailed) _)
    | ok answer => exact ordered.leaves (leaves_retain _)
  · exact ordered.left (List.append_nil _).symm (fun event member => absurd member List.not_mem_nil) rfl
  · exact ordered

theorem ordered_empty (empty : x.history = []) (returned : x.isReturned = true) : Ordered options input x where
  admitted i context found := by
    rw [empty] at found
    cases found
  once := by simp [empty]
  awaiting call awaits := by
    rw [isReturned, awaits] at returned
    cases returned
  unbegun call awaits := by
    rw [isReturned, awaits] at returned
    cases returned

theorem ordered_first {request : ProtectedRequest}
    (valid : validateRequest options.maximumBodyBytes input.request = .ok request)
    (phase : x.phase = .awaiting (.validateOrigin request))
    (history : x.history = [.called (.protected_ (.validateOrigin request))]) : Ordered options input x where
  admitted i context found := by
    rw [history] at found
    cases List.mem_singleton.mp (List.mem_of_getElem? found)
  once := by
    rw [history]
    exact Nat.zero_le 1
  awaiting call awaits := by
    obtain rfl := Phase.awaiting.inj (phase.symm.trans awaits)
    refine ⟨request, [], valid, ?_, .first⟩
    rw [history]
    rfl
  unbegun call awaits _ := by
    rw [history]
    rfl

theorem ordered_execute : Ordered options input (execute options input : Execution T L) := by
  unfold execute
  dsimp only
  split
  · exact Ordered.leaves (ordered_empty rfl rfl) (leaves_decline ..)
  · rename_i request valid
    split
    · split
      · exact Ordered.leaves (ordered_empty rfl rfl) (leaves_caught _)
      · rcases enters_enter (T := T) (L := L) .origin (.validateOrigin request) with left | ⟨phase, history⟩
        · exact Ordered.leaves (ordered_empty rfl rfl) left
        · exact ordered_first valid phase history
    · exact Ordered.leaves (ordered_empty rfl rfl) (leaves_decline ..)

variable [DecidableEq T] [DecidableEq L]

theorem ordered_move {action : Action T L} (ordered : Ordered options input x) (move : Move x action y) :
    Ordered options input y := by
  cases move with
  | stay => exact ordered
  | abort | answer =>
    exact ordered.quiet (List.append_nil _).symm (fun event member => absurd member List.not_mem_nil) fun _ => id
  | take effect => exact ordered.quiet rfl (fun event member => by rw [List.mem_singleton.mp member]; rfl) fun _ => id
  | overtaken => exact ordered.leaves (leaves_caught .other)
  | proceed _ outcome => exact ordered.proceed outcome

/-! ### The promise -/

structure Protects (options : ProtectionOptions) (input : ExecutionInput) (x : Execution T L) : Prop where
  admitted : ∀ (i : Nat) (context : AuthenticatedContext),
    x.history[i]? = some (.called (.protected_ (.operation context))) →
      Admitted options input (x.history.take i) (.operation context)
  once : x.history.countP ExecutionEvent.isOperation ≤ 1
  /-- It returns after ten awaits at most: each is over when its hook answers, the first seven also when the signal aborts. -/
  resolves : x.remaining ≤ 10 ∧ (x.isReturned = false → x.CanResume → ∀ late, (x.step (.resume late)).remaining < x.remaining)
  owned : (x.settlements.map Settlement.reservation).Sublist x.reservations ∧ x.releases.Sublist x.leases
  givenBack : x.isReturned = true → x.settlements.map Settlement.reservation = x.reservations ∧ x.releases = x.leases
  retained : x.retained.length ≤ 1 ∧
    ∀ result, x.phase = .returned result → ∃ record, x.retained = [record] ∧ record.outcome = result.outcome

theorem Kept.protects (kept : x.Kept) (booked : x.Booked) (sound : x.Sound) (ordered : Ordered options input x) :
    Protects options input x where
  admitted := ordered.admitted
  once := ordered.once
  resolves := ⟨remaining_le, remaining_resume⟩
  owned := by
    obtain ⟨⟨settled, released⟩, -⟩ := booked.holdings
    rw [kept.reservations, kept.leases]
    exact ⟨settled.trans (List.sublist_append_left ..), released.trans (List.sublist_append_left ..)⟩
  givenBack returned := by
    obtain ⟨settled, released⟩ := booked.holdings.2 returned
    have idle : x.run.effect = none := by
      by_contra taken
      obtain ⟨effect, taken⟩ := Option.ne_none_iff_exists'.mp taken
      have fits := sound.effect effect taken
      unfold isReturned at returned
      split at returned
      · rename_i result phase
        rw [phase] at fits
        cases fits
      · cases returned
    rw [kept.reservations, kept.leases, pendingReservations, pendingLeases, idle, settled, released]
    exact ⟨(List.append_nil _).symm, (List.append_nil _).symm⟩
  retained := booked.retained

structure Consistent (options : ProtectionOptions) (input : ExecutionInput) (x : Execution T L) : Prop where
  booked : x.Booked
  sound : x.Sound
  ordered : Ordered options input x

theorem consistent_step (consistent : Consistent options input x) (action : Action T L) :
    Consistent options input (x.step action) where
  booked := booked_move consistent.booked (move_step x action)
  sound := sound_move consistent.sound (move_step x action)
  ordered := ordered_move consistent.ordered (move_step x action)

theorem consistent_steps (consistent : Consistent options input x) (actions : List (Action T L)) :
    Consistent options input (x.steps actions) := by
  induction actions generalizing x with
  | nil => exact consistent
  | cons action rest ih => exact ih (consistent_step consistent action)

/-- What is held stays accounted for while every answer is received. -/
theorem kept_steps (consistent : Consistent options input x) (kept : x.Kept) {actions : List (Action T L)}
    (received : AllReceived x actions) : (x.steps actions).Kept := by
  induction actions generalizing x with
  | nil => exact kept
  | cons action rest ih =>
    exact ih (consistent_step consistent action)
      (kept_move consistent.booked consistent.sound kept (move_step x action) received.1) received.2

/-- Either every answer is received, or what one of them told of is lost at the end. -/
theorem received_or_lost (consistent : Consistent options input x) (kept : x.Kept) (actions : List (Action T L)) :
    AllReceived x actions ∨ (x.steps actions).Lost := by
  induction actions generalizing x with
  | nil => exact .inl trivial
  | cons action rest ih =>
    cases met : x.meets action with
    | true =>
      have after := kept_move consistent.booked consistent.sound kept (move_step x action) met
      rcases ih (consistent_step consistent action) after with received | lost
      · exact .inl ⟨met, received⟩
      · exact .inr lost
    | false => exact .inr (lost_steps (lost_of_unmet consistent.sound kept (move_step x action) met) rest)

theorem consistent_execute : Consistent options input (execute options input : Execution T L) where
  booked := booked_execute options input
  sound := sound_of_run (sameHoldings_execute options input).2.2.2.2
  ordered := ordered_execute

/-- In a call that receives the answer of every hook that committed a reservation or a lease, every promise holds at every
step; in a call that returned, they hold only then. -/
theorem protects_iff (options : ProtectionOptions) (input : ExecutionInput) (actions : List (Action T L)) :
    (AllReceived (execute options input) actions → Protects options input ((execute options input).steps actions)) ∧
      (((execute options input).steps actions).isReturned = true →
        Protects options input ((execute options input).steps actions) → AllReceived (execute options input) actions) := by
  have first : Consistent options input (execute options input : Execution T L) := consistent_execute
  have last := consistent_steps first actions
  constructor
  · intro received
    exact (kept_steps consistent_execute (kept_execute options input) received).protects last.booked last.sound last.ordered
  · intro returned protects
    rcases received_or_lost consistent_execute (kept_execute options input) actions with received | lost
    · exact received
    · obtain ⟨settled, released⟩ := protects.givenBack returned
      obtain ⟨settledHeld, releasedHeld⟩ := last.booked.holdings.2 returned
      have fewer := lost.fewer
      rw [← settled, ← released, settledHeld, releasedHeld] at fewer
      exact (Nat.lt_irrefl _ fewer).elim

end

/-! ### A call that is served, and a lost answer -/

@[reducible] def sampleUrls : UrlPlatform := ⟨fun value => some ⟨js "https:", js "", js "", js "/", js "", js "", value⟩⟩

def sampleObject (fields : List (String × JsValue)) : JsValue := .obj (fields.map fun field => (js field.1, field.2))

def sampleRequest : JsValue := sampleObject [
  ("version", .str requestProtectionVersion),
  ("requestId", .str (js "request.1")),
  ("action", sampleObject [("id", .str (js "assistant.search"))]),
  ("resource", sampleObject [("id", .str (js "workspace.1")), ("kind", .str (js "workspace"))]),
  ("origin", .str (js "https://app.example.test")),
  ("body", sampleObject [("byteLength", .num (JsNumber.ofNat 128))]),
  ("idempotency", sampleObject [("key", .str (js "idem.1")), ("fingerprint", .str (js "fingerprint.1"))])]

def sampleAnswer (fields : List (String × JsValue)) : Answer Nat Nat := ⟨sampleObject fields, none, none⟩

def samplePassed : List (Action Nat Nat) := [
  .answer (.ok (sampleAnswer [("allowed", .bool true)])), .resume false,
  .answer (.ok (sampleAnswer [("authenticated", .bool true),
    ("principal", sampleObject [("id", .str (js "principal.1"))])])), .resume false,
  .answer (.ok (sampleAnswer [("allowed", .bool true)])), .resume false,
  .answer (.ok (sampleAnswer [("allowed", .bool true)])), .resume false]

instance decidableAllReceived : (x : Execution Nat Nat) → (actions : List (Action Nat Nat)) → Decidable (AllReceived x actions)
  | _, [] => .isTrue trivial
  | x, action :: rest =>
    have := decidableAllReceived (x.step action) rest
    inferInstanceAs (Decidable (_ ∧ _))

def sampleServed : List (Action Nat Nat) := samplePassed ++ [
  .take (.reserved 7), .answer (.ok ⟨sampleObject [("status", .str (js "reserved"))], some 7, none⟩), .resume false,
  .take (.leased 3), .answer (.ok ⟨sampleObject [("status", .str (js "acquired"))], none, some 3⟩), .resume false,
  .answer (.ok (sampleAnswer [("status", .num (JsNumber.ofNat 200)), ("value", .bool true)])), .resume false,
  .answer (.ok (sampleAnswer [])), .resume false, .take .settled, .answer (.ok (sampleAnswer [])), .resume false,
  .answer (.ok (sampleAnswer [])), .resume false]

/-- A call that is served: every hook answers, and what was reserved and leased is given back. -/
theorem protects_served : ∃ actions : List (Action Nat Nat),
    let _ := sampleUrls
    let x := (execute {} ⟨sampleRequest, .undefined, none⟩).steps actions
    x.isReturned = true ∧ x.settlements.map Settlement.reservation = [7] ∧ x.releases = [3] ∧
      x.history.countP ExecutionEvent.isOperation = 1 ∧ Protects {} ⟨sampleRequest, .undefined, none⟩ x := by
  let _ := sampleUrls
  have received : AllReceived (execute {} ⟨sampleRequest, .undefined, none⟩) sampleServed := by decide +kernel
  exact ⟨sampleServed, by decide +kernel, by decide +kernel, by decide +kernel, by decide +kernel,
    (protects_iff {} ⟨sampleRequest, .undefined, none⟩ sampleServed).1 received⟩
def sampleLate : List (Action Nat Nat) :=
  samplePassed ++ [.take (.reserved 7), .abort .cancelled, .resume false, .answer (.ok (sampleAnswer [])), .resume false]

theorem reservation_leaked : ∃ actions : List (Action Nat Nat),
    let _ := sampleUrls
    let x := (execute {} ⟨sampleRequest, .undefined, none⟩).steps actions
    x.isReturned = true ∧ x.reservations = [7] ∧ x.settlements.map Settlement.reservation = [] ∧
      ¬Protects {} ⟨sampleRequest, .undefined, none⟩ x := by
  let _ := sampleUrls
  have returned : ((execute {} ⟨sampleRequest, .undefined, none⟩ : Execution Nat Nat).steps sampleLate).isReturned = true := by
    decide +kernel
  have reserved : ((execute {} ⟨sampleRequest, .undefined, none⟩ : Execution Nat Nat).steps sampleLate).reservations = [7] := by
    decide +kernel
  have settled : ((execute {} ⟨sampleRequest, .undefined, none⟩ : Execution Nat Nat).steps sampleLate).settlements.map
      Settlement.reservation = [] := by
    decide +kernel
  refine ⟨sampleLate, returned, reserved, settled, fun protects => ?_⟩
  have same := (protects.givenBack returned).1
  rw [settled, reserved] at same
  cases same

end Execution

end Handrail.Server

import Handrail.Server.ProtectorLedger

/-!
# What a protected request holds

A call knows of a reservation or a lease only by the answer of the hook that committed it. As long as every such answer
is received, what the call holds is what was committed for it; an answer that is lost is never made up for.
-/

namespace Handrail.Server.Execution

variable {T L : Type} {x y : Execution T L}

/-! ### What one function leaves -/

def SameHoldings (x y : Execution T L) : Prop :=
  y.reservation = x.reservation ∧ y.lease = x.lease ∧ y.reservations = x.reservations ∧ y.leases = x.leases ∧ y.run = {}

theorem sameHoldings_call (call : HookCall T L) (phase : Phase T L) : SameHoldings x (x.call call phase) := by
  refine ⟨rfl, rfl, ?_, ?_, rfl⟩
  · exact (List.filterMap_append ..).trans (List.append_nil _)
  · exact (List.filterMap_append ..).trans (List.append_nil _)

theorem sameHoldings_settle (result : ProtectedResult) : SameHoldings x (x.settle result) := by
  unfold settle
  split
  · exact sameHoldings_call ..
  · exact sameHoldings_call ..

theorem sameHoldings_cleanup (result : ProtectedResult) : SameHoldings x (x.cleanup result) := by
  unfold cleanup
  split
  · exact sameHoldings_call ..
  · exact sameHoldings_settle result

theorem sameHoldings_caught (error : Thrown) : SameHoldings x (x.caught error) :=
  sameHoldings_cleanup (x := { x with terminal := { x.terminal with outcome := .error (x.publicCodeForThrown error) } }) _

theorem sameHoldings_decline (outcome : TerminalOutcome) (result : ProtectedResult) :
    SameHoldings x (x.decline outcome result) :=
  sameHoldings_call (x := { x with terminal := { x.terminal with outcome } }) ..

theorem sameHoldings_enter (stage : TerminalStage) (call : ProtectedCall) : SameHoldings x (x.enter stage call) := by
  unfold enter
  dsimp only
  split
  · exact sameHoldings_caught (x := { x with terminal := { x.terminal with stage } }) .other
  · exact sameHoldings_call (x := { x with terminal := { x.terminal with stage } }) ..

def hold (x : Execution T L) : Option (Effect T L) → Execution T L
  | some (.reserved reservation) => { x with reservation := some reservation }
  | some (.leased lease) => { x with lease := some lease }
  | _ => x

theorem sameHoldings_receive (answer : Answer T L) (call : ProtectedCall) :
    SameHoldings (x.hold (named answer call)) (x.receive answer call) := by
  cases call with
  | validateOrigin | authorize | checkRateLimit =>
    unfold receive
    dsimp only
    split
    · exact sameHoldings_caught _
    · exact sameHoldings_decline ..
    · exact sameHoldings_enter ..
  | authenticate =>
    unfold receive
    dsimp only
    split
    · exact sameHoldings_caught _
    · exact sameHoldings_decline ..
    · rename_i principal decided
      exact sameHoldings_enter (x := { x with terminal := { x.terminal with principalId := some principal.descriptor.id } }) ..
  | reserveIdempotency =>
    unfold receive named
    dsimp only
    cases isIdempotencyDecision answer with
    | none => exact sameHoldings_caught _
    | some decision =>
      cases decision with
      | replay result =>
        dsimp only
        split
        · exact sameHoldings_caught _
        · exact sameHoldings_decline ..
      | conflict => exact sameHoldings_decline ..
      | inFlight => exact sameHoldings_decline ..
      | reserved made => exact sameHoldings_enter (x := { x with reservation := some made }) ..
  | acquireConcurrency =>
    unfold receive named
    dsimp only
    cases isConcurrencyDecision answer with
    | none => exact sameHoldings_caught _
    | some decision =>
      cases decision with
      | exhausted =>
        exact sameHoldings_cleanup (x := { x with terminal := { x.terminal with outcome := .error .concurrencyExhausted } }) _
      | acquired made => exact sameHoldings_enter (x := { x with lease := some made }) ..
  | operation =>
    unfold receive
    dsimp only
    split
    · exact sameHoldings_caught _
    · split
      · exact sameHoldings_caught _
      · exact sameHoldings_cleanup (x := { x with terminal := { x.terminal with
          stage := .completed
          outcome := .success } }) _

theorem sameHoldings_execute [UrlPlatform] (options : ProtectionOptions) (input : ExecutionInput) :
    SameHoldings (⟨{}, none, none, none, .returned (.failed .internalFailure), {}, []⟩ : Execution T L)
      (execute options input) := by
  unfold execute
  dsimp only
  split
  · exact sameHoldings_decline ..
  · rename_i request valid
    split
    · split
      · exact sameHoldings_caught ..
      · exact sameHoldings_enter ..
    · exact sameHoldings_decline ..

/-! ### The hook that is awaited -/

def apt : Phase T L → Effect T L → Bool
  | .awaiting (.reserveIdempotency _), .reserved _ => true
  | .awaiting (.acquireConcurrency _), .leased _ => true
  | .settling .., .settled => true
  | _, _ => false

theorem phase_reserved {phase : Phase T L} {reservation : T} (fits : apt phase (.reserved reservation) = true) :
    ∃ context, phase = .awaiting (.reserveIdempotency context) := by
  unfold apt at fits
  split at fits
  · exact ⟨_, rfl⟩
  · rename_i other
    cases other
  · rename_i other
    cases other
  · cases fits

theorem phase_leased {phase : Phase T L} {lease : L} (fits : apt phase (.leased lease) = true) :
    ∃ context, phase = .awaiting (.acquireConcurrency context) := by
  unfold apt at fits
  split at fits
  · rename_i other
    cases other
  · exact ⟨_, rfl⟩
  · rename_i other
    cases other
  · cases fits

theorem phase_settled {phase : Phase T L} (fits : apt phase .settled = true) :
    ∃ settlement result, phase = .settling settlement result := by
  unfold apt at fits
  split at fits
  · rename_i other
    cases other
  · rename_i other
    cases other
  · exact ⟨_, _, rfl⟩
  · cases fits

theorem isProtected_settle (result : ProtectedResult) : (x.settle result).isProtected = false := by
  unfold settle
  split <;> rfl

theorem isProtected_cleanup (result : ProtectedResult) : (x.cleanup result).isProtected = false := by
  unfold cleanup
  split
  · rfl
  · exact isProtected_settle result

/-- An answer that does not name the new state that its hook committed ends the `try`. -/
theorem isProtected_receive {call : ProtectedCall} {effect : Effect T L} (own : apt (.awaiting call) effect = true)
    {answer : Answer T L} (unnamed : named answer call = none) : (x.receive answer call).isProtected = false := by
  cases call with
  | reserveIdempotency =>
    unfold receive
    unfold named at unnamed
    dsimp only at unnamed ⊢
    split
    · exact isProtected_cleanup _
    · split
      · exact isProtected_cleanup _
      · rfl
    · rfl
    · rfl
    · rename_i made decided
      rw [decided] at unnamed
      cases unnamed
  | acquireConcurrency =>
    unfold receive
    unfold named at unnamed
    dsimp only at unnamed ⊢
    split
    · exact isProtected_cleanup _
    · exact isProtected_cleanup _
    · rename_i made decided
      rw [decided] at unnamed
      cases unnamed
  | _ => cases effect <;> cases own

theorem apt_of_allows {effect : Effect T L} (allowed : x.allows effect = true) : apt x.phase effect = true := by
  unfold allows at allowed
  simp only [Bool.and_eq_true] at allowed
  have fits := allowed.2
  unfold apt
  split at fits <;> simp_all

variable [DecidableEq T] [DecidableEq L]

structure Sound (x : Execution T L) : Prop where
  effect : ∀ effect, x.run.effect = some effect → apt x.phase effect = true
  answer : ∀ outcome, x.run.outcome = some outcome → x.truthful outcome = true

omit [DecidableEq T] [DecidableEq L] in
theorem run_proceed (outcome : Except Thrown (Answer T L)) :
    (x.proceed outcome).run = {} ∨
      (∃ record result, x.phase = .retaining record result ∧ x.proceed outcome = { x with phase := .returned result }) ∨
      x.isReturned = true ∧ x.proceed outcome = x := by
  unfold proceed
  split
  · cases outcome with
    | error error => exact .inl (sameHoldings_caught error).2.2.2.2
    | ok answer => exact .inl (sameHoldings_receive answer _).2.2.2.2
  · cases outcome with
    | error error => exact .inl (sameHoldings_settle (x := x.cleanupFailed) _).2.2.2.2
    | ok answer => exact .inl (sameHoldings_settle _).2.2.2.2
  · cases outcome with
    | error error => exact .inl rfl
    | ok answer => exact .inl rfl
  · rename_i record result phase
    exact .inr (.inl ⟨record, result, phase, rfl⟩)
  · rename_i result phase
    exact .inr (.inr ⟨by rw [isReturned, phase], rfl⟩)

theorem sound_of_run (fresh : y.run = {}) : y.Sound where
  effect effect taken := by
    rw [fresh] at taken
    cases taken
  answer outcome answered := by
    rw [fresh] at answered
    cases answered

theorem sound_move {action : Action T L} (sound : x.Sound) (move : Move x action y) : y.Sound := by
  cases move with
  | stay => exact sound
  | abort kind live => exact ⟨sound.effect, sound.answer⟩
  | take effect allowed =>
    constructor
    · rintro other ⟨⟩
      exact (apt_of_allows allowed : apt x.phase effect = true)
    · intro outcome answered
      unfold allows at allowed
      simp only [Bool.and_eq_true, Option.isNone_iff_eq_none] at allowed
      rw [show x.run.outcome = some outcome from answered] at allowed
      cases allowed.1.2
  | answer outcome open_ going live truthful =>
    constructor
    · exact sound.effect
    · rintro other ⟨⟩
      exact truthful
  | overtaken => exact sound_of_run (sameHoldings_caught .other).2.2.2.2
  | proceed late outcome answered =>
    rcases run_proceed (x := x) outcome with fresh | ⟨record, result, phase, same⟩ | ⟨-, same⟩
    · exact sound_of_run fresh
    · rw [same]
      constructor
      · intro effect taken
        have fits := sound.effect effect taken
        rw [phase] at fits
        cases fits
      · intro other answered
        unfold truthful
        cases other <;> rfl
    · rw [same]
      exact sound

/-! ### Received and lost answers -/

/-- The answer of a hook that committed new state is received: it names that state, and the signal does not abort before
`protectedAwait` has resolved. -/
def receives (x : Execution T L) (late : Bool) : Bool :=
  match x.phase, x.run.effect with
  | .awaiting call, some _ =>
    match x.run.outcome with
    -- Without an answer the call goes on only when the signal has aborted.
    | none => x.lifecycle.isNone
    | some (.error _) => false
    | some (.ok answer) => (x.lifecycle.isNone || late) && (named answer call).isSome
  | _, _ => true

def meets (x : Execution T L) : Action T L → Bool
  | .resume late => x.receives late
  | _ => true

def AllReceived (x : Execution T L) : List (Action T L) → Prop
  | [] => True
  | action :: rest => x.meets action = true ∧ AllReceived (x.step action) rest

def pendingReservations (x : Execution T L) : List T :=
  match x.run.effect with
  | some (.reserved reservation) => [reservation]
  | _ => []

def pendingLeases (x : Execution T L) : List L :=
  match x.run.effect with
  | some (.leased lease) => [lease]
  | _ => []

structure Kept (x : Execution T L) : Prop where
  reservations : x.reservations = x.reservation.toList ++ x.pendingReservations
  leases : x.leases = x.lease.toList ++ x.pendingLeases

omit [DecidableEq T] [DecidableEq L] in
theorem Kept.same (kept : x.Kept) (idle : ∀ effect, x.run.effect = some effect → effect = .settled)
    (same : SameHoldings x y) : y.Kept := by
  obtain ⟨reservation, lease, reservations, leases, run⟩ := same
  have noReservations : x.pendingReservations = [] := by
    unfold pendingReservations
    split
    · rename_i made taken
      cases idle _ taken
    · rfl
  have noLeases : x.pendingLeases = [] := by
    unfold pendingLeases
    split
    · rename_i made taken
      cases idle _ taken
    · rfl
  constructor
  · rw [reservations, reservation, kept.reservations, noReservations, pendingReservations, run]
  · rw [leases, lease, kept.leases, noLeases, pendingLeases, run]

omit [DecidableEq T] [DecidableEq L] in
theorem Kept.received (kept : x.Kept) (answer : Answer T L) : (x.record (.received answer)).Kept where
  reservations := ((List.filterMap_append ..).trans (List.append_nil _)).trans kept.reservations
  leases := ((List.filterMap_append ..).trans (List.append_nil _)).trans kept.leases

omit [DecidableEq T] [DecidableEq L] in
theorem Kept.hold (kept : x.Kept) {call : ProtectedCall} {effect : Effect T L} (taken : x.run.effect = some effect)
    (fits : apt (.awaiting call) effect = true) (unreserved : unreserved call = true → x.reservation = none)
    (unleased : unleased call = true → x.lease = none) : Kept { x.hold (some effect) with run := {} } := by
  have reservations := kept.reservations
  have leases := kept.leases
  rw [pendingReservations, taken] at reservations
  rw [pendingLeases, taken] at leases
  cases effect with
  | reserved made =>
    have free : x.reservation = none := by
      apply unreserved
      cases call <;> first | rfl | cases fits
    rw [free] at reservations
    exact ⟨reservations, leases⟩
  | leased made =>
    have free : x.lease = none := by
      apply unleased
      cases call <;> first | rfl | cases fits
    rw [free] at leases
    exact ⟨reservations, leases⟩
  | settled => cases call <;> cases fits

theorem kept_move {action : Action T L} (booked : x.Booked) (sound : x.Sound) (kept : x.Kept) (move : Move x action y)
    (meets : x.meets action = true) : y.Kept := by
  cases move with
  | stay | abort | answer => exact ⟨kept.reservations, kept.leases⟩
  | take effect allowed =>
    have idle : x.run.effect = none := by
      unfold allows at allowed
      simp only [Bool.and_eq_true, Option.isNone_iff_eq_none] at allowed
      exact allowed.1.1
    have before := kept.reservations
    have beforeLeases := kept.leases
    rw [pendingReservations, idle, List.append_nil] at before
    rw [pendingLeases, idle, List.append_nil] at beforeLeases
    constructor
    · refine (List.filterMap_append ..).trans ?_
      rw [show x.history.filterMap ExecutionEvent.reservation = _ from before]
      cases effect <;> rfl
    · refine (List.filterMap_append ..).trans ?_
      rw [show x.history.filterMap ExecutionEvent.lease = _ from beforeLeases]
      cases effect <;> rfl
  | overtaken late call phase aborted early =>
    refine kept.same (fun effect taken => ?_) (sameHoldings_caught .other)
    have received : x.receives late = true := meets
    simp only [receives, phase, taken] at received
    split at received
    · exact (aborted (Option.isNone_iff_eq_none.mp received)).elim
    · cases received
    · rename_i answer answered
      simp only [Bool.and_eq_true, Bool.or_eq_true, Option.isNone_iff_eq_none, aborted, false_or] at received
      rw [early received.1] at answered
      cases answered
  | proceed late outcome answered =>
    have received : x.receives late = true := meets
    unfold proceed
    split
    · rename_i call phase
      cases taken : x.run.effect with
      | none =>
        have idle (effect : Effect T L) (some_ : x.run.effect = some effect) : effect = .settled := by
          rw [taken] at some_
          cases some_
        cases outcome with
        | error error => exact kept.same idle (sameHoldings_caught error)
        | ok answer =>
          have own := sound.answer _ answered
          have unnamed : named answer call = none := by
            simpa [truthful, phase, taken] using own
          have after := sameHoldings_receive (x := x.record (.received answer)) answer call
          rw [unnamed] at after
          exact (kept.received answer).same idle after
      | some effect =>
        simp only [receives, phase, taken, answered] at received
        cases outcome with
        | error error => cases received
        | ok answer =>
          simp only [Bool.and_eq_true] at received
          have own := sound.answer _ answered
          have names : named answer call = some effect := by
            have given : (named answer call).isSome = true := received.2
            simp only [truthful, phase, taken, Bool.or_eq_true, decide_eq_true_eq] at own
            rcases own with missing | same
            · rw [Option.isNone_iff_eq_none.mp missing] at given
              cases given
            · exact same
          have after := sameHoldings_receive (x := x.record (.received answer)) answer call
          rw [names] at after
          unfold Booked at booked
          rw [phase] at booked
          obtain ⟨-, -, -, unreserved, unleased⟩ := booked
          have fits := sound.effect effect taken
          rw [phase] at fits
          have held := (kept.received answer).hold taken fits unreserved unleased
          refine held.same (fun effect some_ => ?_) ?_
          · cases some_
          · cases effect <;> exact after
    · rename_i lease result phase
      have idle (effect : Effect T L) (taken : x.run.effect = some effect) : effect = .settled := by
        have fits := sound.effect effect taken
        rw [phase] at fits
        cases fits
      cases outcome with
      | error error => exact kept.same idle (sameHoldings_settle (x := x.cleanupFailed) _)
      | ok answer => exact kept.same idle (sameHoldings_settle _)
    · rename_i settlement result phase
      have idle (effect : Effect T L) (taken : x.run.effect = some effect) : effect = .settled := by
        have fits := sound.effect effect taken
        rw [phase] at fits
        cases effect with
        | settled => rfl
        | _ => cases fits
      cases outcome with
      | error error => exact kept.same idle (sameHoldings_call (x := x.cleanupFailed) ..)
      | ok answer => exact kept.same idle (sameHoldings_call ..)
    · exact ⟨kept.reservations, kept.leases⟩
    · exact kept

omit [DecidableEq T] [DecidableEq L] in
theorem kept_execute [UrlPlatform] (options : ProtectionOptions) (input : ExecutionInput) :
    (execute options input : Execution T L).Kept :=
  Kept.same ⟨rfl, rfl⟩ (fun effect taken => by cases taken) (sameHoldings_execute options input)

/-! ### Lost answers -/

structure Lost (x : Execution T L) : Prop where
  left : x.isProtected = false
  fewer : x.reservation.toList.length + x.lease.toList.length < x.reservations.length + x.leases.length

omit [DecidableEq T] [DecidableEq L] in
theorem Lost.same (lost : x.Lost) (same : SameHoldings x y) (left : y.isProtected = false) : y.Lost where
  left := left
  fewer := by
    obtain ⟨reservation, lease, reservations, leases, -⟩ := same
    rw [reservation, lease, reservations, leases]
    exact lost.fewer

theorem lost_move {action : Action T L} (lost : x.Lost) (move : Move x action y) : y.Lost := by
  cases move with
  | stay | abort | answer => exact ⟨lost.left, lost.fewer⟩
  | take effect allowed =>
    have settled : effect = .settled := by
      have fits := apt_of_allows allowed
      have left := lost.left
      unfold isProtected at left
      unfold apt at fits
      split at fits
      · rename_i phase
        rw [phase] at left
        cases left
      · rename_i phase
        rw [phase] at left
        cases left
      · rfl
      · cases fits
    subst settled
    refine ⟨lost.left, ?_⟩
    have fewer := lost.fewer
    rw [← show (x.record (.took .settled)).reservations = x.reservations from
        (List.filterMap_append ..).trans (List.append_nil _),
      ← show (x.record (.took .settled)).leases = x.leases from (List.filterMap_append ..).trans (List.append_nil _)] at fewer
    exact fewer
  | overtaken late call phase =>
    have left := lost.left
    rw [isProtected, phase] at left
    cases left
  | proceed late outcome answered =>
    have left := lost.left
    unfold proceed
    split
    · rename_i call phase
      rw [isProtected, phase] at left
      cases left
    · cases outcome with
      | error error => exact lost.same (sameHoldings_settle (x := x.cleanupFailed) _) (isProtected_settle _)
      | ok answer => exact lost.same (sameHoldings_settle _) (isProtected_settle _)
    · cases outcome with
      | error error => exact lost.same (sameHoldings_call (x := x.cleanupFailed) ..) rfl
      | ok answer => exact lost.same (sameHoldings_call ..) rfl
    · exact ⟨rfl, lost.fewer⟩
    · exact lost

omit [DecidableEq T] [DecidableEq L] in
theorem Kept.lost (kept : x.Kept) {call : ProtectedCall} {effect : Effect T L} (taken : x.run.effect = some effect)
    (fits : apt (.awaiting call) effect = true) (same : SameHoldings x y) (left : y.isProtected = false) : y.Lost := by
  obtain ⟨reservation, lease, reservations, leases, -⟩ := same
  refine ⟨left, ?_⟩
  rw [reservation, lease, reservations, leases, kept.reservations, kept.leases, List.length_append, List.length_append]
  have one : x.pendingReservations.length + x.pendingLeases.length = 1 := by
    rw [pendingReservations, pendingLeases, taken]
    cases effect with
    | settled => cases call <;> cases fits
    | _ => rfl
  omega

theorem lost_of_unmet {action : Action T L} (sound : x.Sound) (kept : x.Kept) (move : Move x action y)
    (unmet : x.meets action = false) : y.Lost := by
  cases action with
  | resume late =>
    have missed : x.receives late = false := unmet
    unfold receives at missed
    split at missed
    · rename_i call effect phase taken
      have fits := sound.effect effect taken
      rw [phase] at fits
      cases move with
      | stay _ idle =>
        obtain ⟨unanswered, live⟩ := idle late rfl
        rw [unanswered, live call phase] at missed
        cases missed
      | overtaken => exact kept.lost taken fits (sameHoldings_caught .other) (isProtected_cleanup _)
      | proceed _ outcome answered resolved =>
        rw [answered] at missed
        unfold proceed
        rw [phase]
        cases outcome with
        | error error => exact kept.lost taken fits (sameHoldings_caught error) (isProtected_cleanup _)
        | ok answer =>
          have unnamed : named answer call = none := by
            rcases resolved call phase with live | late
            · simpa [live] using missed
            · simpa [late] using missed
          have after := sameHoldings_receive (x := x.record (.received answer)) answer call
          rw [unnamed] at after
          exact (kept.received answer).lost taken fits after (isProtected_receive fits unnamed)
    · cases missed
  | _ => cases unmet

/-- What was lost is never given back. -/
theorem lost_steps (lost : x.Lost) (actions : List (Action T L)) : (x.steps actions).Lost := by
  induction actions generalizing x with
  | nil => exact lost
  | cons action rest ih => exact ih (lost_move lost (move_step x action))

end Handrail.Server.Execution

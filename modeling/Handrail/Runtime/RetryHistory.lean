import Handrail.Runtime.RetryRuns

/-!
# Retries are bounded and their history can be recorded

A run of an accepted policy under every clock, random source, hint and abort. Its scheduled delays can be recorded as durable
events unless one of them is undefined, longer than a safe integer or shorter than an infinite hint, and the condition on a
failed attempt under which none is is exact.
-/

namespace Handrail.Runtime
open Js Conversation ExactNumber

variable {policy : RetryPolicy} {rates : RetryRates} {startedAt : ExactNumber} {attempt : Nat} {round : RetryRound}
  {failure : RetryFailure} {laterMs delayMs : ExactNumber}

theorem elapsedSince_ok {now : ExactNumber} (read : elapsedSince now startedAt = .ok laterMs) :
    ∃ q : ℚ, laterMs = ofRat q ∧ Fits q ∧ 0 ≤ q ∧
      ∀ s t, startedAt.value? = some s → now.value? = some t → t - s ≤ q := by
  unfold elapsedSince at read
  cases value : (now.sub startedAt).value? with
  | none => simp [value] at read
  | some v =>
    obtain ⟨same, fits⟩ := eq_ofRat value
    simp only [value, Option.isNone_some, Bool.false_eq_true, if_false, Except.ok.injEq] at read
    rw [same, max_ofRat fits_zero fits] at read
    have bounded : Fits (Max.max 0 v) := by
      rcases max_choice 0 v with left | right
      · rw [left]
        exact fits_zero
      · rw [right]
        exact fits
    refine ⟨_, read.symm, bounded, le_max_left _ _, fun s t started ended => ?_⟩
    obtain ⟨rfl, fitsStart⟩ := eq_ofRat started
    obtain ⟨rfl, fitsEnd⟩ := eq_ofRat ended
    rw [sub_ofRat fitsEnd fitsStart] at value
    rw [(of_value?_ofRat value).2]
    exact le_max_right _ _

def RetryRates.Meets (rates : RetryRates) (startedAt : ExactNumber) (attempt : Nat) (round : RetryRound) : Prop :=
  ∀ failure, ∀ elapsed random : ℚ, round.outcome = .failure failure → failure.retryable = true →
    elapsedSince round.outcomeNow startedAt = .ok (ofRat elapsed) → elapsed < rates.maximumElapsedMs.1 →
    round.random = ofRat random → 0 ≤ random → random < 1 →
    rates.Representable attempt random failure.retryAfterMs (rates.maximumElapsedMs.1 - elapsed)

/-- A scheduled delay is a safe integer, no shorter than its hint asks for and no longer than the time that remains. -/
theorem Retries.honours (retries : Retries rates.policy startedAt attempt round failure laterMs delayMs)
    (first : 1 ≤ attempt) (inside : attempt ≤ rates.maximumAttempts) (meets : rates.Meets startedAt attempt round) :
    rates.Honours failure.retryAfterMs delayMs ∧ ∃ elapsed : ℚ, laterMs = ofRat elapsed ∧ Fits elapsed ∧
      (∀ s t, startedAt.value? = some s → round.outcomeNow.value? = some t → t - s ≤ elapsed) ∧
      ∃ n : Nat, delayMs = ofRat n ∧ Fits (n : ℚ) ∧ n ≤ rates.maximumElapsedMs.1 - elapsed := by
  obtain ⟨elapsed, rfl, fits, nonneg, since⟩ := elapsedSince_ok retries.elapsed
  obtain ⟨random, drawn, low, high⟩ := RetryRates.retryDelay_random retries.delay
  have maximum : rates.policy.maximumElapsedMs = ofRat rates.maximumElapsedMs.1 := rfl
  have early := retries.early
  have within := retries.within
  rw [maximum, ge_ofRat fits rates.maximumElapsedMs.2.2, decide_eq_false_iff_not, not_le] at early
  have remains : Fits (rates.maximumElapsedMs.1 - elapsed) :=
    fits_sub rates.maximumElapsedMs.2.2 fits rates.maximumElapsedMs.2.1 nonneg
  rw [maximum, sub_ofRat rates.maximumElapsedMs.2.2 fits] at within
  have representable := meets failure elapsed random retries.failed retries.retryable retries.elapsed early drawn low high
  have delay := retries.delay
  rw [drawn] at delay
  have honours := (representable_iff first (inside.trans rates.safe) low high failure.retryAfterMs remains).mp
    representable delayMs delay within
  obtain ⟨n, bound, rfl⟩ := honours.1
  have small := fits_natCast (bound.trans maxSafeInteger_le_largest)
  rw [lt_ofRat remains small, decide_eq_false_iff_not, not_lt] at within
  exact ⟨honours, elapsed, rfl, fits, since, n, rfl, small, within⟩

/-- A clock that never goes back, over the readings of the rounds, and that every sleep moves by its delay at least. -/
def Advances (policy : RetryPolicy) (startedAt : ExactNumber) : Nat → ℚ → List RetryRound → Prop
  | _, _, [] => True
  | attempt, now, round :: rest => ∃ began ended : ℚ, round.attemptNow.value? = some began ∧
      round.outcomeNow.value? = some ended ∧ now ≤ began ∧ began ≤ ended ∧
      Advances policy startedAt (attempt + 1) (ended + totalDelay (attemptOnce policy startedAt attempt round).1) rest

theorem totalDelay_cons (call : RetryCall) (calls : List RetryCall) :
    totalDelay (call :: calls) = call.delay + totalDelay calls := by
  simp [totalDelay]

theorem delay_scheduled {next : Nat} {elapsedMs : ExactNumber} {category : RetryReasonCategory} {q : ℚ} (fits : Fits q) :
    (RetryCall.scheduled attempt next elapsedMs category (ofRat q)).delay = q := by
  rw [RetryCall.delay, value?_ofRat fits]
  rfl

/-- What is scheduled after `spent` milliseconds of sleep fits into the rest of the budget. -/
theorem budget_retryLoop {started now spent : ℚ} (rounds : List RetryRound) (first : 1 ≤ attempt)
    (inside : attempt ≤ rates.maximumAttempts) (start : startedAt.value? = some started)
    (advances : Advances rates.policy startedAt attempt now rounds)
    (meets : ∀ i round, rounds[i]? = some round → attempt + i < rates.maximumAttempts →
      rates.Meets startedAt (attempt + i) round)
    (slept : started + spent ≤ now) (bounded : spent ≤ rates.maximumElapsedMs.1) :
    spent + totalDelay (retryLoop rates.policy startedAt attempt rounds).1 ≤ rates.maximumElapsedMs.1 := by
  induction rounds generalizing attempt now spent with
  | nil => simpa [retryLoop, totalDelay] using bounded
  | cons round rest ih =>
    obtain ⟨began, ended, -, read, later, order, advances⟩ := advances
    rcases retryLoop_cons rates.policy startedAt attempt round rest with
      ⟨calls, ending, same, made⟩ | ⟨elapsedMs, laterMs, delayMs, failure, retries, once, same⟩
    · rw [same]
      cases made with
      | unstarted _ => simpa [totalDelay] using bounded
      | unasked _ _ => simpa [totalDelay, RetryCall.delay] using bounded
      | settled _ _ => simpa [totalDelay, RetryCall.delay] using bounded
      | exhausted _ _ _ _ _ => simpa [totalDelay, RetryCall.delay] using bounded
      | scheduled elapsedMs laterMs delayMs failure _ retries =>
        have below := retries.below
        obtain ⟨-, elapsed, rfl, -, since, n, rfl, small, within⟩ :=
          retries.honours first inside (meets 0 round rfl (by omega))
        have since := since started ended start read
        simp only [totalDelay_cons, delay_scheduled small]
        simp only [totalDelay, RetryCall.delay, List.map_nil, List.sum_nil]
        linarith
      | slept elapsedMs laterMs delayMs failure _ retries =>
        have below := retries.below
        obtain ⟨-, elapsed, rfl, -, since, n, rfl, small, within⟩ :=
          retries.honours first inside (meets 0 round rfl (by omega))
        have since := since started ended start read
        simp only [totalDelay_cons, delay_scheduled small]
        simp only [totalDelay, RetryCall.delay, List.map_nil, List.sum_nil]
        linarith
    · have below := retries.below
      obtain ⟨-, elapsed, rfl, -, since, n, rfl, small, within⟩ :=
        retries.honours first inside (meets 0 round rfl (by omega))
      have since := since started ended start read
      have one : totalDelay (attemptOnce rates.policy startedAt attempt round).1 = n := by
        rw [once]
        simp only [totalDelay_cons, delay_scheduled small]
        simp [totalDelay, RetryCall.delay]
      rw [one] at advances
      have others (i : Nat) (round : RetryRound) (found : rest[i]? = some round)
          (less : attempt + 1 + i < rates.maximumAttempts) : rates.Meets startedAt (attempt + 1 + i) round := by
        have met := meets (i + 1) round found (by omega)
        rwa [show attempt + (i + 1) = attempt + 1 + i by omega] at met
      have spends : started + (spent + n) ≤ ended + n := by linarith
      have rest_bound := ih (by omega) below advances others spends (by linarith)
      rw [same]
      simp only [totalDelay_cons, delay_scheduled small]
      simp only [RetryCall.delay]
      linarith

structure RetryRecorded [WebPlatform] (rates : RetryRates) (startedAt : ExactNumber) (rounds : List RetryRound)
    (progress : RetryProgress) : Prop where
  ordered : CallOrder 1 progress.1
  operations : progress.1.countP RetryCall.isOperation ≤ rates.maximumAttempts
  ends : rates.maximumAttempts ≤ rounds.length → ∃ ending, progress.2 = some ending
  durable : ∀ attempt next laterMs category delayMs, .scheduled attempt next laterMs category delayMs ∈ progress.1 →
    ∃ n : Nat, n ≤ JsNumber.maxSafeInteger ∧ delayMs = ofRat n ∧
      ∀ turnId, ∃ payload, validatePayload (some (retryScheduledPayload turnId attempt category n)) = .ok payload
  heard : ∀ attempt next laterMs category delayMs, .scheduled attempt next laterMs category delayMs ∈ progress.1 →
    ∃ round failure, rounds[attempt - 1]? = some round ∧ round.outcome = .failure failure ∧
      ∀ hint, failure.retryAfterMs = some hint → hint ≠ nan →
        delayMs.ge (hint.min rates.policy.maximumRetryAfterMs) = true
  budget : ∀ started, startedAt.value? = some started → Advances rates.policy startedAt 1 started rounds →
    totalDelay progress.1 ≤ rates.maximumElapsedMs.1

theorem recorded_retryLoop [WebPlatform] (rates : RetryRates) (startedAt : ExactNumber) (rounds : List RetryRound)
    (meets : ∀ i round, rounds[i]? = some round → i + 1 < rates.maximumAttempts → rates.Meets startedAt (i + 1) round) :
    RetryRecorded rates startedAt rounds (retryLoop rates.policy startedAt 1 rounds) where
  ordered := ordered_retryLoop rounds
  operations := by
    have := operations_retryLoop startedAt rounds rates.positive
    omega
  ends := fun enough => ends_retryLoop rounds rates.positive (by omega)
  durable := by
    intro attempt next laterMs category delayMs member
    obtain ⟨i, round, failure, found, rfl, rfl, rfl, retries⟩ := scheduled_retryLoop member
    have below := retries.below
    have inside : 1 + i ≤ rates.maximumAttempts := by omega
    have met := meets i round found (by omega)
    rw [Nat.add_comm i 1] at met
    obtain ⟨⟨⟨n, bound, rfl⟩, -⟩, -⟩ := retries.honours (by omega) inside met
    refine ⟨n, bound, rfl, fun turnId => ?_⟩
    exact ⟨_, validatePayload_retryScheduled turnId ⟨1 + i, by omega, inside.trans rates.safe⟩ _ ⟨n, Nat.zero_le n, bound⟩⟩
  heard := by
    intro attempt next laterMs category delayMs member
    obtain ⟨i, round, failure, found, rfl, rfl, rfl, retries⟩ := scheduled_retryLoop member
    have below := retries.below
    have inside : 1 + i ≤ rates.maximumAttempts := by omega
    have met := meets i round found (by omega)
    rw [Nat.add_comm i 1] at met
    have honours := (retries.honours (by omega) inside met).1
    exact ⟨round, failure, by rwa [Nat.add_sub_cancel_left], retries.failed, honours.2⟩
  budget := by
    intro started start advances
    have total := budget_retryLoop rounds (le_refl 1) rates.positive start advances
      (fun i round found less => by
        have met := meets i round found (by omega)
        rwa [Nat.add_comm i 1] at met)
      (by rw [add_zero]) rates.maximumElapsedMs.2.1
    rwa [zero_add] at total

/-- Every run of an accepted policy whose failed attempts all meet the condition. -/
theorem retry_recorded [WebPlatform] {options : RetryPolicyOptions} {policy : RetryPolicy}
    (accepted : RetryPolicy.createRetryPolicy options = .ok policy) :
    ∃ rates : RetryRates, policy = rates.policy ∧ ∀ startedAt rounds,
      (∀ i round, rounds[i]? = some round → i + 1 < rates.maximumAttempts → rates.Meets startedAt (i + 1) round) →
        ∃ progress, executeWithRetry policy startedAt rounds = .ok progress ∧
          RetryRecorded rates startedAt rounds progress := by
  obtain ⟨rates, same⟩ := createRetryPolicy_ok accepted
  refine ⟨rates, same, fun startedAt rounds meets => ?_⟩
  have valid : policy.validatePolicy = .ok () := by
    simp only [RetryPolicy.createRetryPolicy, bind_eq_ok] at accepted
    obtain ⟨⟨⟩, valid, built⟩ := accepted
    cases built
    exact valid
  subst same
  exact ⟨_, bind_eq_ok.mpr ⟨(), valid, rfl⟩, recorded_retryLoop rates startedAt rounds meets⟩

/-- Clamps within the safe integers, and a first delay, meet the condition in every run without infinite hints. -/
theorem meets_bounded (nonzero : rates.initialDelayMs.1 ≠ 0) (delays : rates.maximumDelayMs.1 ≤ JsNumber.maxSafeInteger)
    (hints : rates.maximumRetryAfterMs.1 ≤ JsNumber.maxSafeInteger)
    (finite : ∀ failure, round.outcome = .failure failure → failure.retryAfterMs ≠ some infinity) :
    rates.Meets startedAt attempt round := by
  intro failure elapsed random failed _ _ _ _ _ _
  refine ⟨.inl nonzero, .inr (.inr ⟨(min_le_left _ _).trans delays, (min_le_left _ _).trans hints, fun infinite => ?_⟩)⟩
  exact (finite failure failed infinite).elim

def noOptions : RetryPolicyOptions := ⟨none, none, none, none, none, none, none⟩

def calmRound (outcome : OperationOutcome) : RetryRound :=
  ⟨false, .ofRat 0, true, false, outcome, .ofRat 0, .ofRat (1 / 2), true, true, false, true, false⟩

def sampleRounds : List RetryRound :=
  [calmRound (.failure ⟨true, .timeout, some (.ofRat 7)⟩), calmRound .success]

theorem retry_recorded_defaults : ∃ (_ : WebPlatform) (rates : RetryRates) (progress : RetryProgress),
    executeWithRetry RetryPolicy.defaults (.ofRat 0) sampleRounds = .ok progress ∧
      RetryRecorded rates (.ofRat 0) sampleRounds progress := by
  let _ : WebPlatform := ⟨fun _ => none, fun _ => []⟩
  have accepted : RetryPolicy.createRetryPolicy noOptions = .ok RetryPolicy.defaults := by decide +kernel
  obtain ⟨rates, same, recorded⟩ := retry_recorded accepted
  have reads {x y : ℚ} (fits : Fits y) (equal : (ofRat x) = ofRat y) : y = x := (ofRat_inj fits equal).symm
  have initial := reads rates.initialDelayMs.2.2 (congrArg RetryPolicy.initialDelayMs same)
  have maximum := reads rates.maximumDelayMs.2.2 (congrArg RetryPolicy.maximumDelayMs same)
  have hint := reads rates.maximumRetryAfterMs.2.2 (congrArg RetryPolicy.maximumRetryAfterMs same)
  refine ⟨_, rates, recorded (.ofRat 0) sampleRounds fun i round found _ => ?_⟩
  have safe : (30000 : ℚ) ≤ JsNumber.maxSafeInteger := by exact_mod_cast (by decide : 30000 ≤ JsNumber.maxSafeInteger)
  refine meets_bounded ?_ ?_ ?_ fun failure failed => ?_
  · rw [initial]
    norm_num
  · rw [maximum]
    linarith
  · rw [hint]
    exact safe
  · rcases List.mem_cons.mp (List.mem_of_getElem? found) with rfl | last
    · cases failed
      decide +kernel
    · cases List.mem_singleton.mp last
      cases failed

/-- No delay before the first retry and a multiplier of `1e308`: the third attempt schedules `NaN`. -/
def overflowOptions : RetryPolicyOptions :=
  { noOptions with maximumAttempts := some (.ofRat 4), initialDelayMs := some (.ofRat 0),
                   backoffMultiplier := some (.ofRat (10 ^ 308)) }

def overflowPolicy : RetryPolicy :=
  { RetryPolicy.defaults with maximumAttempts := .ofRat 4, initialDelayMs := .ofRat 0, backoffMultiplier := .ofRat (10 ^ 308) }

def overflowRounds : List RetryRound := List.replicate 4 (calmRound (.failure ⟨true, .timeout, none⟩))

theorem undefined_delay_scheduled : ∃ policy progress, RetryPolicy.createRetryPolicy overflowOptions = .ok policy ∧
    executeWithRetry policy (.ofRat 0) overflowRounds = .ok progress ∧
    .scheduled 3 4 (.ofRat 0) .timeout nan ∈ progress.1 ∧ ¬∃ n : Nat, nan = ofRat n := by
  have valid : overflowPolicy.validatePolicy = .ok () := by decide +kernel
  refine ⟨overflowPolicy, retryLoop overflowPolicy (.ofRat 0) 1 overflowRounds, by decide +kernel,
    bind_eq_ok.mpr ⟨(), valid, rfl⟩, by decide +kernel, ?_⟩
  rintro ⟨n, same⟩
  exact ofRat_ne_nan n same.symm

end Handrail.Runtime

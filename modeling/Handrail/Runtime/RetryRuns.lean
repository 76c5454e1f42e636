import Handrail.Runtime.RetryDelays
import Handrail.Conversation.Events

/-!
# Runs of `executeWithRetry`

What one attempt can do, and from it the order of the hooks, the number of operations and the delays of a whole run.
-/

namespace Handrail.Runtime
open Js Conversation ExactNumber

/-- The payload of `retryScheduledDraft`. -/
def retryScheduledPayload (turnId : Identifier) (attempt : Nat) (reasonCategory : RetryReasonCategory) (delayMs : Nat) :
    Json := Json.object [
  ("type", .str (js "turn.retry_scheduled")),
  ("turn_id", turnId.toJson),
  ("attempt", .num (.ofNat attempt)),
  ("reason_category", literal reasonCategory),
  ("delay_ms", .num (.ofNat delayMs))]

theorem validatePayload_retryScheduled [WebPlatform] (turnId : Identifier) (attempt : PositiveSafeInteger)
    (reasonCategory : RetryReasonCategory) (delayMs : SafeInteger 0) :
    validatePayload (some (retryScheduledPayload turnId attempt.value reasonCategory delayMs.value))
      = .ok (.turnRetryScheduled turnId attempt reasonCategory delayMs) := by
  unfold validatePayload retryScheduledPayload
  refine bind_eq_ok.mpr ⟨_, record_object _ (by simp), ?_⟩
  refine bind_eq_ok.mpr ⟨(), requiredKeys_fieldsOf (by simp), ?_⟩
  have read (fields : Fields) : parsePayloadFields fields .turnRetryScheduled = (do
      requiredKeys fields ["turn_id", "attempt", "reason_category", "delay_ms"]
      allowedKeys fields ["type", "turn_id", "attempt", "reason_category", "delay_ms"]
      let turnId ← field fields "turn_id" identifier
      let attempt ← field fields "attempt" positiveSafeInteger
      let reasonCategory ← field fields "reason_category" (enumValue Enumeration.values)
      let delayMs ← field fields "delay_ms" nonnegativeSafeInteger
      .ok (.turnRetryScheduled turnId attempt reasonCategory delayMs)) := rfl
  rw [Json.get_fieldsOf]
  show parsePayloadFields _ .turnRetryScheduled = _
  rw [read]
  refine bind_eq_ok.mpr ⟨(), requiredKeys_fieldsOf (by simp), ?_⟩
  refine bind_eq_ok.mpr ⟨(), allowedKeys_fieldsOf (by simp), ?_⟩
  refine bind_eq_ok.mpr ⟨turnId, field_fieldsOf rfl (stringValue_toJson turnId), ?_⟩
  refine bind_eq_ok.mpr ⟨attempt, field_fieldsOf rfl (safeInteger_ofNat ..), ?_⟩
  refine bind_eq_ok.mpr ⟨reasonCategory, field_fieldsOf rfl (enumValue_literal (Enumeration.mem_values _)), ?_⟩
  exact bind_eq_ok.mpr ⟨delayMs, field_fieldsOf rfl (safeInteger_ofNat ..), rfl⟩

/-! ### One attempt -/

variable {policy : RetryPolicy} {rates : RetryRates} {startedAt : ExactNumber} {attempt : Nat} {round : RetryRound}

/-- The attempt fails retryably, after `elapsed`, and another one is allowed. -/
structure Retries (policy : RetryPolicy) (startedAt : ExactNumber) (attempt : Nat) (round : RetryRound)
    (failure : RetryFailure) (elapsedMs delayMs : ExactNumber) : Prop where
  failed : round.outcome = .failure failure
  retryable : failure.retryable = true
  elapsed : elapsedSince round.outcomeNow startedAt = .ok elapsedMs
  more : (ofRat attempt).ge policy.maximumAttempts = false
  delay : policy.retryDelay attempt round.random failure.retryAfterMs = .ok delayMs
  early : elapsedMs.ge policy.maximumElapsedMs = false
  within : (policy.maximumElapsedMs.sub elapsedMs).lt delayMs = false

inductive AttemptCalls (policy : RetryPolicy) (startedAt : ExactNumber) (attempt : Nat) (round : RetryRound) :
    RetryProgress → Prop where
  | unstarted (ending : RetryEnd) : AttemptCalls policy startedAt attempt round ([], some ending)
  | unasked (elapsedMs : ExactNumber) (ending : RetryEnd) :
      AttemptCalls policy startedAt attempt round ([.started attempt elapsedMs], some ending)
  | settled (elapsedMs : ExactNumber) (ending : RetryEnd) :
      AttemptCalls policy startedAt attempt round
        ([.started attempt elapsedMs, .operation attempt elapsedMs], some ending)
  | exhausted (elapsedMs laterMs : ExactNumber) (category : RetryReasonCategory) (reason : RetryExhaustionReason)
      (ending : RetryEnd) :
      AttemptCalls policy startedAt attempt round
        ([.started attempt elapsedMs, .operation attempt elapsedMs, .exhausted attempt laterMs category reason], some ending)
  | scheduled (elapsedMs laterMs delayMs : ExactNumber) (failure : RetryFailure) (ending : RetryEnd)
      (retries : Retries policy startedAt attempt round failure laterMs delayMs) :
      AttemptCalls policy startedAt attempt round
        ([.started attempt elapsedMs, .operation attempt elapsedMs,
          .scheduled attempt (attempt + 1) laterMs failure.reasonCategory delayMs], some ending)
  | slept (elapsedMs laterMs delayMs : ExactNumber) (failure : RetryFailure) (ending : Option RetryEnd)
      (retries : Retries policy startedAt attempt round failure laterMs delayMs) :
      AttemptCalls policy startedAt attempt round
        ([.started attempt elapsedMs, .operation attempt elapsedMs,
          .scheduled attempt (attempt + 1) laterMs failure.reasonCategory delayMs, .sleep delayMs], ending)

theorem attemptOnce_calls (policy : RetryPolicy) (startedAt : ExactNumber) (attempt : Nat) (round : RetryRound) :
    AttemptCalls policy startedAt attempt round (attemptOnce policy startedAt attempt round) := by
  unfold attemptOnce
  split
  · exact .unstarted _
  · split
    · exact .unstarted _
    · rename_i elapsedMs _
      split
      · exact .unasked _ _
      · unfold settleAttempt
        cases outcome : round.outcome with
        | rejected => exact .settled _ _
        | success => cases elapsedSince round.outcomeNow startedAt <;> exact .settled _ _
        | failure failure =>
          cases later : elapsedSince round.outcomeNow startedAt with
          | error _ => exact .settled _ _
          | ok laterMs =>
            dsimp only
            unfold failAttempt
            cases retryable : failure.retryable with
            | false => exact .settled _ _
            | true =>
              cases more : (ofRat attempt).ge policy.maximumAttempts with
              | true => exact .exhausted _ _ _ _ _
              | false =>
                unfold scheduleRetry
                cases delay : policy.retryDelay attempt round.random failure.retryAfterMs with
                | error _ => exact .settled _ _
                | ok delayMs =>
                  dsimp only
                  cases early : laterMs.ge policy.maximumElapsedMs with
                  | true => exact .exhausted _ _ _ _ _
                  | false =>
                    cases within : (policy.maximumElapsedMs.sub laterMs).lt delayMs with
                    | true => exact .exhausted _ _ _ _ _
                    | false =>
                      have retries : Retries policy startedAt attempt round failure laterMs delayMs :=
                        ⟨outcome, retryable, later, more, delay, early, within⟩
                      cases stops : (!round.scheduledHook || round.abortedAfterScheduled) with
                      | true => exact .scheduled _ _ _ _ _ retries
                      | false => exact .slept _ _ _ _ _ retries

/-! ### One delay -/

/-- Whole milliseconds that remain: a longer delay is not scheduled. What is scheduled must be safe, and no shorter than an
infinite hint asks for. -/
def RetryRates.Representable (rates : RetryRates) (attempt : Nat) (random : ℚ) (hint : Option ExactNumber) (remaining : ℚ) :
    Prop :=
  rates.Defined attempt ∧
    ((⌊remaining⌋ : ℚ) < rates.jittered attempt random ∨ (⌊remaining⌋ : ℚ) < rates.hinted hint ∨
      (rates.jittered attempt random ≤ JsNumber.maxSafeInteger ∧ rates.hinted hint ≤ JsNumber.maxSafeInteger ∧
        (hint = some infinity → rates.maximumRetryAfterMs.1 ≤ ⌈rates.jittered attempt random⌉)))

def RetryRates.Honours (rates : RetryRates) (hint : Option ExactNumber) (delayMs : ExactNumber) : Prop :=
  (∃ n : Nat, n ≤ JsNumber.maxSafeInteger ∧ delayMs = ofRat n) ∧
    ∀ h, hint = some h → h ≠ nan → delayMs.ge (h.min rates.policy.maximumRetryAfterMs) = true

theorem honours_hint {delay : ℚ} (fits : Fits delay) {h : ExactNumber} (number : h ≠ nan)
    (least : rates.hinted (some h) ≤ delay) (infinite : h = infinity → rates.maximumRetryAfterMs.1 ≤ delay) :
    (ofRat delay).ge (h.min rates.policy.maximumRetryAfterMs) = true := by
  have maximum : rates.policy.maximumRetryAfterMs = ofRat rates.maximumRetryAfterMs.1 := rfl
  have bounded := rates.maximumRetryAfterMs.2.2
  rw [maximum]
  cases read : h.value? with
  | some q =>
    obtain ⟨rfl, small⟩ := eq_ofRat read
    have smaller : Fits (Min.min q rates.maximumRetryAfterMs.1) := by
      rcases min_choice q rates.maximumRetryAfterMs.1 with left | right
      · rw [left]
        exact small
      · rw [right]
        exact bounded
    rw [min_ofRat small rates.maximumRetryAfterMs.2.1, ge_ofRat fits smaller, decide_eq_true_eq]
    have hinted : rates.hinted (some (ofRat q)) = Min.min rates.maximumRetryAfterMs.1 (Max.max 0 q) := by
      simp [RetryRates.hinted, read]
    rw [hinted] at least
    refine le_trans (le_min (min_le_right _ _) ?_) least
    exact (min_le_left _ _).trans (le_max_right _ _)
  | none =>
    cases h with
    | nan => exact (number rfl).elim
    | finite _ _ => cases read
    | infinity =>
      have least : min infinity (ofRat rates.maximumRetryAfterMs.1) = ofRat rates.maximumRetryAfterMs.1 := by
        rw [ofRat_eq bounded]
        rfl
      rw [least, ge_ofRat fits bounded, decide_eq_true_eq]
      exact infinite rfl
    | negativeInfinity =>
      have least : min negativeInfinity (ofRat rates.maximumRetryAfterMs.1) = negativeInfinity := by
        rw [ofRat_eq bounded]
        rfl
      rw [least, ofRat_eq fits]
      rfl

theorem hinted_infinity (rates : RetryRates) : rates.hinted (some infinity) = 0 := by
  have read : ((some infinity : Option ExactNumber).bind value?).getD 0 = (0 : ℚ) := rfl
  rw [RetryRates.hinted, read, max_self, min_eq_right rates.maximumRetryAfterMs.2.1]

/-- The condition is exact: a delay that the remaining time allows is fit to be recorded if and only if it holds. -/
theorem representable_iff {random remaining : ℚ} (first : 1 ≤ attempt) (safe : attempt ≤ JsNumber.maxSafeInteger)
    (low : 0 ≤ random) (high : random < 1) (hint : Option ExactNumber) (left : Fits remaining) :
    rates.Representable attempt random hint remaining ↔
      ∀ delayMs, rates.policy.retryDelay attempt (ofRat random) hint = .ok delayMs →
        (ofRat remaining).lt delayMs = false → rates.Honours hint delayMs := by
  by_cases defined : rates.Defined attempt
  · rw [RetryRates.retryDelay_eq defined first safe low high hint]
    have jitters := rates.jittered_nonneg attempt low high
    have nonneg := le_max_of_le_left jitters (b := rates.jittered attempt random) (c := rates.hinted hint)
    have whole := fits_ceil (RetryRates.larger_fits rates attempt low high hint) nonneg
    have allowed : (ofRat remaining).lt (ofRat ⌈Max.max (rates.jittered attempt random) (rates.hinted hint)⌉) = false ↔
        rates.jittered attempt random ≤ ⌊remaining⌋ ∧ rates.hinted hint ≤ ⌊remaining⌋ := by
      rw [lt_ofRat left whole, decide_eq_false_iff_not, not_lt, ← Int.le_floor, Int.ceil_le, max_le_iff]
    constructor
    · rintro ⟨-, kinds⟩ delayMs same within
      cases same
      obtain ⟨jitterLeft, hintLeft⟩ := allowed.mp within
      obtain ⟨small, smallHint, heard⟩ := (kinds.resolve_left (not_lt.mpr jitterLeft)).resolve_left (not_lt.mpr hintLeft)
      constructor
      · obtain ⟨n, same⟩ := Int.eq_ofNat_of_zero_le (Int.ceil_nonneg nonneg)
        have bound : (n : ℤ) ≤ (JsNumber.maxSafeInteger : ℤ) := by
          rw [← same]
          exact Int.ceil_le.mpr (by exact_mod_cast max_le small smallHint)
        exact ⟨n, by exact_mod_cast bound, by rw [same]; rfl⟩
      · rintro h rfl number
        refine honours_hint whole number ((le_max_right _ _).trans (Int.le_ceil _)) ?_
        rintro rfl
        refine (heard rfl).trans ?_
        exact_mod_cast Int.ceil_le_ceil (le_max_left _ _)
    · intro honours
      refine ⟨defined, ?_⟩
      by_cases jitterLeft : rates.jittered attempt random ≤ ⌊remaining⌋
      · by_cases hintLeft : rates.hinted hint ≤ ⌊remaining⌋
        · obtain ⟨⟨n, bound, same⟩, heard⟩ := honours _ rfl (allowed.mpr ⟨jitterLeft, hintLeft⟩)
          have fits := fits_natCast (bound.trans maxSafeInteger_le_largest)
          have value : Max.max (rates.jittered attempt random) (rates.hinted hint) ≤ JsNumber.maxSafeInteger := by
            refine (Int.le_ceil _).trans ?_
            rw [ofRat_inj fits same]
            exact_mod_cast bound
          refine .inr (.inr ⟨(le_max_left _ _).trans value, (le_max_right _ _).trans value, ?_⟩)
          rintro rfl
          have reached := heard infinity rfl (by simp)
          have bounded := rates.maximumRetryAfterMs.2.2
          have least : min infinity rates.policy.maximumRetryAfterMs = ofRat rates.maximumRetryAfterMs.1 := by
            show min infinity (ofRat _) = _
            rw [ofRat_eq bounded]
            rfl
          rw [least, ge_ofRat whole bounded, decide_eq_true_eq, hinted_infinity, max_eq_left jitters] at reached
          exact reached
        · exact .inr (.inl (not_le.mp hintLeft))
      · exact .inl (not_le.mp jitterLeft)
  · rw [RetryRates.retryDelay_undefined defined first safe low high hint]
    constructor
    · intro representable
      exact (defined representable.1).elim
    · intro honours
      obtain ⟨⟨n, -, same⟩, -⟩ := honours nan rfl (lt_nan _)
      exact (ofRat_ne_nan _ same.symm).elim

/-! ### A whole run -/

/-- `started`, the operation, `scheduled` and the sleep of each attempt, from an attempt on; `exhausted` only at the end. -/
inductive CallOrder : Nat → List RetryCall → Prop where
  | ended (n : Nat) : CallOrder n []
  | unasked (n : Nat) (elapsedMs : ExactNumber) : CallOrder n [.started n elapsedMs]
  | settled (n : Nat) (elapsedMs : ExactNumber) : CallOrder n [.started n elapsedMs, .operation n elapsedMs]
  | exhausted (n : Nat) (elapsedMs laterMs : ExactNumber) (category : RetryReasonCategory) (reason : RetryExhaustionReason) :
      CallOrder n [.started n elapsedMs, .operation n elapsedMs, .exhausted n laterMs category reason]
  | scheduled (n : Nat) (elapsedMs laterMs delayMs : ExactNumber) (category : RetryReasonCategory) :
      CallOrder n [.started n elapsedMs, .operation n elapsedMs, .scheduled n (n + 1) laterMs category delayMs]
  | slept (n : Nat) (elapsedMs laterMs delayMs : ExactNumber) (category : RetryReasonCategory) (calls : List RetryCall)
      (later : CallOrder (n + 1) calls) :
      CallOrder n (.started n elapsedMs :: .operation n elapsedMs ::
        .scheduled n (n + 1) laterMs category delayMs :: .sleep delayMs :: calls)

def RetryCall.isOperation : RetryCall → Bool
  | .operation _ _ => true
  | _ => false

def RetryCall.delay : RetryCall → ℚ
  | .scheduled _ _ _ _ delayMs => delayMs.value?.getD 0
  | _ => 0

def totalDelay (calls : List RetryCall) : ℚ := (calls.map RetryCall.delay).sum

/-- An attempt ends the run, or it was followed by a sleep and a later one is allowed. -/
theorem retryLoop_cons (policy : RetryPolicy) (startedAt : ExactNumber) (attempt : Nat) (round : RetryRound)
    (rest : List RetryRound) :
    (∃ calls ending, retryLoop policy startedAt attempt (round :: rest) = (calls, some ending) ∧
      AttemptCalls policy startedAt attempt round (calls, some ending)) ∨
    ∃ elapsedMs laterMs delayMs failure, Retries policy startedAt attempt round failure laterMs delayMs ∧
      attemptOnce policy startedAt attempt round =
        ([.started attempt elapsedMs, .operation attempt elapsedMs,
          .scheduled attempt (attempt + 1) laterMs failure.reasonCategory delayMs, .sleep delayMs], none) ∧
      retryLoop policy startedAt attempt (round :: rest) =
        (.started attempt elapsedMs :: .operation attempt elapsedMs ::
          .scheduled attempt (attempt + 1) laterMs failure.reasonCategory delayMs :: .sleep delayMs ::
          (retryLoop policy startedAt (attempt + 1) rest).1, (retryLoop policy startedAt (attempt + 1) rest).2) := by
  have once := attemptOnce_calls policy startedAt attempt round
  rw [retryLoop]
  cases made : attemptOnce policy startedAt attempt round with
  | mk calls ending =>
    rw [made] at once
    cases ending with
    | some ending => exact .inl ⟨calls, ending, rfl, once⟩
    | none =>
      cases once with
      | slept elapsedMs laterMs delayMs failure _ retries =>
        exact .inr ⟨elapsedMs, laterMs, delayMs, failure, retries, rfl, rfl⟩

theorem AttemptCalls.ordered {calls : List RetryCall} {ending : Option RetryEnd}
    (made : AttemptCalls policy startedAt attempt round (calls, ending)) : CallOrder attempt calls := by
  cases made with
  | unstarted _ => exact .ended _
  | unasked elapsedMs _ => exact .unasked _ _
  | settled elapsedMs _ => exact .settled _ _
  | exhausted elapsedMs laterMs category reason _ => exact .exhausted _ _ _ _ _
  | scheduled elapsedMs laterMs delayMs failure _ _ => exact .scheduled _ _ _ _ _
  | slept elapsedMs laterMs delayMs failure _ _ => exact .slept _ _ _ _ _ _ (.ended _)

theorem AttemptCalls.operations {calls : List RetryCall} {ending : Option RetryEnd}
    (made : AttemptCalls policy startedAt attempt round (calls, ending)) : calls.countP RetryCall.isOperation ≤ 1 := by
  cases made <;> simp [RetryCall.isOperation, List.countP_cons]

theorem AttemptCalls.scheduled_retries {calls : List RetryCall} {ending : Option RetryEnd} {n next : Nat}
    {laterMs delayMs : ExactNumber} {category : RetryReasonCategory}
    (made : AttemptCalls policy startedAt attempt round (calls, ending))
    (member : .scheduled n next laterMs category delayMs ∈ calls) :
    n = attempt ∧ next = attempt + 1 ∧
      ∃ failure, category = failure.reasonCategory ∧ Retries policy startedAt attempt round failure laterMs delayMs := by
  cases made with
  | unstarted _ => cases member
  | unasked _ _ => simp at member
  | settled _ _ => simp at member
  | exhausted _ _ _ _ _ => simp at member
  | scheduled elapsedMs later delay failure _ retries =>
    simp at member
    obtain ⟨rfl, rfl, rfl, rfl, rfl⟩ := member
    exact ⟨rfl, rfl, failure, rfl, retries⟩
  | slept elapsedMs later delay failure _ retries =>
    simp at member
    obtain ⟨rfl, rfl, rfl, rfl, rfl⟩ := member
    exact ⟨rfl, rfl, failure, rfl, retries⟩

theorem ordered_retryLoop (rounds : List RetryRound) : CallOrder attempt (retryLoop policy startedAt attempt rounds).1 := by
  induction rounds generalizing attempt with
  | nil => exact .ended _
  | cons round rest ih =>
    rcases retryLoop_cons policy startedAt attempt round rest with
      ⟨calls, ending, same, made⟩ | ⟨elapsedMs, laterMs, delayMs, failure, -, -, same⟩
    · rw [same]
      exact made.ordered
    · rw [same]
      exact .slept _ _ _ _ _ _ ih

theorem Retries.below {failure : RetryFailure} {elapsedMs delayMs : ExactNumber}
    (retries : Retries rates.policy startedAt attempt round failure elapsedMs delayMs) :
    attempt + 1 ≤ rates.maximumAttempts := by
  have more := retries.more
  have safe : attempt ≤ JsNumber.maxSafeInteger := by
    have delay := retries.delay
    unfold RetryPolicy.retryDelay at delay
    split at delay
    · cases delay
    · omega
  have fits := fits_natCast (safe.trans maxSafeInteger_le_largest)
  have bounded := fits_natCast (rates.safe.trans maxSafeInteger_le_largest)
  have order : (ofRat attempt).ge (ofRat rates.maximumAttempts) = decide ((rates.maximumAttempts : ℚ) ≤ attempt) :=
    ge_ofRat fits bounded
  rw [show rates.policy.maximumAttempts = ofRat rates.maximumAttempts from rfl, order, decide_eq_false_iff_not, not_le] at more
  exact_mod_cast more

theorem operations_retryLoop (startedAt : ExactNumber) (rounds : List RetryRound) (inside : attempt ≤ rates.maximumAttempts) :
    (retryLoop rates.policy startedAt attempt rounds).1.countP RetryCall.isOperation + attempt
      ≤ rates.maximumAttempts + 1 := by
  induction rounds generalizing attempt with
  | nil =>
    rw [retryLoop, List.countP_nil]
    omega
  | cons round rest ih =>
    rcases retryLoop_cons rates.policy startedAt attempt round rest with
      ⟨calls, ending, same, made⟩ | ⟨elapsedMs, laterMs, delayMs, failure, retries, -, same⟩
    · have := made.operations
      rw [same]
      show calls.countP RetryCall.isOperation + attempt ≤ _
      omega
    · have later := ih retries.below
      rw [same]
      simp only [List.countP_cons, RetryCall.isOperation, Bool.false_eq_true, if_false, if_true] at later ⊢
      omega

theorem ends_retryLoop (rounds : List RetryRound) (inside : attempt ≤ rates.maximumAttempts)
    (enough : rates.maximumAttempts < attempt + rounds.length) :
    ∃ ending, (retryLoop rates.policy startedAt attempt rounds).2 = some ending := by
  induction rounds generalizing attempt with
  | nil =>
    rw [List.length_nil] at enough
    omega
  | cons round rest ih =>
    rcases retryLoop_cons rates.policy startedAt attempt round rest with
      ⟨calls, ending, same, made⟩ | ⟨elapsedMs, laterMs, delayMs, failure, retries, -, same⟩
    · rw [same]
      exact ⟨ending, rfl⟩
    · rw [List.length_cons] at enough
      rw [same]
      exact ih retries.below (by omega)

theorem scheduled_retryLoop {rounds : List RetryRound} {n next : Nat} {laterMs delayMs : ExactNumber}
    {category : RetryReasonCategory}
    (member : .scheduled n next laterMs category delayMs ∈ (retryLoop policy startedAt attempt rounds).1) :
    ∃ i round failure, rounds[i]? = some round ∧ n = attempt + i ∧ next = n + 1 ∧ category = failure.reasonCategory ∧
      Retries policy startedAt n round failure laterMs delayMs := by
  induction rounds generalizing attempt with
  | nil => cases member
  | cons round rest ih =>
    rcases retryLoop_cons policy startedAt attempt round rest with
      ⟨calls, ending, same, made⟩ | ⟨elapsed, later, delay, failure, retries, -, same⟩
    · rw [same] at member
      obtain ⟨rfl, rfl, failure, rfl, retries⟩ := made.scheduled_retries member
      exact ⟨0, round, failure, rfl, rfl, rfl, rfl, retries⟩
    · rw [same] at member
      simp only [List.mem_cons, reduceCtorEq, false_or] at member
      rcases member with here | further
      · cases here
        exact ⟨0, round, failure, rfl, rfl, rfl, rfl, retries⟩
      · obtain ⟨i, round, failure, found, rfl, rfl, rfl, retries⟩ := ih further
        exact ⟨i + 1, round, failure, found, by omega, rfl, rfl, retries⟩

end Handrail.Runtime

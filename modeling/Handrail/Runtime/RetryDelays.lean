import Mathlib.Tactic.Linarith
import Handrail.Runtime.Retry
import Handrail.Validation

/-!
# The delays of an accepted policy

The numbers of a policy that passed its check are rationals within their bounds, and `retryDelay` of such a policy is a formula
over them, unless the exponent reaches an infinity that a zero delay multiplies.
-/

namespace Handrail.Runtime
open Js Conversation ExactNumber

abbrev Milliseconds := {q : ℚ // 0 ≤ q ∧ Fits q}

structure RetryRates where
  maximumAttempts : Nat
  positive : 1 ≤ maximumAttempts
  safe : maximumAttempts ≤ JsNumber.maxSafeInteger
  maximumElapsedMs : Milliseconds
  initialDelayMs : Milliseconds
  backoffMultiplier : {q : ℚ // 1 ≤ q ∧ Fits q}
  maximumDelayMs : Milliseconds
  jitterRatio : {q : ℚ // 0 ≤ q ∧ q ≤ 1}
  maximumRetryAfterMs : Milliseconds

def RetryRates.policy (rates : RetryRates) : RetryPolicy where
  maximumAttempts := .ofRat rates.maximumAttempts
  maximumElapsedMs := .ofRat rates.maximumElapsedMs.1
  initialDelayMs := .ofRat rates.initialDelayMs.1
  backoffMultiplier := .ofRat rates.backoffMultiplier.1
  maximumDelayMs := .ofRat rates.maximumDelayMs.1
  jitterRatio := .ofRat rates.jitterRatio.1
  maximumRetryAfterMs := .ofRat rates.maximumRetryAfterMs.1

theorem maxSafeInteger_le_largest : JsNumber.maxSafeInteger ≤ largestNumber := by decide +kernel

theorem fits_one : Fits 1 := by
  have := fits_natCast (n := 1) ((by decide : 1 ≤ JsNumber.maxSafeInteger).trans maxSafeInteger_le_largest)
  simpa using this

theorem fits_zero : Fits 0 := fits_between fits_one (le_refl 0) zero_le_one

theorem fits_two : Fits 2 := by
  have := fits_natCast (n := 2) ((by decide : 2 ≤ JsNumber.maxSafeInteger).trans maxSafeInteger_le_largest)
  simpa using this

theorem refuse_ok {refused : Bool} {message : String} : RetryPolicy.refuse refused message = .ok () ↔ refused = false := by
  cases refused <;> simp [RetryPolicy.refuse]

theorem nonnegativeFinite_ok {value : ExactNumber} {name : String}
    (accepted : RetryPolicy.nonnegativeFinite value name = .ok ()) : ∃ m : Milliseconds, value = .ofRat m.1 := by
  have passed := refuse_ok.mp accepted
  cases read : value.value? with
  | none => simp [read] at passed
  | some q =>
    obtain ⟨rfl, fits⟩ := eq_ofRat read
    rw [Bool.or_eq_false_iff, lt_ofRat fits fits_zero, decide_eq_false_iff_not, not_lt] at passed
    exact ⟨⟨q, passed.2, fits⟩, rfl⟩

theorem positiveSafeInteger_ok {value : ExactNumber} {name : String}
    (accepted : RetryPolicy.positiveSafeInteger value name = .ok ()) :
    ∃ n : Nat, 1 ≤ n ∧ n ≤ JsNumber.maxSafeInteger ∧ value = .ofRat n := by
  have passed := refuse_ok.mp accepted
  rw [Bool.or_eq_false_iff, Bool.not_eq_false'] at passed
  obtain ⟨whole, positive⟩ := passed
  cases read : value.value? with
  | none => cases value <;> simp_all [isSafeInteger, value?]
  | some q =>
    obtain ⟨rfl, fits⟩ := eq_ofRat read
    rw [lt_ofRat fits fits_one, decide_eq_false_iff_not, not_lt] at positive
    obtain ⟨n, bound, rfl⟩ := (isSafeInteger_ofRat fits (zero_le_one.trans positive)).mp whole
    exact ⟨n, by exact_mod_cast positive, bound, rfl⟩

theorem validatePolicy_ok {policy : RetryPolicy} (accepted : policy.validatePolicy = .ok ()) :
    ∃ rates : RetryRates, policy = rates.policy := by
  simp only [RetryPolicy.validatePolicy, bind_eq_ok] at accepted
  obtain ⟨⟨⟩, attempts, ⟨⟩, elapsed, ⟨⟩, initial, ⟨⟩, multiplier, ⟨⟩, maximum, ⟨⟩, jitter, hint⟩ := accepted
  obtain ⟨n, positive, safe, attempts⟩ := positiveSafeInteger_ok attempts
  obtain ⟨elapsedMs, elapsed⟩ := nonnegativeFinite_ok elapsed
  obtain ⟨initialMs, initial⟩ := nonnegativeFinite_ok initial
  obtain ⟨maximumMs, maximum⟩ := nonnegativeFinite_ok maximum
  obtain ⟨hintMs, hint⟩ := nonnegativeFinite_ok hint
  rw [refuse_ok] at multiplier jitter
  obtain ⟨maximumAttempts, maximumElapsedMs, initialDelayMs, backoffMultiplier, maximumDelayMs, jitterRatio,
    maximumRetryAfterMs⟩ := policy
  cases readMultiplier : backoffMultiplier.value? with
  | none => simp [readMultiplier] at multiplier
  | some m =>
    cases readJitter : jitterRatio.value? with
    | none => simp [readJitter] at jitter
    | some j =>
      obtain ⟨rfl, fitsMultiplier⟩ := eq_ofRat readMultiplier
      obtain ⟨rfl, fitsJitter⟩ := eq_ofRat readJitter
      simp only [Bool.or_eq_false_iff, lt_ofRat fitsMultiplier fits_one, lt_ofRat fitsJitter fits_zero,
        lt_ofRat fits_one fitsJitter, decide_eq_false_iff_not, not_lt] at multiplier jitter
      subst attempts elapsed initial maximum hint
      exact ⟨⟨n, positive, safe, elapsedMs, initialMs, ⟨m, multiplier.2, fitsMultiplier⟩, maximumMs,
        ⟨j, jitter.1.2, jitter.2⟩, hintMs⟩, rfl⟩

theorem createRetryPolicy_ok {options : RetryPolicyOptions} {policy : RetryPolicy}
    (accepted : RetryPolicy.createRetryPolicy options = .ok policy) : ∃ rates : RetryRates, policy = rates.policy := by
  simp only [RetryPolicy.createRetryPolicy, bind_eq_ok] at accepted
  obtain ⟨⟨⟩, valid, same⟩ := accepted
  cases same
  exact validatePolicy_ok valid

/-! ### The delay as a formula -/

namespace RetryRates
variable {rates : RetryRates} {attempt : Nat} {random : ℚ} {hint : Option ExactNumber}

def exponential (rates : RetryRates) (attempt : Nat) : ℚ :=
  if Fits (rates.backoffMultiplier.1 ^ (attempt - 1)) then
    Min.min rates.maximumDelayMs.1 (rates.initialDelayMs.1 * rates.backoffMultiplier.1 ^ (attempt - 1))
  else rates.maximumDelayMs.1

def factor (rates : RetryRates) (random : ℚ) : ℚ := 1 + (random * 2 - 1) * rates.jitterRatio.1

def jittered (rates : RetryRates) (attempt : Nat) (random : ℚ) : ℚ :=
  Min.min rates.maximumDelayMs.1 (rates.exponential attempt * rates.factor random)

def hinted (rates : RetryRates) (hint : Option ExactNumber) : ℚ :=
  Min.min rates.maximumRetryAfterMs.1 (Max.max 0 ((hint.bind value?).getD 0))

def Defined (rates : RetryRates) (attempt : Nat) : Prop :=
  rates.initialDelayMs.1 ≠ 0 ∨ Fits (rates.backoffMultiplier.1 ^ (attempt - 1))

theorem power_pos (rates : RetryRates) (n : Nat) : 0 < rates.backoffMultiplier.1 ^ n :=
  pow_pos (lt_of_lt_of_le zero_lt_one rates.backoffMultiplier.2.1) n

theorem exponential_nonneg (rates : RetryRates) (attempt : Nat) : 0 ≤ rates.exponential attempt := by
  unfold exponential
  split
  · exact le_min rates.maximumDelayMs.2.1 (mul_nonneg rates.initialDelayMs.2.1 (rates.power_pos _).le)
  · exact rates.maximumDelayMs.2.1

theorem exponential_le (rates : RetryRates) (attempt : Nat) : rates.exponential attempt ≤ rates.maximumDelayMs.1 := by
  unfold exponential
  split
  · exact min_le_left _ _
  · exact le_refl _

theorem variation_between (rates : RetryRates) (low : 0 ≤ random) (high : random < 1) :
    -1 ≤ (random * 2 - 1) * rates.jitterRatio.1 ∧ (random * 2 - 1) * rates.jitterRatio.1 ≤ 1 := by
  have centred : |random * 2 - 1| ≤ 1 := abs_le.mpr ⟨by linarith, by linarith⟩
  have ratio : |rates.jitterRatio.1| ≤ 1 := by
    rw [abs_of_nonneg rates.jitterRatio.2.1]
    exact rates.jitterRatio.2.2
  apply abs_le.mp
  rw [abs_mul]
  exact mul_le_one₀ centred (abs_nonneg _) ratio

theorem factor_between (rates : RetryRates) (low : 0 ≤ random) (high : random < 1) :
    0 ≤ rates.factor random ∧ rates.factor random ≤ 2 := by
  obtain ⟨lower, upper⟩ := rates.variation_between low high
  unfold factor
  constructor
  · linarith
  · linarith

theorem jittered_nonneg (rates : RetryRates) (attempt : Nat) (low : 0 ≤ random) (high : random < 1) :
    0 ≤ rates.jittered attempt random :=
  le_min rates.maximumDelayMs.2.1 (mul_nonneg (rates.exponential_nonneg attempt) (rates.factor_between low high).1)

theorem jittered_fits (rates : RetryRates) (attempt : Nat) (low : 0 ≤ random) (high : random < 1) :
    Fits (rates.jittered attempt random) :=
  fits_between rates.maximumDelayMs.2.2 (rates.jittered_nonneg attempt low high) (min_le_left _ _)

theorem hinted_nonneg (rates : RetryRates) (hint : Option ExactNumber) : 0 ≤ rates.hinted hint :=
  le_min rates.maximumRetryAfterMs.2.1 (le_max_left _ _)

theorem hinted_fits (rates : RetryRates) (hint : Option ExactNumber) : Fits (rates.hinted hint) :=
  fits_between rates.maximumRetryAfterMs.2.2 (rates.hinted_nonneg hint) (min_le_left _ _)

theorem exponential_eq (defined : rates.Defined attempt) :
    rates.policy.maximumDelayMs.min (rates.policy.initialDelayMs.mul (rates.policy.backoffMultiplier.pow (attempt - 1)))
      = .ofRat (rates.exponential attempt) := by
  have power : rates.policy.backoffMultiplier.pow (attempt - 1)
      = .ofRat (rates.backoffMultiplier.1 ^ (attempt - 1)) := pow_ofRat rates.backoffMultiplier.2.2 _
  rw [power]
  unfold exponential
  by_cases fits : Fits (rates.backoffMultiplier.1 ^ (attempt - 1))
  · have product : rates.policy.initialDelayMs.mul (ofRat (rates.backoffMultiplier.1 ^ (attempt - 1)))
        = ofRat (rates.initialDelayMs.1 * rates.backoffMultiplier.1 ^ (attempt - 1)) :=
      mul_ofRat rates.initialDelayMs.2.2 fits
    rw [if_pos fits, product]
    exact min_ofRat rates.maximumDelayMs.2.2 (mul_nonneg rates.initialDelayMs.2.1 (rates.power_pos _).le)
  · have nonzero := defined.resolve_right fits
    have positive : 0 < rates.initialDelayMs.1 := lt_of_le_of_ne rates.initialDelayMs.2.1 (Ne.symm nonzero)
    have product : rates.policy.initialDelayMs.mul infinity = infinity :=
      mul_infinity rates.initialDelayMs.2.2 positive
    have maximum : rates.policy.maximumDelayMs.min infinity = ofRat rates.maximumDelayMs.1 :=
      min_infinity rates.maximumDelayMs.2.2
    rw [if_neg fits, ofRat_overflow (rates.power_pos _) fits, product, maximum]

theorem small_fits {q : ℚ} (lower : -2 ≤ q) (upper : q ≤ 2) : Fits q := by
  have two : |(2 : ℚ)| ≤ largestNumber := fits_two
  rw [abs_of_nonneg zero_le_two] at two
  exact (abs_le.mpr ⟨lower, upper⟩).trans two

theorem factor_eq (rates : RetryRates) (low : 0 ≤ random) (high : random < 1) :
    (ofRat 1).add ((((ofRat random).mul (ofRat 2)).sub (ofRat 1)).mul rates.policy.jitterRatio)
      = ofRat (rates.factor random) := by
  obtain ⟨lower, upper⟩ := rates.variation_between low high
  have jitter : rates.policy.jitterRatio = ofRat rates.jitterRatio.1 := rfl
  have fitsJitter : Fits rates.jitterRatio.1 :=
    small_fits (by linarith [rates.jitterRatio.2.1]) (by linarith [rates.jitterRatio.2.2])
  rw [jitter, mul_ofRat (small_fits (by linarith) (by linarith)) fits_two,
    sub_ofRat (small_fits (by linarith) (by linarith)) fits_one,
    mul_ofRat (small_fits (by linarith) (by linarith)) fitsJitter,
    add_ofRat fits_one (small_fits (by linarith) (by linarith))]
  rfl

theorem jittered_eq (defined : rates.Defined attempt) (low : 0 ≤ random) (high : random < 1) :
    (ofRat 0).max (rates.policy.maximumDelayMs.min ((rates.policy.maximumDelayMs.min (rates.policy.initialDelayMs.mul
      (rates.policy.backoffMultiplier.pow (attempt - 1)))).mul ((ofRat 1).add
        ((((ofRat random).mul (ofRat 2)).sub (ofRat 1)).mul rates.policy.jitterRatio))))
      = ofRat (rates.jittered attempt random) := by
  obtain ⟨lower, upper⟩ := rates.factor_between low high
  have exponential := fits_between rates.maximumDelayMs.2.2 (rates.exponential_nonneg attempt) (rates.exponential_le attempt)
  have maximum : rates.policy.maximumDelayMs = ofRat rates.maximumDelayMs.1 := rfl
  rw [exponential_eq defined, factor_eq rates low high, mul_ofRat exponential (small_fits (by linarith) upper), maximum,
    min_ofRat rates.maximumDelayMs.2.2 (mul_nonneg (rates.exponential_nonneg attempt) lower)]
  have fits := rates.jittered_fits attempt low high
  have nonneg := rates.jittered_nonneg attempt low high
  rw [jittered] at fits nonneg
  rw [max_ofRat fits_zero fits, max_eq_right nonneg]
  rfl

theorem hinted_eq (rates : RetryRates) (hint : ExactNumber) :
    rates.policy.maximumRetryAfterMs.min ((ofRat 0).max (if hint.value?.isSome then hint else ofRat 0))
      = ofRat (rates.hinted (some hint)) := by
  have maximum : rates.policy.maximumRetryAfterMs = ofRat rates.maximumRetryAfterMs.1 := rfl
  have read : (if hint.value?.isSome then hint else ofRat 0) = ofRat (hint.value?.getD 0) ∧ Fits (hint.value?.getD 0) := by
    cases value : hint.value? with
    | none => exact ⟨by rfl, fits_zero⟩
    | some q =>
      obtain ⟨same, fits⟩ := eq_ofRat value
      exact ⟨same, fits⟩
  rw [read.1, max_ofRat fits_zero read.2, maximum, min_ofRat rates.maximumRetryAfterMs.2.2 (le_max_left _ _)]
  rfl

theorem larger_fits (rates : RetryRates) (attempt : Nat) (low : 0 ≤ random) (high : random < 1)
    (hint : Option ExactNumber) : Fits (Max.max (rates.jittered attempt random) (rates.hinted hint)) := by
  rcases max_choice (rates.jittered attempt random) (rates.hinted hint) with left | right
  · rw [left]
    exact rates.jittered_fits attempt low high
  · rw [right]
    exact rates.hinted_fits hint

theorem retryDelay_eq (defined : rates.Defined attempt) (first : 1 ≤ attempt) (safe : attempt ≤ JsNumber.maxSafeInteger)
    (low : 0 ≤ random) (high : random < 1) (hint : Option ExactNumber) :
    rates.policy.retryDelay attempt (ofRat random) hint
      = .ok (ofRat ⌈Max.max (rates.jittered attempt random) (rates.hinted hint)⌉) := by
  have fits : Fits random := small_fits (by linarith) (by linarith)
  have drawn : ((ofRat random).value?.isNone || (ofRat random).lt (ofRat 0) || (ofRat random).ge (ofRat 1)) = false := by
    rw [value?_ofRat fits, lt_ofRat fits fits_zero, ge_ofRat fits fits_one]
    simp [low, high]
  have jitters := rates.jittered_fits attempt low high
  have hints := rates.hinted_fits hint
  have larger := rates.larger_fits attempt low high hint
  unfold RetryPolicy.retryDelay
  rw [if_neg (by omega), drawn, if_neg Bool.false_ne_true]
  simp only [jittered_eq defined low high]
  cases hint with
  | none =>
    have none_zero : rates.hinted none = 0 := by simp [hinted, rates.maximumRetryAfterMs.2.1]
    rw [none_zero] at larger ⊢
    rw [max_ofRat jitters fits_zero, ceil_ofRat larger]
  | some hint =>
    simp only [hinted_eq]
    rw [max_ofRat jitters hints, ceil_ofRat larger]

theorem retryDelay_undefined (undefined : ¬rates.Defined attempt) (first : 1 ≤ attempt)
    (safe : attempt ≤ JsNumber.maxSafeInteger) (low : 0 ≤ random) (high : random < 1) (hint : Option ExactNumber) :
    rates.policy.retryDelay attempt (ofRat random) hint = .ok nan := by
  have fits : Fits random := small_fits (by linarith) (by linarith)
  have drawn : ((ofRat random).value?.isNone || (ofRat random).lt (ofRat 0) || (ofRat random).ge (ofRat 1)) = false := by
    rw [value?_ofRat fits, lt_ofRat fits fits_zero, ge_ofRat fits fits_one]
    simp [low, high]
  obtain ⟨zero, large⟩ := not_or.mp undefined
  have power : rates.policy.backoffMultiplier.pow (attempt - 1) = infinity :=
    (pow_ofRat rates.backoffMultiplier.2.2 _).trans (ofRat_overflow (rates.power_pos _) large)
  have initial : rates.policy.initialDelayMs = ofRat 0 := congrArg ofRat (not_not.mp zero)
  unfold RetryPolicy.retryDelay
  rw [if_neg (by omega), drawn, if_neg Bool.false_ne_true]
  simp only [power, initial, zero_mul_infinity, min_nan, nan_mul, max_nan, nan_max]
  rfl

theorem retryDelay_random {policy : RetryPolicy} {drawn delay : ExactNumber}
    (scheduled : policy.retryDelay attempt drawn hint = .ok delay) :
    ∃ random : ℚ, drawn = ofRat random ∧ 0 ≤ random ∧ random < 1 := by
  unfold RetryPolicy.retryDelay at scheduled
  split at scheduled
  · cases scheduled
  · dsimp only at scheduled
    split at scheduled
    · cases scheduled
    · rename_i refused
      rw [Bool.not_eq_true, Bool.or_eq_false_iff, Bool.or_eq_false_iff] at refused
      obtain ⟨⟨finite, low⟩, high⟩ := refused
      cases read : drawn.value? with
      | none => simp [read] at finite
      | some random =>
        obtain ⟨rfl, fits⟩ := eq_ofRat read
        rw [lt_ofRat fits fits_zero, decide_eq_false_iff_not, not_lt] at low
        rw [ge_ofRat fits fits_one, decide_eq_false_iff_not, not_le] at high
        exact ⟨random, rfl, low, high⟩

end RetryRates
end Handrail.Runtime

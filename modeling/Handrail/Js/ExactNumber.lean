import Mathlib.Algebra.Order.Floor.Ring
import Mathlib.Algebra.Order.Ring.Abs
import Mathlib.Data.Rat.Floor

/-!
# Numbers without rounding

JavaScript's numbers with exact rationals for the finite ones: only a result beyond the largest number is replaced, by an
infinity. Every comparison with `NaN` is false and `Math.min`, `Math.max` and `Math.ceil` hand it on.
-/

namespace Js

/-- `Number.MAX_VALUE` -/
@[irreducible] def largestNumber : Nat := 2 ^ 1024 - 2 ^ 971

inductive ExactNumber where
  | nan
  | infinity
  | negativeInfinity
  | finite (value : ℚ) (bounded : |value| ≤ largestNumber)
deriving DecidableEq

namespace ExactNumber

def ofRat (q : ℚ) : ExactNumber :=
  if bounded : |q| ≤ largestNumber then .finite q bounded else if 0 < q then .infinity else .negativeInfinity

/-- The rational of a finite number; `Number.isFinite` holds of those that have one. -/
def value? : ExactNumber → Option ℚ
  | finite value _ => some value
  | _ => none

def neg : ExactNumber → ExactNumber
  | nan => nan
  | infinity => negativeInfinity
  | negativeInfinity => infinity
  | finite value _ => ofRat (-value)

/-- `x + y` -/
def add : ExactNumber → ExactNumber → ExactNumber
  | finite a _, finite b _ => ofRat (a + b)
  | nan, _ | _, nan => nan
  | infinity, negativeInfinity | negativeInfinity, infinity => nan
  | infinity, _ | _, infinity => infinity
  | negativeInfinity, _ | _, negativeInfinity => negativeInfinity

/-- `x - y` -/
def sub (x y : ExactNumber) : ExactNumber := add x (neg y)

/-- The sign of a number other than `NaN`. -/
def sign : ExactNumber → Int
  | nan => 0
  | infinity => 1
  | negativeInfinity => -1
  | finite value _ => if 0 < value then 1 else if value = 0 then 0 else -1

/-- `x * y` -/
def mul : ExactNumber → ExactNumber → ExactNumber
  | finite a _, finite b _ => ofRat (a * b)
  | nan, _ | _, nan => nan
  | x, y =>
    -- An infinite factor: with zero the product is undefined.
    if 0 < x.sign * y.sign then infinity else if x.sign * y.sign = 0 then nan else negativeInfinity

/-- `x ** n` -/
def pow (x : ExactNumber) (n : Nat) : ExactNumber :=
  if n = 0 then ofRat 1
  else match x with
    | nan => nan
    | infinity => infinity
    | negativeInfinity => if n % 2 = 0 then infinity else negativeInfinity
    | finite value _ => ofRat (value ^ n)

/-- `x < y` -/
def lt : ExactNumber → ExactNumber → Bool
  | finite a _, finite b _ => decide (a < b)
  | nan, _ | _, nan => false
  | negativeInfinity, y => y != negativeInfinity
  | x, infinity => x != infinity
  | _, _ => false

/-- `x >= y` -/
def ge : ExactNumber → ExactNumber → Bool
  | finite a _, finite b _ => decide (b ≤ a)
  | nan, _ | _, nan => false
  | x, y => !lt x y

/-- `Math.min(x, y)` -/
def min : ExactNumber → ExactNumber → ExactNumber
  | nan, _ | _, nan => nan
  | x, y => if lt x y then x else y

/-- `Math.max(x, y)` -/
def max : ExactNumber → ExactNumber → ExactNumber
  | nan, _ | _, nan => nan
  | x, y => if lt x y then y else x

/-- `Math.ceil(x)` -/
def ceil : ExactNumber → ExactNumber
  | finite value _ => ofRat ⌈value⌉
  | x => x

/-- `Number.isSafeInteger(x)` -/
def isSafeInteger : ExactNumber → Bool
  | finite value _ => value.isInt && decide (value.num.natAbs ≤ 2 ^ 53 - 1)
  | _ => false

def Fits (q : ℚ) : Prop := |q| ≤ largestNumber

instance (q : ℚ) : Decidable (Fits q) := inferInstanceAs (Decidable (|q| ≤ largestNumber))

variable {a b q : ℚ}

theorem ofRat_eq (fits : Fits q) : ofRat q = finite q fits := dif_pos fits

theorem finite_eq (bounded : |q| ≤ largestNumber) : finite q bounded = ofRat q := (ofRat_eq bounded).symm

theorem ofRat_overflow (positive : 0 < q) (large : ¬Fits q) : ofRat q = infinity := by
  have beyond : ¬|q| ≤ largestNumber := large
  rw [ofRat, dif_neg beyond, if_pos positive]

theorem fits_between (fits : Fits b) (nonneg : 0 ≤ a) (bound : a ≤ b) : Fits a := by
  unfold Fits at *
  rw [abs_of_nonneg nonneg]
  rw [abs_of_nonneg (nonneg.trans bound)] at fits
  exact bound.trans fits

theorem not_fits (nonneg : 0 ≤ q) : ¬Fits q ↔ (largestNumber : ℚ) < q := by
  rw [Fits, abs_of_nonneg nonneg, not_le]

theorem fits_sub (left : Fits a) (right : Fits b) (nonneg : 0 ≤ a) (nonneg' : 0 ≤ b) : Fits (a - b) := by
  unfold Fits at *
  rw [abs_of_nonneg nonneg] at left
  rw [abs_of_nonneg nonneg'] at right
  exact abs_le.mpr ⟨by linarith, by linarith⟩

theorem fits_natCast {n : Nat} (bound : n ≤ largestNumber) : Fits (n : ℚ) := by
  unfold Fits
  rw [abs_of_nonneg (Nat.cast_nonneg n)]
  exact_mod_cast bound

theorem value?_ofRat (fits : Fits q) : (ofRat q).value? = some q := by
  rw [ofRat_eq fits]
  rfl

theorem of_value?_ofRat {r : ℚ} (read : (ofRat q).value? = some r) : Fits q ∧ r = q := by
  by_cases fits : Fits q
  · rw [value?_ofRat fits] at read
    exact ⟨fits, (Option.some.inj read).symm⟩
  · have beyond : ¬|q| ≤ largestNumber := fits
    rw [ofRat, dif_neg beyond] at read
    split at read
    · cases read
    · cases read

theorem ofRat_inj {r : ℚ} (fits : Fits q) (same : ofRat r = ofRat q) : r = q := by
  have read : (ofRat r).value? = some q := by rw [same, value?_ofRat fits]
  exact (of_value?_ofRat read).2.symm

theorem ofRat_ne_nan (q : ℚ) : ofRat q ≠ nan := by
  unfold ofRat
  split
  · simp
  · split <;> simp

theorem eq_ofRat {x : ExactNumber} (read : x.value? = some q) : x = ofRat q ∧ Fits q := by
  cases x with
  | finite value bounded =>
    cases read
    exact ⟨finite_eq bounded, bounded⟩
  | nan => cases read
  | infinity => cases read
  | negativeInfinity => cases read

theorem isSafeInteger_ofRat (fits : Fits q) (nonneg : 0 ≤ q) :
    (ofRat q).isSafeInteger = true ↔ ∃ n : Nat, n ≤ 2 ^ 53 - 1 ∧ q = n := by
  rw [ofRat_eq fits]
  simp only [isSafeInteger, Bool.and_eq_true, decide_eq_true_eq]
  constructor
  · rintro ⟨whole, bound⟩
    refine ⟨q.num.natAbs, bound, ?_⟩
    have positive : (q.num.natAbs : ℤ) = q.num := Int.natAbs_of_nonneg (Rat.num_nonneg.mpr nonneg)
    rw [← Int.cast_natCast, positive]
    exact (Rat.eq_num_of_isInt whole)
  · rintro ⟨n, bound, rfl⟩
    exact ⟨by simp [Rat.isInt], by simpa using bound⟩

theorem add_ofRat (left : Fits a) (right : Fits b) : add (ofRat a) (ofRat b) = ofRat (a + b) := by
  rw [ofRat_eq left, ofRat_eq right]
  rfl

theorem sub_ofRat (left : Fits a) (right : Fits b) : sub (ofRat a) (ofRat b) = ofRat (a - b) := by
  have opposite : Fits (-b) := by
    unfold Fits
    rw [abs_neg]
    exact right
  have negated : neg (ofRat b) = ofRat (-b) := by
    rw [ofRat_eq right]
    rfl
  rw [sub, negated, add_ofRat left opposite, sub_eq_add_neg]

theorem mul_ofRat (left : Fits a) (right : Fits b) : mul (ofRat a) (ofRat b) = ofRat (a * b) := by
  rw [ofRat_eq left, ofRat_eq right]
  rfl

theorem mul_infinity (fits : Fits a) (positive : 0 < a) : mul (ofRat a) infinity = infinity := by
  have sign : (finite a fits).sign * infinity.sign = 1 := by simp only [sign, if_pos positive, mul_one]
  rw [ofRat_eq fits, mul, sign]
  · rfl
  all_goals simp

theorem zero_mul_infinity : mul (ofRat 0) infinity = nan := by
  have fits : Fits 0 := by
    rw [Fits, abs_zero]
    exact Nat.cast_nonneg _
  have sign : (finite 0 fits).sign * infinity.sign = 0 := by simp only [sign, lt_irrefl, if_false, if_true, mul_one]
  rw [ofRat_eq fits, mul, sign]
  · rfl
  all_goals simp

theorem pow_ofRat (fits : Fits a) (n : Nat) : pow (ofRat a) n = ofRat (a ^ n) := by
  rw [ofRat_eq fits]
  unfold pow
  by_cases zero : n = 0
  · rw [if_pos zero, zero, pow_zero]
  · rw [if_neg zero]

theorem lt_ofRat (left : Fits a) (right : Fits b) : lt (ofRat a) (ofRat b) = decide (a < b) := by
  rw [ofRat_eq left, ofRat_eq right]
  rfl

theorem ge_ofRat (left : Fits a) (right : Fits b) : ge (ofRat a) (ofRat b) = decide (b ≤ a) := by
  rw [ofRat_eq left, ofRat_eq right]
  rfl

theorem min_finite (left : Fits a) (right : Fits b) : min (ofRat a) (ofRat b) = if a < b then ofRat a else ofRat b := by
  have order := lt_ofRat left right
  rw [ofRat_eq left, ofRat_eq right] at order ⊢
  show (if lt _ _ = true then _ else _) = _
  rw [order]
  simp only [decide_eq_true_eq]

theorem max_finite (left : Fits a) (right : Fits b) : max (ofRat a) (ofRat b) = if a < b then ofRat b else ofRat a := by
  have order := lt_ofRat left right
  rw [ofRat_eq left, ofRat_eq right] at order ⊢
  show (if lt _ _ = true then _ else _) = _
  rw [order]
  simp only [decide_eq_true_eq]

theorem min_nan (x : ExactNumber) : min x nan = nan := by
  cases x <;> rfl

theorem max_nan (x : ExactNumber) : max x nan = nan := by
  cases x <;> rfl

theorem nan_max (x : ExactNumber) : max nan x = nan := by
  cases x <;> rfl

theorem nan_mul (x : ExactNumber) : mul nan x = nan := by
  cases x <;> rfl

theorem lt_nan (x : ExactNumber) : lt x nan = false := by
  cases x <;> rfl

theorem min_infinity (left : Fits a) : min (ofRat a) infinity = ofRat a := by
  rw [ofRat_eq left]
  rfl

theorem min_ofRat (left : Fits a) (nonneg : 0 ≤ b) : min (ofRat a) (ofRat b) = ofRat (Min.min a b) := by
  by_cases right : Fits b
  · rw [min_finite left right]
    by_cases less : a < b
    · rw [if_pos less, min_eq_left less.le]
    · rw [if_neg less, min_eq_right (not_lt.mp less)]
  · have large := (not_fits nonneg).mp right
    have below : a ≤ b := ((le_abs_self a).trans left).trans large.le
    rw [ofRat_overflow (lt_of_le_of_lt (Nat.cast_nonneg _) large) right, min_eq_left below, min_infinity left]

theorem max_ofRat (left : Fits a) (right : Fits b) : max (ofRat a) (ofRat b) = ofRat (Max.max a b) := by
  rw [max_finite left right]
  by_cases less : a < b
  · rw [if_pos less, max_eq_right less.le]
  · rw [if_neg less, max_eq_left (not_lt.mp less)]

theorem ceil_ofRat (fits : Fits a) : ceil (ofRat a) = ofRat ⌈a⌉ := by
  rw [ofRat_eq fits]
  rfl

theorem fits_ceil (fits : Fits a) (nonneg : 0 ≤ a) : Fits (⌈a⌉ : ℚ) := by
  have bound : a ≤ (largestNumber : ℤ) := by
    have := (le_abs_self a).trans fits
    exact_mod_cast this
  have upper : ⌈a⌉ ≤ (largestNumber : ℤ) := Int.ceil_le.mpr bound
  unfold Fits
  rw [abs_of_nonneg (by exact_mod_cast Int.ceil_nonneg nonneg)]
  exact_mod_cast upper

end ExactNumber
end Js

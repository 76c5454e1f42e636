import Handrail.Js.Text
import Mathlib.Algebra.Ring.Nat

/-!
# Finite JavaScript numbers

`JSON.parse` yields finite numbers and `JSON.stringify` prints the shortest decimal that reads
back as the same number, so a finite number is represented by its sign and that decimal. Negative
zero is a number of its own. Nothing here rounds: the numbers are stored, compared and printed.
-/

namespace Js

/-- `(-1)^negative * digits * 10^exponent`, with no trailing zero in `digits`. -/
structure JsNumber where
  negative : Bool
  digits : Nat
  exponent : Int
  canonical : digits % 10 ≠ 0 ∨ digits = 0 ∧ exponent = 0
deriving DecidableEq, Repr

namespace JsNumber

instance : Inhabited JsNumber := ⟨⟨false, 0, 0, .inr ⟨rfl, rfl⟩⟩⟩

/-- `n` without its trailing zeros, and their number; `fuel` bounds the digits of `n`. -/
def stripZeros : Nat → Nat → Nat × Nat
  | 0, n => (n, 0)
  | fuel + 1, n =>
    if n % 10 = 0 then
      let (digits, zeros) := stripZeros fuel (n / 10)
      (digits, zeros + 1)
    else (n, 0)

theorem stripZeros_value (fuel n : Nat) :
    (stripZeros fuel n).1 * 10 ^ (stripZeros fuel n).2 = n := by
  induction fuel generalizing n with
  | zero => simp [stripZeros]
  | succ fuel ih =>
    unfold stripZeros
    split
    · rename_i divisible
      have step := ih (n / 10)
      simp only [Nat.pow_succ]
      rw [← Nat.mul_assoc, step]
      omega
    · simp

theorem stripZeros_canonical {fuel n : Nat} (positive : 0 < n) (enough : n ≤ fuel) :
    (stripZeros fuel n).1 % 10 ≠ 0 := by
  induction fuel generalizing n with
  | zero => omega
  | succ fuel ih =>
    unfold stripZeros
    split
    · exact ih (by omega) (by omega)
    · assumption

def ofNat (n : Nat) : JsNumber :=
  if zero : n = 0 then ⟨false, 0, 0, .inr ⟨rfl, rfl⟩⟩
  else ⟨false, (stripZeros n n).1, (stripZeros n n).2,
    .inl (stripZeros_canonical (Nat.pos_of_ne_zero zero) (Nat.le_refl n))⟩

def toNat? (x : JsNumber) : Option Nat :=
  if x.digits = 0 then some 0
  else if x.negative || x.exponent < 0 then none
  else some (x.digits * 10 ^ x.exponent.toNat)

@[simp] theorem toNat?_ofNat (n : Nat) : (ofNat n).toNat? = some n := by
  unfold ofNat toNat?
  split
  · simp_all
  · rename_i nonzero
    have value := stripZeros_value n n
    have digits : (stripZeros n n).1 ≠ 0 := by
      intro zero
      rw [zero] at value
      omega
    simp [digits, value]

@[simp] theorem ofNat_inj {m n : Nat} : ofNat m = ofNat n ↔ m = n := by
  refine ⟨fun same => ?_, congrArg ofNat⟩
  have values := congrArg toNat? same
  simpa using values

/-- `Number.MAX_SAFE_INTEGER` -/
def maxSafeInteger : Nat := 9007199254740991

theorem maxSafeInteger_pos : 0 < maxSafeInteger := by decide

/-- `Number.isSafeInteger` for the numbers that are not negative, as their value. -/
def safeNat? (x : JsNumber) : Option Nat :=
  x.toNat?.filter (· ≤ maxSafeInteger)

theorem safeNat?_ofNat {n : Nat} (safe : n ≤ maxSafeInteger) : (ofNat n).safeNat? = some n := by
  simp [safeNat?, safe]

/-- What `JSON.parse(JSON.stringify(x))` makes of a number: negative zero loses its sign. -/
def roundTrip (x : JsNumber) : JsNumber :=
  if x.digits = 0 then ofNat 0 else x

@[simp] theorem roundTrip_ofNat (n : Nat) : (ofNat n).roundTrip = ofNat n := by
  unfold roundTrip
  split
  · rename_i zero
    have value := toNat?_ofNat n
    simp only [toNat?, zero, ↓reduceIte, Option.some.injEq] at value
    rw [value]
  · rfl

@[simp] theorem roundTrip_roundTrip (x : JsNumber) : x.roundTrip.roundTrip = x.roundTrip := by
  by_cases zero : x.digits = 0 <;> simp [roundTrip, zero]

/-- `left === right` -/
def strictEqual (x y : JsNumber) : Bool := x.roundTrip == y.roundTrip

@[simp] theorem toNat?_roundTrip (x : JsNumber) : x.roundTrip.toNat? = x.toNat? := by
  unfold roundTrip
  split
  · rename_i zero
    rw [toNat?_ofNat]
    simp [toNat?, zero]
  · rfl

@[simp] theorem safeNat?_roundTrip (x : JsNumber) : x.roundTrip.safeNat? = x.safeNat? := by
  simp [safeNat?]

/-! ### Text -/

def digitUnits (n : Nat) : List UInt16 := (Nat.toDigits 10 n).map (fun c => c.toNat.toUInt16)

/-- `Number.prototype.toString`, ECMA-262 `Number::toString` in radix ten. -/
def text (x : JsNumber) : JsString :=
  let sign : List UInt16 := if x.negative && x.digits != 0 then (js "-").units else []
  let digits := digitUnits x.digits
  let k := digits.length
  let n : Int := k + x.exponent
  let point := (js ".").units
  let zeros (count : Int) : List UInt16 := List.replicate count.toNat 48
  let body : List UInt16 :=
    if x.digits = 0 then digits
    else if k ≤ n ∧ n ≤ 21 then digits ++ zeros (n - k)
    else if 0 < n ∧ n ≤ 21 then digits.take n.toNat ++ point ++ digits.drop n.toNat
    else if -6 < n ∧ n ≤ 0 then (js "0.").units ++ zeros (-n) ++ digits
    else
      let exponent : List UInt16 :=
        (js "e").units ++ (if 0 < n then (js "+").units else (js "-").units) ++ digitUnits (n - 1).natAbs
      digits.take 1 ++ (if k = 1 then [] else point ++ digits.drop 1) ++ exponent
  ⟨sign ++ body⟩

example : (ofNat 1200).text = js "1200" := by decide +kernel
example : (⟨true, 15, -1, by decide⟩ : JsNumber).text = js "-1.5" := by decide +kernel
example : (⟨false, 25, 20, by decide⟩ : JsNumber).text = js "2.5e+21" := by decide +kernel

end JsNumber

end Js

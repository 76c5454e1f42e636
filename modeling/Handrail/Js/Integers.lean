import Mathlib.Algebra.Ring.Nat
import Mathlib.Data.Nat.Log

/-!
# Integer numbers and their bits

Numbers whose values are integers, as the arithmetic and the bit operators of JavaScript compute with them: a sum or a product
is rounded to the nearest number, and the operators read thirty-two bits of it.
-/

namespace Js

def roundNat (n : Nat) : Nat :=
  let unit := 2 ^ (Nat.log 2 n - 52)
  let quotient := n / unit
  let rest := 2 * (n % unit)
  unit * (if unit < rest ∨ (rest = unit ∧ quotient % 2 = 1) then quotient + 1 else quotient)

def roundInt (z : Int) : Int := if z < 0 then -(roundNat z.natAbs) else roundNat z.natAbs

theorem roundNat_eq {n : Nat} (small : n < 2 ^ 53) : roundNat n = n := by
  have unit : 2 ^ (Nat.log 2 n - 52) = 1 := by
    have few : Nat.log 2 n < 53 := by
      by_cases zero : n = 0
      · rw [zero, Nat.log_zero_right]
        decide
      · exact Nat.log_lt_of_lt_pow zero small
    rw [show Nat.log 2 n - 52 = 0 by omega, Nat.pow_zero]
  unfold roundNat
  rw [unit]
  simp only [Nat.div_one, Nat.mod_one, Nat.mul_zero, Nat.one_mul]
  rw [if_neg (by omega)]

theorem roundInt_eq {z : Int} (small : z.natAbs < 2 ^ 53) : roundInt z = z := by
  unfold roundInt
  rw [roundNat_eq small]
  split
  · omega
  · omega

namespace Number

/-- `x + y` -/
def add (x y : Int) : Int := roundInt (x + y)

/-- `x * y` -/
def mul (x y : Int) : Int := roundInt (x * y)

/-- The thirty-two bits of a number: `ToInt32` and `ToUint32`. -/
def bits (x : Int) : BitVec 32 := BitVec.ofInt 32 x

/-- `x & y` -/
def and (x y : Int) : Int := (bits x &&& bits y).toInt

/-- `x | y` -/
def or (x y : Int) : Int := (bits x ||| bits y).toInt

/-- `x ^ y` -/
def xor (x y : Int) : Int := (bits x ^^^ bits y).toInt

/-- `~x` -/
def not (x : Int) : Int := (~~~bits x).toInt

/-- `x << n` -/
def shiftLeft (x : Int) (n : Nat) : Int := (bits x <<< (n % 32)).toInt

/-- `x >>> n` -/
def shiftRight (x : Int) (n : Nat) : Int := (bits x >>> (n % 32)).toNat

/-! ### Bits of results -/

structure Holds (x : Int) (b : BitVec 32) (terms : Nat) : Prop where
  bits : bits x = b
  bound : x.natAbs ≤ terms * 2 ^ 32

variable {x y : Int} {b c : BitVec 32} {m n : Nat}

theorem holds_toInt (b : BitVec 32) : Holds b.toInt b 1 := by
  refine ⟨BitVec.ofInt_toInt, ?_⟩
  have low := BitVec.le_toInt b
  have high := BitVec.toInt_lt (x := b)
  omega

theorem holds_toNat (b : BitVec 32) : Holds b.toNat b 1 := by
  refine ⟨?_, ?_⟩
  · rw [Number.bits, BitVec.ofInt_natCast, BitVec.ofNat_toNat, BitVec.setWidth_eq]
  · have high := b.isLt
    omega

theorem Holds.add (left : Holds x b m) (right : Holds y c n) (few : m + n < 2 ^ 20) : Holds (add x y) (b + c) (m + n) := by
  have bound : (x + y).natAbs ≤ (m + n) * 2 ^ 32 := by
    have one := left.bound
    have two := right.bound
    have both := Int.natAbs_add_le x y
    omega
  have exact_ : Number.add x y = x + y := roundInt_eq (by omega)
  refine ⟨?_, exact_ ▸ bound⟩
  rw [exact_, Number.bits, BitVec.ofInt_add]
  exact congrArg₂ _ left.bits right.bits

theorem Holds.and (left : Holds x b m) (right : Holds y c n) : Holds (and x y) (b &&& c) 1 := by
  rw [Number.and, left.bits, right.bits]
  exact holds_toInt _

theorem Holds.or (left : Holds x b m) (right : Holds y c n) : Holds (or x y) (b ||| c) 1 := by
  rw [Number.or, left.bits, right.bits]
  exact holds_toInt _

theorem Holds.xor (left : Holds x b m) (right : Holds y c n) : Holds (xor x y) (b ^^^ c) 1 := by
  rw [Number.xor, left.bits, right.bits]
  exact holds_toInt _

theorem Holds.not (one : Holds x b m) : Holds (not x) (~~~b) 1 := by
  rw [Number.not, one.bits]
  exact holds_toInt _

theorem Holds.shiftLeft (one : Holds x b m) (small : n < 32) : Holds (shiftLeft x n) (b <<< n) 1 := by
  rw [Number.shiftLeft, one.bits, Nat.mod_eq_of_lt small]
  exact holds_toInt _

theorem Holds.shiftRight (one : Holds x b m) (small : n < 32) : Holds (shiftRight x n) (b >>> n) 1 := by
  rw [Number.shiftRight, one.bits, Nat.mod_eq_of_lt small]
  exact holds_toNat _

theorem Holds.truncate (one : Holds x b m) : Number.shiftRight x 0 = b.toNat := by
  rw [Number.shiftRight, one.bits, Nat.zero_mod, BitVec.ushiftRight_zero]

end Number

end Js

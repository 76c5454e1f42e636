import Mathlib.Algebra.Ring.Nat
import Mathlib.Data.Nat.NthRoot.Defs

/-!
# SHA-256

The hash function of FIPS 180-4, for messages that are whole bytes. Its constants are the fractions of roots of primes.
-/

namespace Fips180

abbrev Word := BitVec 32

/-! ### Functions and constants -/

def Ch (x y z : Word) : Word := (x &&& y) ^^^ (~~~x &&& z)

def Maj (x y z : Word) : Word := (x &&& y) ^^^ (x &&& z) ^^^ (y &&& z)

def bigSigma0 (x : Word) : Word := x.rotateRight 2 ^^^ x.rotateRight 13 ^^^ x.rotateRight 22

def bigSigma1 (x : Word) : Word := x.rotateRight 6 ^^^ x.rotateRight 11 ^^^ x.rotateRight 25

def smallSigma0 (x : Word) : Word := x.rotateRight 7 ^^^ x.rotateRight 18 ^^^ x >>> 3

def smallSigma1 (x : Word) : Word := x.rotateRight 17 ^^^ x.rotateRight 19 ^^^ x >>> 10

def primes : List Nat := [
  2, 3, 5, 7, 11, 13, 17, 19, 23, 29, 31, 37, 41, 43, 47, 53, 59, 61, 67, 71, 73, 79,
  83, 89, 97, 101, 103, 107, 109, 113, 127, 131, 137, 139, 149, 151, 157, 163, 167, 173, 179, 181, 191, 193,
  197, 199, 211, 223, 227, 229, 233, 239, 241, 251, 257, 263, 269, 271, 277, 281, 283, 293, 307, 311]

/-- The first thirty-two bits of the fraction of the `n`-th root of `p`. -/
def rootFraction (n p : Nat) : Word := BitVec.ofNat 32 (Nat.nthRoot n (p * 2 ^ (32 * n)))

/-- `K`: from the cube roots. -/
def constants : List Word := primes.map (rootFraction 3)

/-- `H⁽⁰⁾`: from the square roots of the first eight. -/
def initialHash : List Word := (primes.take 8).map (rootFraction 2)

/-! ### Preprocessing -/

def bigEndian (bytes n : Nat) : List UInt8 :=
  (List.range bytes).reverse.map fun i => UInt8.ofNat (n >>> (8 * i))

/-- A one bit, the fewest zero bits that leave sixty-four bits of the last block, and the length in bits. -/
def pad (message : List UInt8) : List UInt8 :=
  message ++ 0x80 :: List.replicate ((119 - message.length % 64) % 64) 0 ++ bigEndian 8 (8 * message.length)

def wordOf (bytes : List UInt8) : Word := BitVec.ofNat 32 (bytes.foldl (fun n byte => 256 * n + byte.toNat) 0)

/-- `M`: word `t` of block `i`. -/
def messageWord (padded : List UInt8) (i t : Nat) : Word := wordOf ((padded.drop (64 * i + 4 * t)).take 4)

/-! ### Computation -/

/-- `W`, the message schedule of a block. -/
def schedule (M : Nat → Word) (t : Nat) : Word :=
  if t < 16 then M t
  else smallSigma1 (schedule M (t - 2)) + schedule M (t - 7) + smallSigma0 (schedule M (t - 15)) + schedule M (t - 16)

structure Work where
  a : Word
  b : Word
  c : Word
  d : Word
  e : Word
  f : Word
  g : Word
  h : Word

def round (W : Nat → Word) (v : Work) (t : Nat) : Work :=
  let T1 := v.h + bigSigma1 v.e + Ch v.e v.f v.g + constants.getD t 0 + W t
  let T2 := bigSigma0 v.a + Maj v.a v.b v.c
  { a := T1 + T2, b := v.a, c := v.b, d := v.c, e := v.d + T1, f := v.e, g := v.f, h := v.g }

def Work.words (v : Work) : List Word := [v.a, v.b, v.c, v.d, v.e, v.f, v.g, v.h]

def Work.ofHash (hash : List Word) : Work where
  a := hash.getD 0 0
  b := hash.getD 1 0
  c := hash.getD 2 0
  d := hash.getD 3 0
  e := hash.getD 4 0
  f := hash.getD 5 0
  g := hash.getD 6 0
  h := hash.getD 7 0

def compress (M : Nat → Word) (hash : List Word) : List Word :=
  List.zipWith (· + ·) hash ((List.range 64).foldl (round (schedule M)) (.ofHash hash)).words

/-- `H⁽ᴺ⁾` -/
def sha256 (message : List UInt8) : List Word :=
  (List.range ((pad message).length / 64)).foldl (fun hash i => compress (messageWord (pad message) i) hash) initialHash

/-! ### Padding -/

@[simp] theorem length_bigEndian (bytes n : Nat) : (bigEndian bytes n).length = bytes := by simp [bigEndian]

theorem schedule_message (M : Nat → Word) {t : Nat} (early : t < 16) : schedule M t = M t := by
  rw [schedule, if_pos early]

theorem schedule_later (M : Nat → Word) {t : Nat} (late : 16 ≤ t) :
    schedule M t = smallSigma1 (schedule M (t - 2)) + schedule M (t - 7) + smallSigma0 (schedule M (t - 15)) +
      schedule M (t - 16) := by
  rw [schedule, if_neg (by omega)]

end Fips180

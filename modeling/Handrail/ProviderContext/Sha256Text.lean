import Handrail.Hash.Fips180
import Handrail.Js.Integers
import Handrail.Js.Utf8

/-!
# The digest of a text

`sha256Text` of `provider-context.ts`, with its numbers as numbers: sums are rounded, the bit operators are signed, and
`>>> 0` and the typed arrays truncate. For a text of fewer than 2⁵⁰ bytes it is SHA-256.
-/

namespace Handrail.ProviderContext
open Js Js.Number

/-! ### `sha256Text` -/

def sha256Constants : List (BitVec 32) := [
  0x428a2f98, 0x71374491, 0xb5c0fbcf, 0xe9b5dba5, 0x3956c25b, 0x59f111f1, 0x923f82a4, 0xab1c5ed5,
  0xd807aa98, 0x12835b01, 0x243185be, 0x550c7dc3, 0x72be5d74, 0x80deb1fe, 0x9bdc06a7, 0xc19bf174,
  0xe49b69c1, 0xefbe4786, 0x0fc19dc6, 0x240ca1cc, 0x2de92c6f, 0x4a7484aa, 0x5cb0a9dc, 0x76f988da,
  0x983e5152, 0xa831c66d, 0xb00327c8, 0xbf597fc7, 0xc6e00bf3, 0xd5a79147, 0x06ca6351, 0x14292967,
  0x27b70a85, 0x2e1b2138, 0x4d2c6dfc, 0x53380d13, 0x650a7354, 0x766a0abb, 0x81c2c92e, 0x92722c85,
  0xa2bfe8a1, 0xa81a664b, 0xc24b8b70, 0xc76c51a3, 0xd192e819, 0xd6990624, 0xf40e3585, 0x106aa070,
  0x19a4c116, 0x1e376c08, 0x2748774c, 0x34b0bcb5, 0x391c0cb3, 0x4ed8aa4a, 0x5b9cca4f, 0x682e6ff3,
  0x748f82ee, 0x78a5636f, 0x84c87814, 0x8cc70208, 0x90befffa, 0xa4506ceb, 0xbef9a3f7, 0xc67178f2]

def sha256Initial : List (BitVec 32) := [
  0x6a09e667, 0xbb67ae85, 0x3c6ef372, 0xa54ff53a, 0x510e527f, 0x9b05688c, 0x1f83d9ab, 0x5be0cd19]

/-- An element of a `Uint32Array`. -/
def element (words : List (BitVec 32)) (index : Nat) : Int := (words.getD index 0).toNat

/-- `words[index] = value` in a `Uint32Array` -/
def setElement (words : List (BitVec 32)) (index : Nat) (value : Int) : List (BitVec 32) := words.set index (bits value)

/-- `view.setUint32(offset, value)` -/
def setUint32 (view : List UInt8) (offset : Nat) (value : Int) : List UInt8 :=
  let n := (bits value).toNat
  view.take offset ++ [(n / 2 ^ 24).toUInt8, (n / 2 ^ 16).toUInt8, (n / 2 ^ 8).toUInt8, n.toUInt8] ++ view.drop (offset + 4)

/-- `view.getUint32(offset)` -/
def getUint32 (view : List UInt8) (offset : Nat) : Int :=
  ((view.getD offset 0).toNat * 2 ^ 24 + (view.getD (offset + 1) 0).toNat * 2 ^ 16 +
    (view.getD (offset + 2) 0).toNat * 2 ^ 8 + (view.getD (offset + 3) 0).toNat : Nat)

def padBytes (bytes : List UInt8) : List UInt8 :=
  let bitLength := mul bytes.length 8
  let paddedLength := (bytes.length + 9 + 63) / 64 * 64
  let padded := (bytes ++ List.replicate (paddedLength - bytes.length) 0).set bytes.length 0x80
  let view := setUint32 padded (paddedLength - 8) (bitLength / 0x100000000)
  setUint32 view (paddedLength - 4) (shiftRight bitLength 0)

def rotate (x : Int) (bits : Nat) : Int := or (shiftRight x bits) (shiftLeft x (32 - bits))

/-- The first loop over `w`. -/
def loadWords (padded : List UInt8) (offset : Nat) (w : List (BitVec 32)) : List (BitVec 32) :=
  (List.range 16).foldl (fun w index => setElement w index (getUint32 padded (offset + index * 4))) w

def extendWord (w : List (BitVec 32)) (index : Nat) : List (BitVec 32) :=
  let x := element w (index - 15)
  let y := element w (index - 2)
  let s0 := xor (xor (rotate x 7) (rotate x 18)) (shiftRight x 3)
  let s1 := xor (xor (rotate y 17) (rotate y 19)) (shiftRight y 10)
  setElement w index (shiftRight (add (add (add (element w (index - 16)) s0) (element w (index - 7))) s1) 0)

/-- The second loop over `w`. -/
def extendWords (w : List (BitVec 32)) : List (BitVec 32) := (List.range' 16 48).foldl extendWord w

/-- The variables `a` to `hh`. -/
structure Variables where
  a : Int
  b : Int
  c : Int
  d : Int
  e : Int
  f : Int
  g : Int
  hh : Int

def runRound (w : List (BitVec 32)) (v : Variables) (index : Nat) : Variables :=
  let s1 := xor (xor (rotate v.e 6) (rotate v.e 11)) (rotate v.e 25)
  let choice := xor (and v.e v.f) (and (not v.e) v.g)
  let t1 := shiftRight (add (add (add (add v.hh s1) choice) (element sha256Constants index)) (element w index)) 0
  let s0 := xor (xor (rotate v.a 2) (rotate v.a 13)) (rotate v.a 22)
  let majority := xor (xor (and v.a v.b) (and v.a v.c)) (and v.b v.c)
  let t2 := shiftRight (add s0 majority) 0
  { hh := v.g, g := v.f, f := v.e, e := shiftRight (add v.d t1) 0
    d := v.c, c := v.b, b := v.a, a := shiftRight (add t1 t2) 0 }

def runRounds (w : List (BitVec 32)) (v : Variables) : Variables := (List.range 64).foldl (runRound w) v

/-- One turn of the loop over the blocks, with `h` and `w` as the block before has left them. -/
def hashBlock (padded : List UInt8) (h w : List (BitVec 32)) (offset : Nat) : List (BitVec 32) × List (BitVec 32) :=
  let w := extendWords (loadWords padded offset w)
  let v := runRounds w
    ⟨element h 0, element h 1, element h 2, element h 3, element h 4, element h 5, element h 6, element h 7⟩
  let sum (index : Nat) (value : Int) : BitVec 32 := bits (shiftRight (add (element h index) value) 0)
  ([sum 0 v.a, sum 1 v.b, sum 2 v.c, sum 3 v.d, sum 4 v.e, sum 5 v.f, sum 6 v.g, sum 7 v.hh], w)

/-- `Number.prototype.toString(16)` of a natural number, `fuel` bounding its digits. -/
def hexText : Nat → Nat → List UInt16
  | 0, _ => []
  | fuel + 1, n => if n < 16 then [hexUnit n.toUInt16] else hexText fuel (n / 16) ++ [hexUnit (n % 16).toUInt16]

/-- `part.toString(16).padStart(8, "0")` -/
def hexWord (part : BitVec 32) : List UInt16 :=
  let text := hexText 8 part.toNat
  List.replicate (8 - text.length) 48 ++ text

def sha256Text (value : JsString) : JsString :=
  let padded := padBytes (encodeUtf8 value)
  let blocks := (List.range (padded.length / 64)).map fun block => block * 64
  let h := (blocks.foldl (fun s offset => hashBlock padded s.1 s.2 offset)
    (sha256Initial, List.replicate 64 0)).1
  ⟨h.flatMap hexWord⟩

end Handrail.ProviderContext

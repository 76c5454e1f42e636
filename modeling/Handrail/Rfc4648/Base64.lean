import Handrail.Js.Text

/-!
# Base 64

The encoding of section 4 of RFC 4648 from its reader's side: six bits a character, four characters a group, and padding in
the last group only, whose unused bits are zero.
-/

namespace Rfc4648
open Js

def sextet (c : UInt16) : Option Nat :=
  if 65 ≤ c && c ≤ 90 then some (c.toNat - 65)
  else if 97 ≤ c && c ≤ 122 then some (c.toNat - 71)
  else if 48 ≤ c && c ≤ 57 then some (c.toNat + 4)
  else if c = 43 then some 62
  else if c = 47 then some 63
  else none

def wholeGroup (a b c d : UInt16) : Option (List UInt8) := do
  let a ← sextet a
  let b ← sextet b
  let c ← sextet c
  let d ← sextet d
  return [(4 * a + b / 16).toUInt8, (16 * (b % 16) + c / 4).toUInt8, (64 * (c % 4) + d).toUInt8]

def lastGroup (a b c d : UInt16) : Option (List UInt8) :=
  if d ≠ 61 then wholeGroup a b c d
  else if c ≠ 61 then do
    let a ← sextet a
    let b ← sextet b
    let c ← sextet c
    if c % 4 = 0 then return [(4 * a + b / 16).toUInt8, (16 * (b % 16) + c / 4).toUInt8] else none
  else do
    let a ← sextet a
    let b ← sextet b
    if b % 16 = 0 then return [(4 * a + b / 16).toUInt8] else none

def decodeUnits : List UInt16 → Option (List UInt8)
  | [] => some []
  | [a, b, c, d] => lastGroup a b c d
  | a :: b :: c :: d :: rest => do
    let octets ← wholeGroup a b c d
    let others ← decodeUnits rest
    return octets ++ others
  | _ => none

def decode (text : JsString) : Option (List UInt8) := decodeUnits text.units

example : decode (js "aGFuZHJhaWw=") = some [104, 97, 110, 100, 114, 97, 105, 108] := by decide +kernel
example : decode (js "aB==") = none := by decide +kernel

theorem decodeUnits_group {a b c d : UInt16} {rest : List UInt16} (more : rest ≠ []) : decodeUnits (a :: b :: c :: d :: rest) =
    (wholeGroup a b c d).bind fun octets => (decodeUnits rest).map (octets ++ ·) := by
  cases rest with
  | nil => exact (more rfl).elim
  | cons e rest =>
    rw [decodeUnits]
    · cases wholeGroup a b c d with
      | none => rfl
      | some octets => cases decodeUnits (e :: rest) <;> rfl
    · simp

end Rfc4648

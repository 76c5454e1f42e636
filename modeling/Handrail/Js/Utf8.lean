import Handrail.Js.JsonText

/-!
# UTF-8

`new TextEncoder().encode(text)`: the code points of a string, with the replacement character for a surrogate that stands
alone.
-/

namespace Js

def lonePoint (c : UInt16) : Nat :=
  if isLeadingSurrogate c || isTrailingSurrogate c then 0xfffd else c.toNat

def codePoints : List UInt16 → List Nat
  | [] => []
  | [c] => [lonePoint c]
  | c :: d :: rest =>
    if isLeadingSurrogate c && isTrailingSurrogate d then
      (0x10000 + (c.toNat - 0xd800) * 0x400 + (d.toNat - 0xdc00)) :: codePoints rest
    else lonePoint c :: codePoints (d :: rest)

def encodePoint (n : Nat) : List UInt8 :=
  if n < 0x80 then [n.toUInt8]
  else if n < 0x800 then [(0xc0 + n / 0x40).toUInt8, (0x80 + n % 0x40).toUInt8]
  else if n < 0x10000 then [(0xe0 + n / 0x1000).toUInt8, (0x80 + n / 0x40 % 0x40).toUInt8, (0x80 + n % 0x40).toUInt8]
  else [(0xf0 + n / 0x40000).toUInt8, (0x80 + n / 0x1000 % 0x40).toUInt8, (0x80 + n / 0x40 % 0x40).toUInt8,
    (0x80 + n % 0x40).toUInt8]

def encodeUtf8 (text : JsString) : List UInt8 := (codePoints text.units).flatMap encodePoint

end Js

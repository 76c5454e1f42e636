import Handrail.Js.UriDecoding
import Mathlib.Data.List.DropRight

/-!
# Hosts of web URLs

The hosts of the URL standard: what its host parser makes of a text, and how a host is written again. Domains are mapped to
ASCII and IPv6 literals read by the platform.
-/

namespace Whatwg
open Js

/-! ### IPv4 addresses -/

def readRadix (radix : Nat) (units : List UInt16) : Option Nat :=
  (units.mapM fun c => (hexDigit? c).filter (· < radix)).map fun digits => digits.foldl
    (fun value digit => value * radix + digit) 0

/-- The IPv4 number parser: decimal, octal after `0`, hexadecimal after `0x`. -/
def parseIpv4Number : List UInt16 → Option Nat
  | [] => none
  | [c] => readRadix 10 [c]
  | c :: d :: rest =>
    if c = 48 then if d = 120 ∨ d = 88 then readRadix 16 rest else readRadix 8 (d :: rest) else readRadix 10 (c :: d :: rest)

def ipv4Parts (text : JsString) : List (List UInt16) :=
  let parts := text.units.splitOn 46
  if parts.getLast? = some [] then parts.dropLast else parts

def isDigits (part : List UInt16) : Bool := part.all fun c => 48 ≤ c && c ≤ 57

def isNumberPart (part : List UInt16) : Bool := (part != [] && isDigits part) || (parseIpv4Number part).isSome

def endsInANumber (text : JsString) : Bool := (ipv4Parts text).getLast?.any isNumberPart

abbrev Ipv4 := Fin (2 ^ 32)

def octets (address : Nat) : List Nat := [address / 2 ^ 24, address / 2 ^ 16 % 256, address / 2 ^ 8 % 256, address % 256]

def ipv4Value (numbers : List Nat) (last : Nat) : Nat :=
  (numbers.zipIdx.map fun number => number.1 * 256 ^ (3 - number.2)).sum + last

def parseIpv4 (text : JsString) : Option Ipv4 :=
  if 4 < (ipv4Parts text).length then none
  else do
    let numbers ← (ipv4Parts text).mapM parseIpv4Number
    let last ← numbers.getLast?
    if numbers.dropLast.any (255 < ·) ∨ 256 ^ (5 - numbers.length) ≤ last then none
    else
      let value := ipv4Value numbers.dropLast last
      if fits : value < 2 ^ 32 then some ⟨value, fits⟩ else none

def octetText (octet : Nat) : List UInt16 := JsNumber.digitUnits octet

def serializeIpv4 (address : Ipv4) : JsString := ⟨[46].intercalate ((octets address).map octetText)⟩

example : parseIpv4 (js "0x7f.1.") = some 0x7f000001 := by decide +kernel
example : endsInANumber (js "1.2.3.08") = true ∧ endsInANumber (js "127.0.0.1..") = false := by decide +kernel

/-! ### IPv6 addresses -/

structure Ipv6 where
  pieces : List Nat
  length_eq : pieces.length = 8
  small : ∀ piece ∈ pieces, piece < 0x10000
deriving DecidableEq

def Ipv6.value (address : Ipv6) : Nat := address.pieces.foldl (fun value piece => value * 0x10000 + piece) 0

def pieceDigits (piece : Nat) : List Nat :=
  [piece / 0x1000, piece / 0x100 % 16, piece / 0x10 % 16].dropWhile (· == 0) ++ [piece % 16]

def pieceText (piece : Nat) : List UInt16 := (pieceDigits piece).map fun digit => hexUnit digit.toUInt16

def piecesText (pieces : List Nat) : List UInt16 := [58].intercalate (pieces.map pieceText)

def zerosAt (pieces : List Nat) (index : Nat) : Nat := ((pieces.drop index).takeWhile (· == 0)).length

def compress (pieces : List Nat) : Option (Nat × Nat) :=
  (List.range pieces.length).foldl (fun best index =>
    if (best.elim 1 Prod.snd) < zerosAt pieces index then some (index, zerosAt pieces index) else best) none

def compressedText (pieces : List Nat) : Option (Nat × Nat) → List UInt16
  | none => piecesText pieces
  | some (index, length) => piecesText (pieces.take index) ++ [58, 58] ++ piecesText (pieces.drop (index + length))

def serializeIpv6 (address : Ipv6) : JsString := ⟨[91] ++ compressedText address.pieces (compress address.pieces) ++ [93]⟩

example : serializeIpv6 ⟨[0x2001, 0xdb8, 0, 0, 1, 0, 0, 1], by decide, by decide⟩ = js "[2001:db8::1:0:0:1]" := by decide +kernel

/-! ### Hosts -/

inductive Host where
  | domain (text : JsString)
  | ipv4 (address : Ipv4)
  | ipv6 (address : Ipv6)
deriving DecidableEq

def Host.text : Host → JsString
  | .domain text => text
  | .ipv4 address => serializeIpv4 address
  | .ipv6 address => serializeIpv6 address

class HostPlatform where
  /-- Percent-decoding and domain to ASCII, `none` where it fails or leaves a forbidden code point. -/
  domainToAscii : JsString → Option JsString
  /-- The IPv6 parser on a text in brackets. -/
  parseIpv6 : JsString → Option Ipv6

def parseHost [HostPlatform] (text : JsString) : Option Host :=
  if text.units.head? = some 91 then (HostPlatform.parseIpv6 text).map .ipv6
  else
    match HostPlatform.domainToAscii text with
    | none => none
    | some ascii => if endsInANumber ascii then (parseIpv4 ascii).map .ipv4 else some (.domain ascii)

class HostStandard [HostPlatform] : Prop where
  nothing : HostPlatform.domainToAscii JsString.empty = none
  given : ∀ text, HostPlatform.domainToAscii text ≠ some JsString.empty
  /-- What was mapped is mapped to itself. -/
  again : ∀ text ascii, HostPlatform.domainToAscii text = some ascii → HostPlatform.domainToAscii ascii = some ascii
  /-- A domain is mapped label by label, an empty last label included. -/
  dot : ∀ text ascii, HostPlatform.domainToAscii text = some ⟨ascii.units ++ [46]⟩ → ascii ≠ JsString.empty →
    HostPlatform.domainToAscii ascii = some ascii
  /-- No colon, no bracket, no space, nothing beyond ASCII and no upper case is left. -/
  plain : ∀ text ascii, HostPlatform.domainToAscii text = some ascii →
    ∀ c ∈ ascii.units, 0x20 < c ∧ c < 0x7f ∧ c ≠ 58 ∧ c ≠ 91 ∧ ¬(65 ≤ c ∧ c ≤ 90)
  digits : ∀ text : JsString, text ≠ JsString.empty → (∀ c ∈ text.units, c = 46 ∨ (48 ≤ c ∧ c ≤ 57)) →
    HostPlatform.domainToAscii text = some text
  literal : ∀ address, HostPlatform.parseIpv6 (serializeIpv6 address) = some address

end Whatwg

import Handrail.Js.Json

/-!
# `JSON.stringify`

The text of a JSON value without a replacer and without spaces, ECMA-262 `SerializeJSONProperty`.
-/

namespace Js

def isLeadingSurrogate (c : UInt16) : Bool := 0xd800 ≤ c && c ≤ 0xdbff

def isTrailingSurrogate (c : UInt16) : Bool := 0xdc00 ≤ c && c ≤ 0xdfff

def hexUnit (n : UInt16) : UInt16 := if n < 10 then 48 + n else 87 + n

/-- `\uXXXX` -/
def unicodeEscape (c : UInt16) : List UInt16 :=
  [92, 117, hexUnit (c >>> 12), hexUnit (c >>> 8 &&& 15), hexUnit (c >>> 4 &&& 15), hexUnit (c &&& 15)]

def escapeUnit (c : UInt16) : List UInt16 :=
  if c = 8 then [92, 98]
  else if c = 9 then [92, 116]
  else if c = 10 then [92, 110]
  else if c = 12 then [92, 102]
  else if c = 13 then [92, 114]
  else if c = 34 then [92, 34]
  else if c = 92 then [92, 92]
  else if c < 32 || isLeadingSurrogate c || isTrailingSurrogate c then unicodeEscape c
  else [c]

/-- `QuoteJSONString`, without the quotation marks. -/
def escapeUnits : List UInt16 → List UInt16
  | [] => []
  | [c] => escapeUnit c
  | c :: d :: rest =>
    if isLeadingSurrogate c && isTrailingSurrogate d then c :: d :: escapeUnits rest
    else escapeUnit c ++ escapeUnits (d :: rest)

/-- `QuoteJSONString` -/
def quoteUnits (s : JsString) : List UInt16 := 34 :: escapeUnits s.units ++ [34]

mutual
/-- The code units of `JSON.stringify(value)`. -/
def textUnits : Json → List UInt16
  | .null => (js "null").units
  | .bool true => (js "true").units
  | .bool false => (js "false").units
  | .num n => n.text.units
  | .str s => quoteUnits s
  | .arr items => 91 :: itemUnits true items
  | .obj fields => 123 :: fieldUnits true fields
termination_by structural j => j
def itemUnits : Bool → List Json → List UInt16
  | _, [] => [93]
  | first, item :: rest => (if first then [] else [44]) ++ textUnits item ++ itemUnits false rest
termination_by structural _ items => items
def fieldUnits : Bool → Fields → List UInt16
  | _, [] => [125]
  | first, (key, value) :: rest =>
    (if first then [] else [44]) ++ quoteUnits key ++ [58] ++ textUnits value ++ fieldUnits false rest
termination_by structural _ fields => fields
end

/-- `JSON.stringify(value)` -/
def stringify (j : Json) : JsString := ⟨textUnits j⟩

example : stringify (.object [("a", .num (.ofNat 10)), ("b", .arr [.null, .str (js "x\n")])]) =
    js "\x7b\"a\":10,\"b\":[null,\"x\\n\"]\x7d" := by decide +kernel

/-! ### The text does not show negative zero -/

theorem JsNumber.text_roundTrip (x : JsNumber) : x.roundTrip.text = x.text := by
  unfold JsNumber.roundTrip
  split
  · rename_i zero
    simp [JsNumber.text, JsNumber.ofNat, zero]
  · rfl

theorem textUnits_roundTrip (j : Json) : textUnits j.roundTrip = textUnits j := by
  induction j using Json.induction with
  | null | bool | str => rfl
  | num n => simp [textUnits, JsNumber.text_roundTrip]
  | arr items ih =>
    have each (first : Bool) : itemUnits first (items.map Json.roundTrip) = itemUnits first items := by
      induction items generalizing first with
      | nil => rfl
      | cons item rest tail =>
        simp only [List.forall_mem_cons] at ih
        simp [itemUnits, ih.1, tail ih.2]
    simp [textUnits, each]
  | obj fields ih =>
    have each (first : Bool) :
        fieldUnits first (fields.map fun field => (field.1, field.2.roundTrip)) = fieldUnits first fields := by
      induction fields generalizing first with
      | nil => rfl
      | cons field rest tail =>
        simp only [List.forall_mem_cons] at ih
        simp [fieldUnits, ih.1, tail ih.2]
    simp [textUnits, Json.roundTrip_obj, each]

@[simp] theorem stringify_roundTrip (j : Json) : stringify j.roundTrip = stringify j :=
  JsString.ext (textUnits_roundTrip j)

/-! ### `encodeURIComponent` -/

def percentUnits (octet : Nat) : List UInt16 :=
  let digit (n : Nat) : UInt16 := if n < 10 then (48 + n).toUInt16 else (55 + n).toUInt16
  [37, digit (octet / 16), digit (octet % 16)]

def utf8Octets (point : Nat) : List Nat :=
  if point < 0x80 then [point]
  else if point < 0x800 then [0xc0 + point / 64, 0x80 + point % 64]
  else if point < 0x10000 then [0xe0 + point / 4096, 0x80 + point / 64 % 64, 0x80 + point % 64]
  else [0xf0 + point / 262144, 0x80 + point / 4096 % 64, 0x80 + point / 64 % 64, 0x80 + point % 64]

/-- Letters, digits and `-_.!~*'()` -/
def isUriUnreserved (c : UInt16) : Bool :=
  48 ≤ c && c ≤ 57 || 65 ≤ c && c ≤ 90 || 97 ≤ c && c ≤ 122 || (js "-_.!~*'()").units.contains c

/-- The code units of `encodeURIComponent(value)`, `none` when it throws. -/
def encodeUriUnits : List UInt16 → Option (List UInt16)
  | [] => some []
  | c :: rest =>
    if isUriUnreserved c then (encodeUriUnits rest).map (c :: ·)
    else if isTrailingSurrogate c then none
    else if isLeadingSurrogate c then
      match rest with
      | d :: rest =>
        if isTrailingSurrogate d then
          let point := 0x10000 + (c.toNat - 0xd800) * 1024 + (d.toNat - 0xdc00)
          (encodeUriUnits rest).map ((utf8Octets point).flatMap percentUnits ++ ·)
        else none
      | [] => none
    else (encodeUriUnits rest).map ((utf8Octets c.toNat).flatMap percentUnits ++ ·)

/-- `encodeURIComponent(value)`, `none` when it throws. -/
def encodeURIComponent (value : JsString) : Option JsString := (encodeUriUnits value.units).map JsString.mk

example : encodeURIComponent (js "a/b €𐍈") = some (js "a%2Fb%20%E2%82%AC%F0%90%8D%88") := by decide +kernel

end Js

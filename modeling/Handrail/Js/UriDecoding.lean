import Handrail.Js.JsonText
import Handrail.Js.Utf8Reading

/-!
# `decodeURIComponent`

Percent-encoded octets read back as UTF-8, ECMA-262 `Decode` without reserved characters. What was encoded from ASCII is read
back as it was.
-/

namespace Js

def hexDigit? (c : UInt16) : Option Nat :=
  if 48 ≤ c && c ≤ 57 then some (c.toNat - 48)
  else if 65 ≤ c && c ≤ 70 then some (c.toNat - 55)
  else if 97 ≤ c && c ≤ 102 then some (c.toNat - 87)
  else none

def readOctet : List UInt16 → Option (Nat × List UInt16)
  | c :: a :: b :: rest => if c = 37 then (hexDigit? a).bind fun high => (hexDigit? b).map fun low => (16 * high + low, rest) else none
  | _ => none

def readContinuations : Nat → Nat → List UInt16 → Option (Nat × List UInt16)
  | 0, point, rest => some (point, rest)
  | count + 1, point, rest =>
    (readOctet rest).bind fun read =>
      if read.1 / 0x40 = 2 then readContinuations count (0x40 * point + read.1 % 0x40) read.2 else none

def continuations (octet : Nat) : Nat :=
  if octet / 0x20 = 6 then 1 else if octet / 0x10 = 14 then 2 else if octet / 8 = 30 then 3 else 0

def isWholePoint (count point : Nat) : Bool :=
  match count with
  | 1 => 0x80 ≤ point
  | 2 => 0x800 ≤ point && !(0xd800 ≤ point && point ≤ 0xdfff)
  | _ => 0x10000 ≤ point && point ≤ 0x10ffff

/-- The code units of `decodeURIComponent(value)`, `none` when it throws; `fuel` bounds the units. -/
def decodeUriUnits : Nat → List UInt16 → Option (List UInt16)
  | _, [] => some []
  | 0, _ :: _ => none
  | fuel + 1, c :: rest =>
    if c ≠ 37 then (decodeUriUnits fuel rest).map (c :: ·)
    else (readOctet (c :: rest)).bind fun first =>
      if first.1 < 0x80 then (decodeUriUnits fuel first.2).map (first.1.toUInt16 :: ·)
      else if continuations first.1 = 0 then none
      else
        (readContinuations (continuations first.1) (first.1 % (0x40 / 2 ^ continuations first.1)) first.2).bind fun read =>
          if isWholePoint (continuations first.1) read.1 then (decodeUriUnits fuel read.2).map (pointUnits read.1 ++ ·) else none

/-- `decodeURIComponent(value)`, `none` when it throws. -/
def decodeURIComponent (value : JsString) : Option JsString := (decodeUriUnits value.length value.units).map JsString.mk

example : decodeURIComponent (js "a%2Fb%20%e2%82%AC%F0%90%8D%88") = some (js "a/b €𐍈") := by decide +kernel

example : decodeURIComponent (js "%C0%AF") = none := by decide +kernel

/-! ### ASCII -/

theorem percentUnits_octet {n : Nat} (small : n < 0x100) (rest : List UInt16) :
    readOctet (percentUnits n ++ rest) = some (n, rest) := by
  have digit : ∀ k : Fin 16, hexDigit? (if k.val < 10 then (48 + k.val).toUInt16 else (55 + k.val).toUInt16) =
    some k.val := by decide
  have high := digit ⟨n / 16, by omega⟩
  have low := digit ⟨n % 16, by omega⟩
  simp only [percentUnits, List.cons_append, List.nil_append, readOctet, ↓reduceIte, high, low, Option.bind_some, Option.map_some]
  congr 2
  omega

/-- What `encodeURIComponent` makes of one ASCII character. -/
def asciiUnits (c : UInt16) : List UInt16 := if isUriUnreserved c then [c] else percentUnits c.toNat

theorem encodeUriUnits_ascii {units : List UInt16} (ascii : ∀ c ∈ units, c.toNat < 0x80) :
    encodeUriUnits units = some (units.flatMap asciiUnits) := by
  induction units with
  | nil => rfl
  | cons c rest ih =>
    have small := ascii c List.mem_cons_self
    have later := ih fun d member => ascii d (List.mem_cons_of_mem _ member)
    have leading : isLeadingSurrogate c = false := by
      simp only [isLeadingSurrogate, Bool.and_eq_false_iff, decide_eq_false_iff_not, UInt16.le_iff_toNat_le]
      exact .inl (by simp; omega)
    have trailing : isTrailingSurrogate c = false := by
      simp only [isTrailingSurrogate, Bool.and_eq_false_iff, decide_eq_false_iff_not, UInt16.le_iff_toNat_le]
      exact .inl (by simp; omega)
    rw [encodeUriUnits.eq_def, List.flatMap_cons, asciiUnits]
    dsimp only
    rw [leading, trailing, later]
    by_cases unreserved : isUriUnreserved c = true
    · rw [if_pos unreserved, if_pos unreserved]
      rfl
    · rw [if_neg unreserved, if_neg unreserved, utf8Octets, if_pos small]
      rfl

theorem decodeUriUnits_ascii {units : List UInt16} (ascii : ∀ c ∈ units, c.toNat < 0x80) {fuel : Nat}
    (enough : (units.flatMap asciiUnits).length ≤ fuel) : decodeUriUnits fuel (units.flatMap asciiUnits) = some units := by
  induction units generalizing fuel with
  | nil =>
    rw [List.flatMap_nil]
    cases fuel <;> rfl
  | cons c rest ih =>
    have small := ascii c List.mem_cons_self
    have later {fuel : Nat} (enough : (rest.flatMap asciiUnits).length ≤ fuel) :
        decodeUriUnits fuel (rest.flatMap asciiUnits) = some rest :=
          ih (fun d member => ascii d (List.mem_cons_of_mem _ member)) enough
    rw [List.flatMap_cons, asciiUnits] at enough ⊢
    by_cases unreserved : isUriUnreserved c = true
    · rw [if_pos unreserved] at enough ⊢
      have plain : c ≠ 37 := by
        rintro rfl
        exact absurd unreserved (by decide)
      cases fuel with
      | zero => simp at enough
      | succ fuel =>
        rw [List.singleton_append, decodeUriUnits, if_pos plain, later (by simpa using enough)]
        rfl
    · rw [if_neg unreserved] at enough ⊢
      have octet := percentUnits_octet (n := c.toNat) (by omega) (rest.flatMap asciiUnits)
      cases fuel with
      | zero => simp [percentUnits] at enough
      | succ fuel =>
        simp only [percentUnits, List.cons_append, List.nil_append] at octet enough ⊢
        rw [decodeUriUnits, if_neg (by simp), octet, Option.bind_some, if_pos small,
          later (by simp only [List.length_cons] at enough; omega)]
        simp

theorem decodeURIComponent_encode {text : JsString} (ascii : ∀ c ∈ text.units, c.toNat < 0x80) :
    encodeURIComponent text = some ⟨text.units.flatMap asciiUnits⟩ ∧
      decodeURIComponent ⟨text.units.flatMap asciiUnits⟩ = some text := by
  constructor
  · rw [encodeURIComponent, encodeUriUnits_ascii ascii]
    rfl
  · exact congrArg (Option.map JsString.mk) (decodeUriUnits_ascii ascii (Nat.le_refl _))

theorem length_asciiUnits (units : List UInt16) : (units.flatMap asciiUnits).length ≤ 3 * units.length := by
  induction units with
  | nil => simp
  | cons c rest ih =>
    have one : (asciiUnits c).length ≤ 3 := by
      unfold asciiUnits
      split
      · simp
      · simp [percentUnits]
    rw [List.flatMap_cons, List.length_append, List.length_cons]
    omega

end Js

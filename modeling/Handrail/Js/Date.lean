import Handrail.Js.Text
import Mathlib.Data.Int.Init

/-!
# Dates

`Date.parse` on RFC 3339 UTC timestamps. Digits of the fraction after the third are dropped.
-/

namespace Js

def daysFromCivil (year month day : Nat) : Int :=
  let y : Int := if month ≤ 2 then (year : Int) - 1 else year
  let era := y / 400
  let yearOfEra := y - era * 400
  let shifted : Int := if month ≤ 2 then (month : Int) + 9 else (month : Int) - 3
  let dayOfYear := (153 * shifted + 2) / 5 + (day : Int) - 1
  let dayOfEra := yearOfEra * 365 + yearOfEra / 4 - yearOfEra / 100 + dayOfYear
  era * 146097 + dayOfEra - 719468

structure UtcTimestamp where
  year : Nat
  month : Nat
  day : Nat
  hour : Nat
  minute : Nat
  second : Nat
  millisecond : Nat

/-- The value of decimal digits, `none` when a code unit is no digit. -/
def readDigits (units : List UInt16) : Option Nat :=
  units.foldl (fun value c => value.bind fun n =>
    if 48 ≤ c && c ≤ 57 then some (n * 10 + (c.toNat - 48)) else none) (some 0)

/-- The optional fraction and the final `Z`, as milliseconds. -/
def readFraction : List UInt16 → Option Nat
  | [90] => some 0
  | 46 :: rest =>
    let digits := rest.dropLast
    if rest.getLast? = some 90 ∧ 1 ≤ digits.length ∧ digits.length ≤ 9 then
      (readDigits digits).bind fun _ => readDigits ((digits ++ [48, 48]).take 3)
    else none
  | _ => none

/-- The match of `(\d{4})-(\d{2})-(\d{2})T(\d{2}):(\d{2}):(\d{2})(?:\.\d{1,9})?Z` with the whole string. -/
def readTimestamp (s : JsString) : Option UtcTimestamp :=
  match s.units with
  | y₁ :: y₂ :: y₃ :: y₄ :: 45 :: m₁ :: m₂ :: 45 :: d₁ :: d₂ :: 84 :: h₁ :: h₂ :: 58 :: n₁ :: n₂ :: 58 ::
      s₁ :: s₂ :: rest => do
    let year ← readDigits [y₁, y₂, y₃, y₄]
    let month ← readDigits [m₁, m₂]
    let day ← readDigits [d₁, d₂]
    let hour ← readDigits [h₁, h₂]
    let minute ← readDigits [n₁, n₂]
    let second ← readDigits [s₁, s₂]
    let millisecond ← readFraction rest
    return { year, month, day, hour, minute, second, millisecond }
  | _ => none

def UtcTimestamp.time (t : UtcTimestamp) : Int :=
  ((daysFromCivil t.year t.month t.day * 24 + t.hour) * 60 + t.minute) * 60000 + t.second * 1000 + t.millisecond

example : (readTimestamp (js "2026-01-02T03:04:05.0067Z")).map UtcTimestamp.time = some 1767323045006 := by
  decide +kernel

end Js

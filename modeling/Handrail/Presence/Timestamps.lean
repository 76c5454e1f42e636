import Handrail.Realtime.Validation
import Mathlib.Tactic.IntervalCases

/-!
# Timestamps of presence

`parseTimestamp` answers the canonical text of a time, so that two timestamps of one time are the same timestamp.
-/

namespace Handrail.Presence
open Js Conversation Realtime

/-! ### The calendar -/

/-- Days before the March that opens year `y`. -/
def yearStart (y : Int) : Int := 365 * y + y / 4 - y / 100 + y / 400

/-- Days from the first of March to the first of the month that is `s` months later. -/
def monthStart (s : Int) : Int := (153 * s + 2) / 5

/-- A day is told by the year that begins in March, the month of that year and the day of that month. -/
structure IsDay (days year month day : Int) : Prop where
  months : 0 ≤ month ∧ month ≤ 11
  first : 1 ≤ day
  beforeMonth : month < 11 → monthStart month + day ≤ monthStart (month + 1)
  beforeYear : monthStart month + day ≤ yearStart (year + 1) - yearStart year
  place : days = yearStart year + monthStart month + day - 719469

theorem yearStart_mono {a b : Int} (less : a < b) : yearStart (a + 1) ≤ yearStart b := by
  unfold yearStart
  omega

theorem IsDay.unique {days y m d y' m' d' : Int} (a : IsDay days y m d) (b : IsDay days y' m' d') :
    y = y' ∧ m = m' ∧ d = d' := by
  obtain ⟨months, first, beforeMonth, beforeYear, place⟩ := a
  obtain ⟨months', first', beforeMonth', beforeYear', place'⟩ := b
  have start (s : Int) (low : 0 ≤ s) : 0 ≤ monthStart s := by
    unfold monthStart
    omega
  have low := start m months.1
  have low' := start m' months'.1
  have years : y = y' := by
    rcases lt_trichotomy y y' with less | same | more
    · have := yearStart_mono less
      omega
    · exact same
    · have := yearStart_mono more
      omega
  subst years
  have monthsSame : m = m' := by
    rcases lt_trichotomy m m' with less | same | more
    · have bound := beforeMonth (by omega)
      unfold monthStart at *
      omega
    · exact same
    · have bound := beforeMonth' (by omega)
      unfold monthStart at *
      omega
  subst monthsSame
  exact ⟨rfl, rfl, by omega⟩

theorem month_range {year month day : Nat}
    (valid : (daysInMonth year month).any (fun days => 1 ≤ day && day ≤ days) = true) : 1 ≤ month ∧ month ≤ 12 := by
  unfold daysInMonth at valid
  split at valid
  · cases valid
  · rename_i nonzero
    by_contra large
    rw [List.getElem?_eq_none (by simp; omega)] at valid
    cases valid

theorem isDay {year month day : Nat} (valid : (daysInMonth year month).any (fun days => 1 ≤ day && day ≤ days) = true) :
    IsDay (daysFromCivil year month day) (if month ≤ 2 then (year : Int) - 1 else year)
      (if month ≤ 2 then (month : Int) + 9 else (month : Int) - 3) day := by
  have months := month_range valid
  have positive : 1 ≤ day := by
    revert valid
    cases daysInMonth year month <;> simp +contextual
  have place : daysFromCivil year month day = yearStart (if month ≤ 2 then (year : Int) - 1 else year) +
      monthStart (if month ≤ 2 then (month : Int) + 9 else (month : Int) - 3) + day - 719469 := by
    simp only [daysFromCivil, yearStart, monthStart]
    omega
  by_cases february : month = 2
  · subst february
    -- The leap day is the last day before the next March.
    have ends : monthStart 11 + day ≤ yearStart year - yearStart (year - 1) := by
      simp only [daysInMonth, yearStart, monthStart] at valid ⊢
      by_cases leap : (year % 4 == 0 && (year % 100 != 0 || year % 400 == 0)) = true
      · simp [leap] at valid
        simp at leap
        omega
      · simp [leap] at valid
        simp at leap
        omega
    refine ⟨by simp, by omega, by simp, ?_, place⟩
    · rw [if_pos (le_refl 2), if_pos (le_refl 2)]
      rwa [show (year : Int) - 1 + 1 = year by omega]
  · -- Any other month ends where the next one begins.
    have ends : (day : Int) ≤ monthStart ((if month ≤ 2 then (month : Int) + 9 else (month : Int) - 3) + 1) -
        monthStart (if month ≤ 2 then (month : Int) + 9 else (month : Int) - 3) := by
      obtain ⟨low, high⟩ := months
      unfold daysInMonth at valid
      interval_cases month <;> simp [monthStart] at february valid ⊢ <;> omega
    refine ⟨?_, by omega, fun _ => by omega, ?_, place⟩
    · split <;> omega
    · unfold yearStart monthStart at *
      split at ends <;> omega

def Exact (t : UtcTimestamp) : Prop := isCanonicalUtc t = true ∧ t.millisecond < 1000

theorem time_injective {a b : UtcTimestamp} (exactA : Exact a) (exactB : Exact b) (same : a.time = b.time) : a = b := by
  obtain ⟨year, month, day, hour, minute, second, millisecond⟩ := a
  obtain ⟨year', month', day', hour', minute', second', millisecond'⟩ := b
  obtain ⟨canonical, precise⟩ := exactA
  obtain ⟨canonical', precise'⟩ := exactB
  simp only [isCanonicalUtc, Bool.and_eq_true, decide_eq_true_eq] at canonical canonical'
  obtain ⟨⟨⟨date, hours⟩, minutes⟩, seconds⟩ := canonical
  obtain ⟨⟨⟨date', hours'⟩, minutes'⟩, seconds'⟩ := canonical'
  simp only [UtcTimestamp.time] at same precise precise'
  have days : daysFromCivil year month day = daysFromCivil year' month' day' := by omega
  have clock : hour = hour' ∧ minute = minute' ∧ second = second' ∧ millisecond = millisecond' := by
    rw [days] at same
    omega
  obtain ⟨rfl, rfl, rfl, rfl⟩ := clock
  have first := isDay date
  rw [days] at first
  have dates := first.unique (isDay date')
  have range := month_range date
  have range' := month_range date'
  have same : year = year' ∧ month = month' ∧ day = day' := by omega
  obtain ⟨rfl, rfl, rfl⟩ := same
  rfl

/-! ### The text of a moment -/

theorem readDigits_append (units : List UInt16) (c : UInt16) : readDigits (units ++ [c]) =
    (readDigits units).bind fun n => if 48 ≤ c && c ≤ 57 then some (n * 10 + (c.toNat - 48)) else none := by
  simp [readDigits]

theorem readDigits_injective {xs ys : List UInt16} {n : Nat} (left : readDigits xs = some n)
    (right : readDigits ys = some n) (same : xs.length = ys.length) : xs = ys := by
  induction xs using List.reverseRecOn generalizing ys n with
  | nil => exact (List.length_eq_zero_iff.mp same.symm).symm
  | append_singleton xs c ih =>
    cases ys using List.reverseRecOn with
    | nil => simp at same
    | append_singleton ys d =>
      rw [readDigits_append, Option.bind_eq_some_iff] at left right
      obtain ⟨m, readX, left⟩ := left
      obtain ⟨m', readY, right⟩ := right
      split at left
      · rename_i digitC
        split at right
        · rename_i digitD
          simp only [Bool.and_eq_true, decide_eq_true_eq, UInt16.le_iff_toNat_le] at digitC digitD
          simp only [Option.some.injEq] at left right
          have nine : (57 : UInt16).toNat = 57 := rfl
          have zero : (48 : UInt16).toNat = 48 := rfl
          have before : m = m' := by omega
          have last : c = d := UInt16.toNat_inj.mp (by omega)
          subst before last
          rw [ih readX readY (by simpa using same)]
        · cases right
      · cases left

theorem readDigits_lt {xs : List UInt16} {n : Nat} (read : readDigits xs = some n) : n < 10 ^ xs.length := by
  induction xs using List.reverseRecOn generalizing n with
  | nil =>
    cases read
    simp
  | append_singleton xs c ih =>
    rw [readDigits_append, Option.bind_eq_some_iff] at read
    obtain ⟨m, before, read⟩ := read
    split at read
    · rename_i digit
      have small := ih before
      simp only [Bool.and_eq_true, decide_eq_true_eq, UInt16.le_iff_toNat_le] at digit
      have nine : (57 : UInt16).toNat = 57 := rfl
      rw [List.length_append, List.length_singleton, pow_succ]
      simp only [Option.some.injEq] at read
      omega
    · cases read

structure Reads (units : List UInt16) (t : UtcTimestamp) (year month day hour minute second rest : List UInt16) : Prop where
  units : units = year ++ 45 :: (month ++ 45 :: (day ++ 84 :: (hour ++ 58 :: (minute ++ 58 :: (second ++ rest)))))
  lengths : year.length = 4 ∧ month.length = 2 ∧ day.length = 2 ∧ hour.length = 2 ∧ minute.length = 2 ∧ second.length = 2
  date : readDigits year = some t.year ∧ readDigits month = some t.month ∧ readDigits day = some t.day
  clock : readDigits hour = some t.hour ∧ readDigits minute = some t.minute ∧ readDigits second = some t.second
  fraction : readFraction rest = some t.millisecond

theorem reads_of_readTimestamp {s : JsString} {t : UtcTimestamp} (read : readTimestamp s = some t) :
    ∃ year month day hour minute second rest, Reads s.units t year month day hour minute second rest := by
  unfold readTimestamp at read
  split at read
  · rename_i y₁ y₂ y₃ y₄ m₁ m₂ d₁ d₂ h₁ h₂ n₁ n₂ s₁ s₂ rest units
    simp only [Option.bind_eq_bind, Option.bind_eq_some_iff] at read
    obtain ⟨year, readYear, month, readMonth, day, readDay, hour, readHour, minute, readMinute, second, readSecond,
      millisecond, readRest, whole⟩ := read
    obtain rfl := Option.some.inj whole
    refine ⟨[y₁, y₂, y₃, y₄], [m₁, m₂], [d₁, d₂], [h₁, h₂], [n₁, n₂], [s₁, s₂], rest, units, ?_, ?_, ?_, readRest⟩
    · exact ⟨rfl, rfl, rfl, rfl, rfl, rfl⟩
    · exact ⟨readYear, readMonth, readDay⟩
    · exact ⟨readHour, readMinute, readSecond⟩
  · cases read

theorem readTimestamp_of_reads {s : JsString} {t : UtcTimestamp} {year month day hour minute second rest : List UInt16}
    (reads : Reads s.units t year month day hour minute second rest) : readTimestamp s = some t := by
  obtain ⟨units, ⟨yearLength, monthLength, dayLength, hourLength, minuteLength, secondLength⟩, ⟨readYear, readMonth, readDay⟩,
    ⟨readHour, readMinute, readSecond⟩, readRest⟩ := reads
  obtain ⟨y₁, y₂, y₃, y₄, rfl⟩ := List.length_eq_four.mp yearLength
  obtain ⟨m₁, m₂, rfl⟩ := List.length_eq_two.mp monthLength
  obtain ⟨d₁, d₂, rfl⟩ := List.length_eq_two.mp dayLength
  obtain ⟨h₁, h₂, rfl⟩ := List.length_eq_two.mp hourLength
  obtain ⟨n₁, n₂, rfl⟩ := List.length_eq_two.mp minuteLength
  obtain ⟨s₁, s₂, rfl⟩ := List.length_eq_two.mp secondLength
  unfold readTimestamp
  rw [units]
  simp [readYear, readMonth, readDay, readHour, readMinute, readSecond, readRest]

theorem readFraction_cases {rest : List UInt16} {n : Nat} (read : readFraction rest = some n) :
    rest = [90] ∧ n = 0 ∨ ∃ digits, rest = 46 :: (digits ++ [90]) ∧ 1 ≤ digits.length ∧
      readDigits ((digits ++ [48, 48]).take 3) = some n := by
  unfold readFraction at read
  split at read
  · cases read
    exact .inl ⟨rfl, rfl⟩
  · rename_i rest
    dsimp only at read
    split at read
    · rename_i shape
      obtain ⟨last, nonempty, -⟩ := shape
      obtain ⟨value, -, read⟩ := Option.bind_eq_some_iff.mp read
      refine .inr ⟨rest.dropLast, ?_, nonempty, read⟩
      rw [List.dropLast_append_getLast? 90 (by rw [last]; rfl)]
    · cases read
  · cases read

theorem millisecond_lt {rest : List UInt16} {n : Nat} (read : readFraction rest = some n) : n < 1000 := by
  rcases readFraction_cases read with ⟨-, rfl⟩ | ⟨digits, -, -, read⟩
  · decide
  · have small := readDigits_lt read
    have short : ((digits ++ [48, 48]).take 3).length ≤ 3 := List.length_take_le ..
    calc n < 10 ^ ((digits ++ [48, 48]).take 3).length := small
      _ ≤ 10 ^ 3 := Nat.pow_le_pow_right (by decide) short

/-- The text that `toISOString` gives a fraction. -/
def padFraction (rest : List UInt16) : List UInt16 := 46 :: (((rest.drop 1).dropLast ++ [48, 48, 48]).take 3 ++ [90])

theorem length_padFraction (rest : List UInt16) : (padFraction rest).length = 5 := by
  simp [padFraction]

theorem readFraction_padFraction {rest : List UInt16} {n : Nat} (read : readFraction rest = some n)
    (precise : rest.length ≤ 5) : readFraction (padFraction rest) = some n := by
  have three {padded : List UInt16} (length : padded.length = 3) (read : readDigits padded = some n) :
      readFraction (46 :: (padded ++ [90])) = some n := by
    obtain ⟨a, b, c, rfl⟩ := List.length_eq_three.mp length
    simp [readFraction, read]
  rcases readFraction_cases read with ⟨rfl, rfl⟩ | ⟨digits, rfl, nonempty, read⟩
  · decide
  · have short : digits.length ≤ 3 := by
      simp at precise
      omega
    have inner : (List.drop 1 (46 :: (digits ++ [90]))).dropLast = digits := by simp
    have same : (digits ++ [48, 48, 48]).take 3 = (digits ++ [48, 48]).take 3 := by
      rw [show digits ++ [48, 48, 48] = digits ++ [48, 48] ++ [48] by simp]
      exact List.take_append_of_le_length (by simp; omega)
    rw [padFraction, inner]
    exact three (by simp) (same ▸ read)

theorem isoText_reads {value : JsString} {t : UtcTimestamp} (read : readTimestamp value = some t)
    (precise : value.length ≤ 24) : readTimestamp (isoText value) = some t ∧ (isoText value).length = 24 := by
  obtain ⟨year, month, day, hour, minute, second, rest, reads⟩ := reads_of_readTimestamp read
  obtain ⟨units, lengths, date, clock, fraction⟩ := reads
  have short : rest.length ≤ 5 := by
    obtain ⟨yearLength, monthLength, dayLength, hourLength, minuteLength, secondLength⟩ := lengths
    rw [JsString.length, units] at precise
    simp at precise
    omega
  have padded : (isoText value).units =
      year ++ 45 :: (month ++ 45 :: (day ++ 84 :: (hour ++ 58 :: (minute ++ 58 :: (second ++ padFraction rest))))) := by
    obtain ⟨yearLength, monthLength, dayLength, hourLength, minuteLength, secondLength⟩ := lengths
    obtain ⟨y₁, y₂, y₃, y₄, rfl⟩ := List.length_eq_four.mp yearLength
    obtain ⟨m₁, m₂, rfl⟩ := List.length_eq_two.mp monthLength
    obtain ⟨d₁, d₂, rfl⟩ := List.length_eq_two.mp dayLength
    obtain ⟨h₁, h₂, rfl⟩ := List.length_eq_two.mp hourLength
    obtain ⟨n₁, n₂, rfl⟩ := List.length_eq_two.mp minuteLength
    obtain ⟨s₁, s₂, rfl⟩ := List.length_eq_two.mp secondLength
    simp [isoText, units, padFraction]
  constructor
  · exact readTimestamp_of_reads ⟨padded, lengths, date, clock, readFraction_padFraction fraction short⟩
  · obtain ⟨yearLength, monthLength, dayLength, hourLength, minuteLength, secondLength⟩ := lengths
    rw [JsString.length, padded]
    simp [yearLength, monthLength, dayLength, hourLength, minuteLength, secondLength, length_padFraction]

theorem readTimestamp_injective {a b : JsString} {t : UtcTimestamp} (left : readTimestamp a = some t)
    (right : readTimestamp b = some t) (fullA : a.length = 24) (fullB : b.length = 24) : a = b := by
  obtain ⟨year, month, day, hour, minute, second, rest, unitsA, lengthsA, dateA, clockA, fractionA⟩ :=
    reads_of_readTimestamp left
  obtain ⟨year', month', day', hour', minute', second', rest', unitsB, lengthsB, dateB, clockB, fractionB⟩ :=
    reads_of_readTimestamp right
  obtain rfl := readDigits_injective dateA.1 dateB.1 (lengthsA.1.trans lengthsB.1.symm)
  obtain rfl := readDigits_injective dateA.2.1 dateB.2.1 (lengthsA.2.1.trans lengthsB.2.1.symm)
  obtain rfl := readDigits_injective dateA.2.2 dateB.2.2 (lengthsA.2.2.1.trans lengthsB.2.2.1.symm)
  obtain rfl := readDigits_injective clockA.1 clockB.1 (lengthsA.2.2.2.1.trans lengthsB.2.2.2.1.symm)
  obtain rfl := readDigits_injective clockA.2.1 clockB.2.1 (lengthsA.2.2.2.2.1.trans lengthsB.2.2.2.2.1.symm)
  obtain rfl := readDigits_injective clockA.2.2 clockB.2.2 (lengthsA.2.2.2.2.2.trans lengthsB.2.2.2.2.2.symm)
  have full {rest : List UInt16} {text : JsString}
      (units : text.units = year ++ 45 :: (month ++ 45 :: (day ++ 84 :: (hour ++ 58 :: (minute ++ 58 :: (second ++ rest))))))
      (length : text.length = 24) : rest.length = 5 := by
    obtain ⟨yearLength, monthLength, dayLength, hourLength, minuteLength, secondLength⟩ := lengthsA
    rw [JsString.length, units] at length
    simp at length
    omega
  have digits {rest : List UInt16} (length : rest.length = 5) (read : readFraction rest = some t.millisecond) :
      ∃ digits, rest = 46 :: (digits ++ [90]) ∧ digits.length = 3 ∧ readDigits digits = some t.millisecond := by
    rcases readFraction_cases read with ⟨rfl, -⟩ | ⟨digits, rfl, -, read⟩
    · cases length
    · have three : digits.length = 3 := by simpa using length
      rw [List.take_append_of_le_length (by omega), List.take_of_length_le (by omega)] at read
      exact ⟨digits, rfl, three, read⟩
  obtain ⟨ms, rfl, lengthA, readA⟩ := digits (full unitsA fullA) fractionA
  obtain ⟨ms', rfl, lengthB, readB⟩ := digits (full unitsB fullB) fractionB
  obtain rfl := readDigits_injective readA readB (lengthA.trans lengthB.symm)
  exact JsString.ext (unitsA.trans unitsB.symm)

/-! ### `PresenceTimestamp` -/

/-- A `PresenceTimestamp`: the canonical text of a moment. -/
structure PresenceTimestamp where
  text : JsString
  moment : UtcTimestamp
  reads : readTimestamp text = some moment
  canonical : isCanonicalUtc moment = true
  full : text.length = 24

namespace PresenceTimestamp

/-- `Date.parse` -/
def milliseconds (t : PresenceTimestamp) : Int := t.moment.time

theorem ext_text {s t : PresenceTimestamp} (same : s.text = t.text) : s = t := by
  obtain ⟨text, moment, reads, _, _⟩ := s
  obtain ⟨text', moment', reads', _, _⟩ := t
  obtain rfl : text = text' := same
  obtain rfl : moment = moment' := Option.some.inj (reads.symm.trans reads')
  rfl

theorem ext_milliseconds {s t : PresenceTimestamp} (same : s.milliseconds = t.milliseconds) : s = t := by
  have exact (u : PresenceTimestamp) : Exact u.moment := by
    obtain ⟨_, _, _, _, _, _, _, read⟩ := reads_of_readTimestamp u.reads
    exact ⟨u.canonical, millisecond_lt read.fraction⟩
  have moments : s.moment = t.moment := time_injective (exact s) (exact t) same
  exact ext_text (readTimestamp_injective s.reads (moments ▸ t.reads) s.full t.full)

end PresenceTimestamp

/-- `parseTimestamp`. At most three digits of a fraction fit in 24 code units. -/
def parseTimestamp : Json → Checked PresenceTimestamp
  | .str value =>
    match reads : readTimestamp value with
    | some t =>
      if long : 24 < value.length then
        fail (js "must be an RFC 3339 UTC timestamp with at most millisecond precision")
      else if canonical : isCanonicalUtc t = true then
        have iso := isoText_reads reads (Nat.le_of_not_lt long)
        .ok ⟨isoText value, t, iso.1, canonical, iso.2⟩
      else fail (js "must be a valid UTC timestamp")
    | none => fail (js "must be an RFC 3339 UTC timestamp with at most millisecond precision")
  | _ => fail (js "must be a UTC timestamp string")

theorem parseTimestamp_text (t : PresenceTimestamp) : parseTimestamp (.str t.text) = .ok t := by
  unfold parseTimestamp
  dsimp only
  split
  · rename_i moment reads
    obtain rfl : t.moment = moment := Option.some.inj (t.reads.symm.trans reads)
    rw [dif_neg (by rw [t.full]; decide), dif_pos t.canonical]
    obtain ⟨same, length⟩ := isoText_reads t.reads (le_of_eq t.full)
    exact congrArg Except.ok (PresenceTimestamp.ext_text (readTimestamp_injective same t.reads length t.full))
  · rename_i unread
    rw [t.reads] at unread
    cases unread

end Handrail.Presence

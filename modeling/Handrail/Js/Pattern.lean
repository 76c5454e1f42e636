import Handrail.Js.Text
import Mathlib.Data.List.DropRight

/-!
# Regular expressions

The regular expressions that need no groups, as a matcher that returns every position at which a
match can end. `\b` and `^` look at the code unit before the position.
-/

namespace Js

structure Position where
  before : Option UInt16
  rest : List UInt16

inductive Pattern where
  | empty
  | unit (accepts : UInt16 → Bool)
  | seq (first second : Pattern)
  | alt (left right : Pattern)
  /-- `{min,min + extra}`, or `{min,}` when `extra` is `none`. -/
  | repeats (body : Pattern) (min : Nat) (extra : Option Nat)
  /-- `^` -/
  | start
  /-- `$` -/
  | finish
  /-- `\b` -/
  | wordBoundary

/-- `[A-Za-z0-9_]` -/
def isWordUnit (c : UInt16) : Bool :=
  (65 ≤ c && c ≤ 90) || (97 ≤ c && c ≤ 122) || (48 ≤ c && c ≤ 57) || c == 95

/-- `\s`, which is also what `String.prototype.trim` removes. -/
def isWhitespace (c : UInt16) : Bool :=
  (9 ≤ c && c ≤ 13) || c == 0x20 || c == 0xa0 || c == 0x1680 || (0x2000 ≤ c && c ≤ 0x200a) ||
    c == 0x2028 || c == 0x2029 || c == 0x202f || c == 0x205f || c == 0x3000 || c == 0xfeff

/-- `String.prototype.trim` -/
def trim (s : JsString) : JsString :=
  ⟨((s.units.dropWhile isWhitespace).reverse.dropWhile isWhitespace).reverse⟩

theorem trim_trim (s : JsString) : trim (trim s) = trim s := by
  have right (l : List UInt16) : (l.reverse.dropWhile isWhitespace).reverse = l.rdropWhile isWhitespace := rfl
  apply JsString.ext
  simp only [trim, right]
  -- What the left end of the text starts with stays its first unit.
  have left : ((s.units.dropWhile isWhitespace).rdropWhile isWhitespace).dropWhile isWhitespace =
      (s.units.dropWhile isWhitespace).rdropWhile isWhitespace := by
    obtain ⟨rest, whole⟩ := List.rdropWhile_prefix isWhitespace (l := s.units.dropWhile isWhitespace)
    cases kept : (s.units.dropWhile isWhitespace).rdropWhile isWhitespace with
    | nil => rfl
    | cons c tail =>
      rw [kept] at whole
      have first : ¬isWhitespace c = true := by
        intro space
        have head := List.head?_dropWhile_not isWhitespace s.units
        rw [← whole] at head
        simp [space] at head
      exact List.dropWhile_cons_of_neg first
  rw [left, List.rdropWhile_idempotent]

namespace Pattern

/-- Up to `fuel` further matches of `step`, each of which must advance. -/
def further (step : Position → List Position) : Nat → Position → List Position
  | 0, p => [p]
  | fuel + 1, p =>
    p :: ((step p).filter (·.rest.length < p.rest.length)).flatMap (further step fuel)

/-- `min` matches of `step`, then up to `extra` further ones. -/
def times (step : Position → List Position) (extra : Option Nat) : Nat → Position → List Position
  | 0, p => further step (extra.getD p.rest.length) p
  | min + 1, p => (step p).flatMap (times step extra min)

/-- The positions at which a match that starts at `p` can end. -/
def ends : Pattern → Position → List Position
  | empty, p => [p]
  | unit accepts, p =>
    match p.rest with
    | [] => []
    | c :: rest => if accepts c then [⟨some c, rest⟩] else []
  | seq first second, p => (first.ends p).flatMap second.ends
  | alt left right, p => left.ends p ++ right.ends p
  | repeats body min extra, p => times body.ends extra min p
  | start, p => if p.before.isNone then [p] else []
  | finish, p => if p.rest.isEmpty then [p] else []
  | wordBoundary, p =>
    if (p.before.any isWordUnit) != (p.rest.head?.any isWordUnit) then [p] else []

/-- A match starts at `p` or at a later position. -/
def testFrom (pattern : Pattern) (before : Option UInt16) : List UInt16 → Bool
  | [] => !(pattern.ends ⟨before, []⟩).isEmpty
  | c :: rest => !(pattern.ends ⟨before, c :: rest⟩).isEmpty || pattern.testFrom (some c) rest

/-- `RegExp.prototype.test` -/
def test (pattern : Pattern) (s : JsString) : Bool := pattern.testFrom none s.units

/-! ### What a match can contain -/

/-- Every code unit that the pattern can consume satisfies `P`. -/
def Within (P : UInt16 → Prop) : Pattern → Prop
  | unit accepts => ∀ c, accepts c = true → P c
  | seq first second => first.Within P ∧ second.Within P
  | alt left right => left.Within P ∧ right.Within P
  | repeats body _ _ => body.Within P
  | empty => True
  | start => True
  | finish => True
  | wordBoundary => True

/-- The text between two positions satisfies `P`. -/
def Consumed (P : UInt16 → Prop) (p q : Position) : Prop := ∃ w, p.rest = w ++ q.rest ∧ ∀ c ∈ w, P c

theorem Consumed.refl (P : UInt16 → Prop) (p : Position) : Consumed P p p := ⟨[], rfl, by simp⟩

theorem Consumed.trans {P : UInt16 → Prop} {p q r : Position} (first : Consumed P p q) (second : Consumed P q r) :
    Consumed P p r := by
  obtain ⟨v, pq, vP⟩ := first
  obtain ⟨w, qr, wP⟩ := second
  refine ⟨v ++ w, by rw [pq, qr, List.append_assoc], fun c member => ?_⟩
  exact (List.mem_append.mp member).elim (vP c) (wP c)

section
variable {P : UInt16 → Prop} {step : Position → List Position} (consumes : ∀ p, ∀ q ∈ step p, Consumed P p q)
include consumes

theorem further_consumes {fuel : Nat} {p q : Position} (reached : q ∈ further step fuel p) : Consumed P p q := by
  induction fuel generalizing p with
  | zero =>
    obtain rfl := List.mem_singleton.mp reached
    exact .refl P q
  | succ fuel ih =>
    rcases List.mem_cons.mp reached with rfl | later
    · exact .refl P q
    · obtain ⟨r, next, rest⟩ := List.mem_flatMap.mp later
      exact (consumes p r (List.mem_filter.mp next).1).trans (ih rest)

theorem times_consumes {min : Nat} {extra : Option Nat} {p q : Position} (reached : q ∈ times step extra min p) :
    Consumed P p q := by
  induction min generalizing p with
  | zero => exact further_consumes consumes reached
  | succ min ih =>
    obtain ⟨r, next, rest⟩ := List.mem_flatMap.mp reached
    exact (consumes p r next).trans (ih rest)

end

theorem ends_consumes {P : UInt16 → Prop} {pattern : Pattern} (within : pattern.Within P) {p q : Position}
    (reached : q ∈ pattern.ends p) : Consumed P p q := by
  induction pattern generalizing p q with
  | empty =>
    obtain rfl := List.mem_singleton.mp reached
    exact .refl P q
  | unit accepts =>
    obtain ⟨before, rest⟩ := p
    cases rest with
    | nil => cases reached
    | cons c rest =>
      simp only [ends] at reached
      split at reached
      · rename_i accepted
        obtain rfl := List.mem_singleton.mp reached
        exact ⟨[c], rfl, by simpa using within c accepted⟩
      · cases reached
  | seq first second ihFirst ihSecond =>
    obtain ⟨r, left, right⟩ := List.mem_flatMap.mp reached
    exact (ihFirst within.1 left).trans (ihSecond within.2 right)
  | alt left right ihLeft ihRight =>
    rcases List.mem_append.mp reached with left | right
    · exact ihLeft within.1 left
    · exact ihRight within.2 right
  | repeats body min extra ih => exact times_consumes (fun p q => ih within) reached
  | start | finish | wordBoundary =>
    simp only [ends] at reached
    split at reached
    · obtain rfl := List.mem_singleton.mp reached
      exact .refl P q
    · cases reached

theorem test_start {pattern : Pattern} {s : JsString} (matched : (seq start pattern).test s = true) :
    ∃ q, q ∈ pattern.ends ⟨none, s.units⟩ := by
  have later (before : UInt16) (units : List UInt16) : (seq start pattern).testFrom (some before) units = false := by
    induction units generalizing before with
    | nil => simp [testFrom, ends]
    | cons c rest ih => simp [testFrom, ends, ih]
  have here : (seq start pattern).ends ⟨none, s.units⟩ = pattern.ends ⟨none, s.units⟩ := by simp [ends]
  unfold test at matched
  cases h : s.units with
  | nil =>
    rw [h] at matched here
    simp only [testFrom, here] at matched
    exact List.exists_mem_of_ne_nil _ (by simpa using matched)
  | cons c rest =>
    rw [h] at matched here
    simp only [testFrom, here, later, Bool.or_false] at matched
    exact List.exists_mem_of_ne_nil _ (by simpa using matched)

/-! ### Shorthands -/

def all (patterns : List Pattern) : Pattern := patterns.foldr seq empty

theorem ends_finish {patterns : List Pattern} {p q : Position} (reached : q ∈ (all (patterns ++ [finish])).ends p) :
    q.rest = [] := by
  induction patterns generalizing p with
  | nil =>
    obtain ⟨r, finished, reached⟩ := List.mem_flatMap.mp reached
    obtain rfl := List.mem_singleton.mp reached
    simp only [ends] at finished
    split at finished
    · rename_i done
      obtain rfl := List.mem_singleton.mp finished
      exact List.isEmpty_iff.mp done
    · cases finished
  | cons first rest ih =>
    obtain ⟨_, _, reached⟩ := List.mem_flatMap.mp reached
    exact ih reached

/-- Every unit of a text that matches from `^` to `$` is one that the patterns consume. -/
theorem test_whole {P : UInt16 → Prop} (patterns : List Pattern) {s : JsString} (within : (all (patterns ++ [finish])).Within P)
    (matched : (seq start (all (patterns ++ [finish]))).test s = true) : ∀ c ∈ s.units, P c := by
  obtain ⟨q, reached⟩ := test_start matched
  obtain ⟨word, consumed, units⟩ := ends_consumes within reached
  rw [ends_finish reached, List.append_nil] at consumed
  rw [show s.units = word from consumed]
  exact units

def any (patterns : List Pattern) : Pattern := patterns.foldr alt (unit fun _ => false)

/-- A letter or digit, `[a-z0-9]`, and in either case with the flag `i`. -/
def isAlphanumeric (c : UInt16) : Bool := isWordUnit c && c != 95

/-- `[0-9]` -/
def isDigit (c : UInt16) : Bool := 48 ≤ c && c ≤ 57

def oneOf (s : String) (c : UInt16) : Bool := (js s).units.contains c

def lowerAscii (c : UInt16) : UInt16 := if 65 ≤ c && c ≤ 90 then c + 32 else c

/-- A lower-case ASCII literal under the flag `i`. -/
def word (s : String) : Pattern := all ((js s).units.map fun u => unit fun c => lowerAscii c == u)

end Pattern

/-- `String.prototype.includes` -/
def includes (s part : JsString) : Bool := s.units.tails.any part.units.isPrefixOf

example : Pattern.test (.all [.wordBoundary, .word "sk-", .repeats (.unit Pattern.isAlphanumeric) 8 none])
    (js "key SK-abcdefgh9") = true := by decide +kernel

end Js

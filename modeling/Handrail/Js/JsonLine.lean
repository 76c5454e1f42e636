import Handrail.Js.JsonReading
import Handrail.Js.Lines

/-!
# `JSON.stringify` writes one line

Control characters are escaped inside strings and do not occur outside of them.
-/

namespace Js

def Visible (units : List UInt16) : Prop := ∀ c ∈ units, 32 ≤ c.toNat

theorem Visible.append {xs ys : List UInt16} (left : Visible xs) (right : Visible ys) : Visible (xs ++ ys) := by
  intro c member
  exact (List.mem_append.mp member).elim (left c) (right c)

theorem Visible.isLine {units : List UInt16} (visible : Visible units) : IsLine 13 10 units := by
  constructor
  · intro member
    exact absurd (visible 13 member) (by decide)
  · intro member
    exact absurd (visible 10 member) (by decide)

theorem visible_hexUnit {n : UInt16} (small : n.toNat < 16) : 32 ≤ (hexUnit n).toNat := by
  have each : ∀ m : Fin 16, 32 ≤ (hexUnit (UInt16.ofNat m)).toNat := by decide
  have found := each ⟨n.toNat, small⟩
  rwa [UInt16.ofNat_toNat] at found

theorem visible_escapeUnit (c : UInt16) : Visible (escapeUnit c) := by
  have low (k : UInt16) : (k &&& 15).toNat < 16 := by
    rw [UInt16.toNat_and]
    exact Nat.lt_of_le_of_lt Nat.and_le_right (by decide)
  have high : (c >>> 12).toNat < 16 := by
    have small := c.toNat_lt
    have value : (c >>> 12).toNat = c.toNat / 4096 := by simp [Nat.shiftRight_eq_div_pow]
    omega
  unfold escapeUnit
  repeat' split
  any_goals
    intro d member
    simp only [List.mem_cons, List.not_mem_nil, or_false] at member
    rcases member with rfl | rfl <;> decide
  · intro d member
    simp only [unicodeEscape, List.mem_cons, List.not_mem_nil, or_false] at member
    rcases member with rfl | rfl | rfl | rfl | rfl | rfl
    · decide
    · decide
    · exact visible_hexUnit high
    · exact visible_hexUnit (low _)
    · exact visible_hexUnit (low _)
    · exact visible_hexUnit (low _)
  · rename_i plain
    simp only [Bool.or_eq_true, not_or, decide_eq_true_eq, UInt16.not_lt, UInt16.le_iff_toNat_le, UInt16.reduceToNat] at plain
    intro d member
    rw [List.mem_singleton.mp member]
    exact plain.1.1

theorem visible_quoteUnits (s : JsString) : Visible (quoteUnits s) := by
  have inner : ∀ units : List UInt16, Visible (escapeUnits units) := by
    intro units
    induction units using escapeUnits.induct with
    | case1 => exact List.forall_mem_nil _
    | case2 c => exact visible_escapeUnit c
    | case3 c d rest pair ih =>
      rw [escapeUnits, if_pos pair]
      rw [Bool.and_eq_true, isLeadingSurrogate, isTrailingSurrogate, Bool.and_eq_true, Bool.and_eq_true] at pair
      simp only [decide_eq_true_eq, UInt16.le_iff_toNat_le, UInt16.reduceToNat] at pair
      exact List.forall_mem_cons.mpr ⟨by omega, List.forall_mem_cons.mpr ⟨by omega, ih⟩⟩
    | case4 c d rest apart ih =>
      rw [escapeUnits, if_neg apart]
      exact (visible_escapeUnit c).append ih
  have quote : Visible [34] := by simp [Visible]
  exact (quote.append (inner s.units)).append quote

theorem visible_textUnits (j : Json) : Visible (textUnits j) := by
  have comma (first : Bool) : Visible (if first then [] else [44]) := by cases first <;> simp [Visible]
  induction j using Json.induction with
  | null => exact units_pass (by decide)
  | bool b => cases b <;> exact units_pass (by decide)
  | num n =>
    intro c member
    have numeral := n.isNumeral_text c member
    simp only [isNumeral, Bool.or_eq_true, Bool.and_eq_true, decide_eq_true_eq, beq_iff_eq, UInt16.le_iff_toNat_le,
      ← UInt16.toNat_inj, UInt16.reduceToNat] at numeral
    omega
  | str s => exact visible_quoteUnits s
  | arr items ih =>
    have each (first : Bool) : Visible (itemUnits first items) := by
      induction items generalizing first with
      | nil => simp [itemUnits, Visible]
      | cons item rest tail =>
        rw [List.forall_mem_cons] at ih
        exact ((comma first).append ih.1).append (tail ih.2 false)
    exact List.forall_mem_cons.mpr ⟨by decide, each true⟩
  | obj fields ih =>
    have each (first : Bool) : Visible (fieldUnits first fields) := by
      induction fields generalizing first with
      | nil => simp [fieldUnits, Visible]
      | cons field rest tail =>
        rw [List.forall_mem_cons] at ih
        have colon : Visible [58] := by simp [Visible]
        exact ((((comma first).append (visible_quoteUnits field.1)).append colon).append ih.1).append (tail ih.2 false)
    exact List.forall_mem_cons.mpr ⟨by decide, each true⟩

end Js

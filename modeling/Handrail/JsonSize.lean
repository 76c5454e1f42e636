import Handrail.Validation
import Handrail.Js.JsonText

/-!
# The size of JSON texts

What `utf8ByteLength` measures of `JSON.stringify(value)`, item by item and field by field, and bounds for its strings.
-/

namespace Handrail
open Js

/-! ### Items and fields -/

theorem utf8Bytes_cons_ascii {a : UInt16} (ascii : a ≤ 0x7f) (rest : List UInt16) :
    utf8Bytes (a :: rest) = 1 + utf8Bytes rest := by
  cases rest <;> simp [utf8Bytes, ascii]

theorem utf8Bytes_itemUnits (before : List UInt16) (items : List Json) :
    utf8Bytes (before ++ itemUnits false items) = utf8Bytes before + utf8Bytes (itemUnits false items) := by
  cases items with
  | nil => exact utf8Bytes_append_ascii (by decide) [] before
  | cons item rest => exact utf8Bytes_append_ascii (by decide) _ before

theorem utf8Bytes_itemUnits_cons (first : Bool) (item : Json) (rest : List Json) :
    utf8Bytes (itemUnits first (item :: rest)) =
      (if first then 0 else 1) + (utf8Bytes (textUnits item) + utf8Bytes (itemUnits false rest)) := by
  cases first with
  | true => simp [itemUnits, utf8Bytes_itemUnits]
  | false =>
    simp only [itemUnits, Bool.false_eq_true, ↓reduceIte, List.cons_append, List.nil_append]
    rw [utf8Bytes_cons_ascii (by decide), utf8Bytes_itemUnits]

theorem utf8Bytes_itemUnits_le {items fewer : List Json} (sub : fewer.Sublist items) (first : Bool) :
    utf8Bytes (itemUnits first fewer) ≤ utf8Bytes (itemUnits first items) := by
  induction sub generalizing first with
  | slnil => exact Nat.le_refl _
  | @cons fewer items item _ ih =>
    rw [utf8Bytes_itemUnits_cons]
    cases first with
    | false =>
      have shorter := ih false
      omega
    | true =>
      have shorter := ih true
      have opened : utf8Bytes (itemUnits true items) ≤ utf8Bytes (itemUnits false items) := by
        cases items with
        | nil => exact Nat.le_refl _
        | cons other rest =>
          rw [utf8Bytes_itemUnits_cons, utf8Bytes_itemUnits_cons]
          simp
      omega
  | cons_cons item _ ih =>
    rw [utf8Bytes_itemUnits_cons, utf8Bytes_itemUnits_cons]
    have shorter := ih false
    omega

theorem utf8Bytes_fieldUnits (before : List UInt16) (fields : Fields) :
    utf8Bytes (before ++ fieldUnits false fields) = utf8Bytes before + utf8Bytes (fieldUnits false fields) := by
  cases fields with
  | nil => exact utf8Bytes_append_ascii (by decide) [] before
  | cons field rest => exact utf8Bytes_append_ascii (by decide) _ before

theorem utf8Bytes_fieldUnits_cons (first : Bool) (key : JsString) (value : Json) (rest : Fields) :
    utf8Bytes (fieldUnits first ((key, value) :: rest)) = (if first then 0 else 1) + (utf8Bytes (quoteUnits key) +
      (1 + (utf8Bytes (textUnits value) + utf8Bytes (fieldUnits false rest)))) := by
  have named : utf8Bytes (quoteUnits key ++ [58] ++ textUnits value ++ fieldUnits false rest) =
      utf8Bytes (quoteUnits key) + (1 + (utf8Bytes (textUnits value) + utf8Bytes (fieldUnits false rest))) := by
    rw [utf8Bytes_fieldUnits, List.append_assoc, List.singleton_append, utf8Bytes_append_ascii (by decide),
      utf8Bytes_cons_ascii (by decide)]
    omega
  cases first with
  | true => simpa [fieldUnits] using named
  | false =>
    simp only [fieldUnits, Bool.false_eq_true, ↓reduceIte, List.cons_append, List.nil_append]
    rw [utf8Bytes_cons_ascii (by decide)]
    simp only [List.append_assoc, List.cons_append, List.nil_append] at named ⊢
    rw [named]

theorem utf8Bytes_itemUnits_bound {items : List Json} {bound : Nat} (each : ∀ item ∈ items, utf8Bytes (textUnits item) ≤ bound)
    (first : Bool) : utf8Bytes (itemUnits first items) ≤ items.length * (bound + 1) + 1 := by
  induction items generalizing first with
  | nil => cases first <;> simp [itemUnits, utf8Bytes]
  | cons item rest ih =>
    have here := each item List.mem_cons_self
    have later := ih (fun other member => each other (List.mem_cons_of_mem _ member)) false
    rw [utf8Bytes_itemUnits_cons, List.length_cons, Nat.succ_mul]
    split <;> omega

/-! ### Strings -/

theorem leading_not_trailing {c : UInt16} (leading : isLeadingSurrogate c = true) : isTrailingSurrogate c = false := by
  simp only [isLeadingSurrogate, isTrailingSurrogate, Bool.and_eq_true, Bool.and_eq_false_iff,
    decide_eq_true_eq, decide_eq_false_iff_not,
    UInt16.le_iff_toNat_le, UInt16.reduceToNat] at leading ⊢
  omega

theorem leading_wide {c : UInt16} (leading : isLeadingSurrogate c = true) : ¬c ≤ 0x7f ∧ ¬c ≤ 0x7ff := by
  simp only [isLeadingSurrogate, Bool.and_eq_true, decide_eq_true_eq, UInt16.le_iff_toNat_le, UInt16.reduceToNat] at leading ⊢
  omega

theorem trailing_wide {c : UInt16} (trailing : isTrailingSurrogate c = true) : ¬c ≤ 0x7f ∧ ¬c ≤ 0x7ff := by
  simp only [isTrailingSurrogate, Bool.and_eq_true, decide_eq_true_eq, UInt16.le_iff_toNat_le, UInt16.reduceToNat] at trailing ⊢
  omega

theorem utf8Bytes_trailing {d : UInt16} (trailing : isTrailingSurrogate d = true) (rest : List UInt16) :
    utf8Bytes (d :: rest) = 3 + utf8Bytes rest := by
  have wide := trailing_wide trailing
  have alone : isLeadingSurrogate d = false := by
    by_contra leading
    rw [leading_not_trailing (Bool.not_eq_false _ |>.mp leading)] at trailing
    cases trailing
  cases rest with
  | nil => simp only [utf8Bytes, wide, if_false]
  | cons e rest =>
    rw [utf8Bytes, if_neg wide.1, if_neg wide.2, alone, Bool.false_and]
    rfl

theorem utf8Bytes_cons_le (c : UInt16) (rest : List UInt16) : utf8Bytes (c :: rest) ≤ 3 + utf8Bytes rest := by
  cases rest with
  | nil =>
    simp only [utf8Bytes]
    split
    · omega
    · split <;> omega
  | cons d rest =>
    rw [utf8Bytes]
    split
    · omega
    · split
      · omega
      · split
        · rename_i pair
          rw [utf8Bytes_trailing (Bool.and_eq_true _ _ |>.mp pair).2]
          omega
        · omega

theorem utf8Bytes_ascii {front : List UInt16} (ascii : ∀ c ∈ front, c ≤ 0x7f) (rest : List UInt16) :
    utf8Bytes (front ++ rest) = front.length + utf8Bytes rest := by
  induction front with
  | nil => simp
  | cons c front ih =>
    rw [List.cons_append, utf8Bytes_cons_ascii (ascii c List.mem_cons_self),
      ih fun d member => ascii d (List.mem_cons_of_mem _ member), List.length_cons]
    omega

theorem hexUnit_ascii {n : UInt16} (small : n.toNat < 16) : hexUnit n ≤ 0x7f := by
  unfold hexUnit
  rw [UInt16.le_iff_toNat_le]
  split
  · rename_i digit
    simp only [UInt16.lt_iff_toNat_lt, UInt16.reduceToNat] at digit
    simp only [UInt16.toNat_add, UInt16.reduceToNat]
    omega
  · simp only [UInt16.toNat_add, UInt16.reduceToNat]
    omega

theorem unicodeEscape_ascii (c : UInt16) : ∀ d ∈ unicodeEscape c, d ≤ 0x7f := by
  have masked (n : UInt16) : (n &&& 15).toNat < 16 := by
    rw [UInt16.toNat_and]
    exact Nat.lt_of_le_of_lt Nat.and_le_right (by decide)
  have shifted : (c >>> 12).toNat < 16 := by
    have small := c.toNat_lt
    rw [UInt16.toNat_shiftRight, Nat.shiftRight_eq_div_pow]
    simp only [UInt16.reduceToNat, Nat.reduceMod, Nat.reducePow]
    omega
  simp only [unicodeEscape, List.forall_mem_cons]
  exact ⟨by decide, by decide, hexUnit_ascii shifted, hexUnit_ascii (masked _), hexUnit_ascii (masked _), hexUnit_ascii (masked _),
    by rintro d ⟨⟩⟩

theorem utf8Bytes_escapeUnit (c : UInt16) (rest : List UInt16) : utf8Bytes (escapeUnit c ++ rest) ≤ 6 + utf8Bytes rest := by
  have short {d : UInt16} (ascii : d ≤ 0x7f) : utf8Bytes ([92, d] ++ rest) ≤ 6 + utf8Bytes rest := by
    rw [utf8Bytes_ascii (by simpa using ascii)]
    simp only [List.length_cons, List.length_nil]
    omega
  unfold escapeUnit
  repeat
    split
    · exact short (by decide)
  split
  · rw [utf8Bytes_ascii (unicodeEscape_ascii c)]
    rfl
  · have one := utf8Bytes_cons_le c rest
    rw [List.singleton_append]
    omega

theorem utf8Bytes_escapeUnits (units : List UInt16) : utf8Bytes (escapeUnits units) ≤ 6 * units.length := by
  induction units using escapeUnits.induct with
  | case1 => exact Nat.le_refl _
  | case2 c =>
    have one := utf8Bytes_escapeUnit c []
    rw [List.append_nil] at one
    exact one
  | case3 c d rest pair ih =>
    rw [escapeUnits, if_pos pair]
    have first := utf8Bytes_cons_le c (d :: escapeUnits rest)
    have second := utf8Bytes_cons_le d (escapeUnits rest)
    simp only [List.length_cons]
    omega
  | case4 c d rest apart ih =>
    rw [escapeUnits, if_neg apart]
    have one := utf8Bytes_escapeUnit c (escapeUnits (d :: rest))
    simp only [List.length_cons] at ih ⊢
    omega

theorem utf8Bytes_quoteUnits (s : JsString) : utf8Bytes (quoteUnits s) = utf8Bytes (escapeUnits s.units) + 2 := by
  rw [quoteUnits, List.cons_append, utf8Bytes_cons_ascii (by decide), utf8Bytes_append_ascii (by decide)]
  have last : utf8Bytes [34] = 1 := by decide
  omega

theorem utf8Bytes_string (s : JsString) : utf8Bytes (textUnits (.str s)) ≤ 6 * s.length + 2 := by
  have inner := utf8Bytes_escapeUnits s.units
  have quoted := utf8Bytes_quoteUnits s
  simp only [textUnits, JsString.length]
  omega

theorem utf8Bytes_printable {s : JsString} (printable : ∀ c ∈ s.units, 0x20 < c ∧ c < 0x7f) :
    utf8Bytes (textUnits (.str s)) ≤ 2 * s.length + 2 := by
  have each (c : UInt16) (bounds : 0x20 < c ∧ c < 0x7f) : (escapeUnit c).length ≤ 2 ∧ (∀ d ∈ escapeUnit c, d ≤ 0x7f) ∧
      isLeadingSurrogate c = false := by
    have low : isLeadingSurrogate c = false ∧ isTrailingSurrogate c = false := by
      simp only [isLeadingSurrogate, isTrailingSurrogate, Bool.and_eq_false_iff, decide_eq_false_iff_not, UInt16.le_iff_toNat_le,
        UInt16.lt_iff_toNat_lt, UInt16.reduceToNat] at bounds ⊢
      omega
    have narrow : c ≤ 0x7f := UInt16.le_of_lt bounds.2
    have above : ¬c < 32 := UInt16.not_lt.mpr (UInt16.le_of_lt bounds.1)
    refine ⟨?_, ?_, low.1⟩
    · unfold escapeUnit
      simp only [low.1, low.2, above, decide_false, Bool.or_self, Bool.false_eq_true, if_false]
      repeat' split
      all_goals simp
    · unfold escapeUnit
      simp only [low.1, low.2, above, decide_false, Bool.or_self, Bool.false_eq_true, if_false]
      repeat' split
      all_goals simp [narrow]
  have units : ∀ l : List UInt16, (∀ c ∈ l, 0x20 < c ∧ c < 0x7f) → utf8Bytes (escapeUnits l) ≤ 2 * l.length := by
    intro l plain
    induction l using escapeUnits.induct with
    | case1 => exact Nat.le_refl _
    | case2 c =>
      obtain ⟨short, ascii, -⟩ := each c (plain c List.mem_cons_self)
      have size := utf8Bytes_ascii ascii []
      rw [List.append_nil] at size
      rw [escapeUnits, size]
      simpa [utf8Bytes] using short
    | case3 c d rest pair =>
      obtain ⟨-, -, alone⟩ := each c (plain c List.mem_cons_self)
      rw [alone] at pair
      cases pair
    | case4 c d rest apart ih =>
      obtain ⟨short, ascii, -⟩ := each c (plain c List.mem_cons_self)
      have later := ih fun e member => plain e (List.mem_cons_of_mem _ member)
      rw [escapeUnits, if_neg apart, utf8Bytes_ascii ascii]
      simp only [List.length_cons] at later ⊢
      omega
  have inner := units s.units printable
  have quoted := utf8Bytes_quoteUnits s
  simp only [textUnits, JsString.length]
  omega

end Handrail

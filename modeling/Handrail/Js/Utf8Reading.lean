import Handrail.Js.JsonReading
import Handrail.Js.Utf8

/-!
# Texts told apart by their bytes

The bytes of a text whose surrogates come in pairs are those of its parts, and determine it. `JSON.stringify` writes such texts.
-/

namespace Js

/-! ### Texts without lone surrogates -/

def paired : List UInt16 → Bool
  | [] => true
  | [c] => !isLeadingSurrogate c && !isTrailingSurrogate c
  | c :: d :: rest =>
    if isLeadingSurrogate c && isTrailingSurrogate d then paired rest
    else !isLeadingSurrogate c && !isTrailingSurrogate c && paired (d :: rest)

theorem paired_cons {c : UInt16} {rest : List UInt16} (leading : isLeadingSurrogate c = false)
    (trailing : isTrailingSurrogate c = false) : paired (c :: rest) = paired rest := by
  cases rest with
  | nil => simp [paired, leading, trailing]
  | cons d rest => simp [paired, leading, trailing]

theorem codePoints_cons {c : UInt16} {rest : List UInt16} (leading : isLeadingSurrogate c = false) :
    codePoints (c :: rest) = lonePoint c :: codePoints rest := by
  cases rest with
  | nil => rfl
  | cons d rest => simp [codePoints, leading]

variable {xs : List UInt16}

theorem paired_append (whole : paired xs = true) (ys : List UInt16) :
    paired (xs ++ ys) = paired ys ∧ codePoints (xs ++ ys) = codePoints xs ++ codePoints ys := by
  induction xs using paired.induct with
  | case1 => exact ⟨rfl, rfl⟩
  | case2 c =>
    simp only [paired, Bool.and_eq_true, Bool.not_eq_true'] at whole
    exact ⟨paired_cons whole.1 whole.2, codePoints_cons whole.1⟩
  | case3 c d rest pair ih =>
    rw [paired, if_pos pair] at whole
    obtain ⟨more, points⟩ := ih whole
    simp only [List.cons_append, paired, codePoints, if_pos pair]
    exact ⟨more, by rw [points]⟩
  | case4 c d rest apart ih =>
    rw [paired, if_neg apart, Bool.and_eq_true, Bool.and_eq_true, Bool.not_eq_true', Bool.not_eq_true'] at whole
    obtain ⟨more, points⟩ := ih whole.2
    rw [List.cons_append, paired_cons whole.1.1 whole.1.2, codePoints_cons whole.1.1, codePoints_cons whole.1.1, points]
    exact ⟨more, rfl⟩

theorem paired_concat {xs ys : List UInt16} (left : paired xs = true) (right : paired ys = true) : paired (xs ++ ys) = true := by
  rw [(paired_append left ys).1, right]

theorem encodeUtf8_append (whole : paired xs = true) (ys : List UInt16) :
    encodeUtf8 ⟨xs ++ ys⟩ = encodeUtf8 ⟨xs⟩ ++ encodeUtf8 ⟨ys⟩ := by
  unfold encodeUtf8
  rw [(paired_append whole ys).2, List.flatMap_append]

/-! ### Reading bytes back -/

def pointUnits (n : Nat) : List UInt16 :=
  if n < 0x10000 then [n.toUInt16] else [(0xd800 + (n - 0x10000) / 0x400).toUInt16, (0xdc00 + (n - 0x10000) % 0x400).toUInt16]

theorem pointUnits_toNat (c : UInt16) : pointUnits c.toNat = [c] := by
  rw [pointUnits, if_pos c.toNat_lt]
  simp

theorem pair_bounds {c d : UInt16} (pair : (isLeadingSurrogate c && isTrailingSurrogate d) = true) :
    0xd800 ≤ c.toNat ∧ c.toNat ≤ 0xdbff ∧ 0xdc00 ≤ d.toNat ∧ d.toNat ≤ 0xdfff := by
  simp only [isLeadingSurrogate, isTrailingSurrogate, Bool.and_eq_true, decide_eq_true_eq, UInt16.le_iff_toNat_le] at pair
  exact ⟨pair.1.1, pair.1.2, pair.2.1, pair.2.2⟩

theorem units_codePoints (whole : paired xs = true) : (codePoints xs).flatMap pointUnits = xs := by
  have lone {c : UInt16} (leading : isLeadingSurrogate c = false) (trailing : isTrailingSurrogate c = false) :
      pointUnits (lonePoint c) = [c] := by
    rw [lonePoint, leading, trailing]
    exact pointUnits_toNat c
  induction xs using paired.induct with
  | case1 => rfl
  | case2 c =>
    simp only [paired, Bool.and_eq_true, Bool.not_eq_true'] at whole
    rw [codePoints, List.flatMap_cons, lone whole.1 whole.2]
    rfl
  | case3 c d rest pair ih =>
    rw [paired, if_pos pair] at whole
    rw [codePoints, if_pos pair, List.flatMap_cons, ih whole, pointUnits]
    obtain ⟨low, high, low', high'⟩ := pair_bounds pair
    have first : 0xd800 + (0x10000 + (c.toNat - 0xd800) * 0x400 + (d.toNat - 0xdc00) - 0x10000) / 0x400 = c.toNat := by omega
    have second : 0xdc00 + (0x10000 + (c.toNat - 0xd800) * 0x400 + (d.toNat - 0xdc00) - 0x10000) % 0x400 = d.toNat := by omega
    rw [if_neg (by omega), first, second]
    simp
  | case4 c d rest apart ih =>
    rw [paired, if_neg apart, Bool.and_eq_true, Bool.and_eq_true, Bool.not_eq_true', Bool.not_eq_true'] at whole
    rw [codePoints, if_neg apart, List.flatMap_cons, ih whole.2, lone whole.1.1 whole.1.2]
    rfl

theorem codePoints_lt (xs : List UInt16) : ∀ n ∈ codePoints xs, n < 0x110000 := by
  have lone (c : UInt16) : lonePoint c < 0x110000 := by
    have small := c.toNat_lt
    unfold lonePoint
    split <;> omega
  induction xs using codePoints.induct with
  | case1 => simp [codePoints]
  | case2 c => simpa [codePoints] using lone c
  | case3 c d rest pair ih =>
    rw [codePoints, if_pos pair]
    obtain ⟨low, high, low', high'⟩ := pair_bounds pair
    simp only [List.mem_cons, forall_eq_or_imp]
    exact ⟨by omega, ih⟩
  | case4 c d rest apart ih =>
    rw [codePoints, if_neg apart]
    simp only [List.mem_cons, forall_eq_or_imp]
    exact ⟨lone c, ih⟩

def readPoint : List UInt8 → Nat × List UInt8
  | [] => (0, [])
  | a :: rest =>
    if a.toNat < 0x80 then (a.toNat, rest)
    else if a.toNat < 0xe0 then ((a.toNat - 0xc0) * 0x40 + (rest.getD 0 0).toNat % 0x40, rest.drop 1)
    else if a.toNat < 0xf0 then
      ((a.toNat - 0xe0) * 0x1000 + (rest.getD 0 0).toNat % 0x40 * 0x40 + (rest.getD 1 0).toNat % 0x40, rest.drop 2)
    else
      ((a.toNat - 0xf0) * 0x40000 + (rest.getD 0 0).toNat % 0x40 * 0x1000 + (rest.getD 1 0).toNat % 0x40 * 0x40 +
        (rest.getD 2 0).toNat % 0x40, rest.drop 3)

theorem readPoint_encodePoint {n : Nat} (small : n < 0x110000) (rest : List UInt8) :
    readPoint (encodePoint n ++ rest) = (n, rest) := by
  have byte {m : Nat} (fits : m < 0x100) : m.toUInt8.toNat = m := by
    rw [Nat.toUInt8_eq, UInt8.toNat_ofNat', Nat.mod_eq_of_lt fits]
  unfold encodePoint
  by_cases one : n < 0x80
  · rw [if_pos one, List.singleton_append, readPoint, byte (by omega), if_pos one]
  rw [if_neg one]
  by_cases two : n < 0x800
  · simp only [if_pos two, List.cons_append, List.nil_append, readPoint, List.getD_cons_zero, List.drop_succ_cons, List.drop_zero]
    rw [byte (by omega), byte (by omega), if_neg (by omega), if_pos (by omega)]
    congr 1
    omega
  rw [if_neg two]
  by_cases three : n < 0x10000
  · simp only [if_pos three, List.cons_append, List.nil_append, readPoint, List.getD_cons_zero, List.getD_cons_succ,
      List.drop_succ_cons, List.drop_zero]
    rw [byte (by omega), byte (by omega), byte (by omega), if_neg (by omega), if_neg (by omega), if_pos (by omega)]
    congr 1
    omega
  · simp only [if_neg three, List.cons_append, List.nil_append, readPoint, List.getD_cons_zero, List.getD_cons_succ,
      List.drop_succ_cons, List.drop_zero]
    rw [byte (by omega), byte (by omega), byte (by omega), byte (by omega), if_neg (by omega),
      if_neg (by omega), if_neg (by omega)]
    congr 1
    omega

theorem encodePoint_ne_nil (n : Nat) : encodePoint n ≠ [] := by
  unfold encodePoint
  repeat' split
  all_goals exact List.cons_ne_nil _ _

theorem encodePoints_inj {ms ns : List Nat} (left : ∀ m ∈ ms, m < 0x110000) (right : ∀ n ∈ ns, n < 0x110000)
    (same : ms.flatMap encodePoint = ns.flatMap encodePoint) : ms = ns := by
  induction ms generalizing ns with
  | nil =>
    cases ns with
    | nil => rfl
    | cons n ns =>
      rw [List.flatMap_nil, List.flatMap_cons] at same
      exact (encodePoint_ne_nil n (List.append_eq_nil_iff.mp same.symm).1).elim
  | cons m ms ih =>
    cases ns with
    | nil =>
      rw [List.flatMap_nil, List.flatMap_cons] at same
      exact (encodePoint_ne_nil m (List.append_eq_nil_iff.mp same).1).elim
    | cons n ns =>
      rw [List.flatMap_cons, List.flatMap_cons] at same
      have read := congrArg readPoint same
      rw [readPoint_encodePoint (left m List.mem_cons_self), readPoint_encodePoint (right n List.mem_cons_self),
        Prod.mk.injEq] at read
      rw [read.1, ih (fun k member => left k (List.mem_cons_of_mem _ member))
        (fun k member => right k (List.mem_cons_of_mem _ member))
        read.2]

theorem encodeUtf8_inj {s t : JsString} (left : paired s.units = true) (right : paired t.units = true)
    (same : encodeUtf8 s = encodeUtf8 t) : s = t := by
  have points : codePoints s.units = codePoints t.units := encodePoints_inj (codePoints_lt _) (codePoints_lt _) same
  apply JsString.ext
  rw [← units_codePoints left, points, units_codePoints right]

/-! ### The texts of `JSON.stringify` -/

theorem paired_plain (plain : ∀ c ∈ xs, isLeadingSurrogate c = false ∧ isTrailingSurrogate c = false) :
    paired xs = true := by
  induction xs with
  | nil => rfl
  | cons c rest ih =>
    rw [paired_cons (plain c List.mem_cons_self).1 (plain c List.mem_cons_self).2]
    exact ih fun d member => plain d (List.mem_cons_of_mem _ member)

theorem paired_unicodeEscape (c : UInt16) : paired (unicodeEscape c) = true := by
  have digit {n : UInt16} (small : n.toNat < 16) :
    isLeadingSurrogate (hexUnit n) = false ∧ isTrailingSurrogate (hexUnit n) = false := by
    have each : ∀ m : Fin 16, isLeadingSurrogate (hexUnit (UInt16.ofNat m)) = false ∧
        isTrailingSurrogate (hexUnit (UInt16.ofNat m)) = false := by decide
    have same : UInt16.ofNat n.toNat = n := UInt16.ofNat_toNat
    have found := each ⟨n.toNat, small⟩
    rwa [same] at found
  have high : (c >>> 12).toNat < 16 := by
    have small := c.toNat_lt
    have value : (c >>> 12).toNat = c.toNat / 4096 := by simp [Nat.shiftRight_eq_div_pow]
    omega
  have low (k : UInt16) : (k &&& 15).toNat < 16 := by
    rw [UInt16.toNat_and]
    exact Nat.lt_of_le_of_lt Nat.and_le_right (by decide)
  apply paired_plain
  intro u member
  simp only [unicodeEscape, List.mem_cons, List.not_mem_nil, or_false] at member
  rcases member with rfl | rfl | rfl | rfl | rfl | rfl
  · exact ⟨by decide, by decide⟩
  · exact ⟨by decide, by decide⟩
  · exact digit high
  · exact digit (low _)
  · exact digit (low _)
  · exact digit (low _)

theorem paired_escapeUnit (c : UInt16) : paired (escapeUnit c) = true := by
  unfold escapeUnit
  repeat' split
  any_goals rfl
  · exact paired_unicodeEscape c
  · rename_i plain
    simp only [Bool.or_eq_true, not_or, Bool.not_eq_true] at plain
    rw [paired, plain.1.2, plain.2]
    rfl

theorem paired_escapeUnits (xs : List UInt16) : paired (escapeUnits xs) = true := by
  induction xs using escapeUnits.induct with
  | case1 => rfl
  | case2 c => exact paired_escapeUnit c
  | case3 c d rest pair ih =>
    rw [escapeUnits, if_pos pair, paired, if_pos pair]
    exact ih
  | case4 c d rest apart ih =>
    rw [escapeUnits, if_neg apart]
    exact paired_concat (paired_escapeUnit c) ih

theorem paired_quoteUnits (s : JsString) : paired (quoteUnits s) = true := by
  rw [quoteUnits, List.cons_append, paired_cons (by decide) (by decide)]
  exact paired_concat (paired_escapeUnits s.units) rfl

theorem paired_itemUnits {items : List Json} (each : ∀ item ∈ items, paired (textUnits item) = true) (first : Bool) :
    paired (itemUnits first items) = true := by
  induction items generalizing first with
  | nil => cases first <;> rfl
  | cons item rest ih =>
    have tail := ih (fun other member => each other (List.mem_cons_of_mem _ member)) false
    rw [itemUnits]
    refine paired_concat (paired_concat ?_ (each item List.mem_cons_self)) tail
    cases first <;> rfl

theorem paired_fieldUnits {fields : Fields} (each : ∀ field ∈ fields, paired (textUnits field.2) = true) (first : Bool) :
    paired (fieldUnits first fields) = true := by
  induction fields generalizing first with
  | nil => cases first <;> rfl
  | cons field rest ih =>
    obtain ⟨key, value⟩ := field
    have tail := ih (fun other member => each other (List.mem_cons_of_mem _ member)) false
    rw [fieldUnits]
    refine paired_concat (paired_concat (paired_concat (paired_concat ?_ (paired_quoteUnits key)) rfl) ?_) tail
    · cases first <;> rfl
    · exact each (key, value) List.mem_cons_self

theorem paired_textUnits (j : Json) : paired (textUnits j) = true := by
  induction j using Json.induction with
  | null => decide
  | bool b => cases b <;> decide
  | num n =>
    apply paired_plain
    intro c member
    have numeral := n.isNumeral_text c member
    have small : c.toNat ≤ 101 := by
      simp only [isNumeral, Bool.or_eq_true, Bool.and_eq_true, decide_eq_true_eq, beq_iff_eq, UInt16.le_iff_toNat_le,
        ← UInt16.toNat_inj, UInt16.reduceToNat] at numeral
      omega
    simp only [isLeadingSurrogate, isTrailingSurrogate, Bool.and_eq_false_iff, decide_eq_false_iff_not,
      UInt16.le_iff_toNat_le, UInt16.reduceToNat]
    exact ⟨.inl (by omega), .inl (by omega)⟩
  | str s => exact paired_quoteUnits s
  | arr items ih =>
    rw [textUnits, paired_cons (by decide) (by decide)]
    exact paired_itemUnits ih true
  | obj fields ih =>
    rw [textUnits, paired_cons (by decide) (by decide)]
    exact paired_fieldUnits ih true

theorem encodeUtf8_stringify_inj {a b : Json} (same : encodeUtf8 (stringify a) = encodeUtf8 (stringify b)) :
    stringify a = stringify b := encodeUtf8_inj (paired_textUnits a) (paired_textUnits b) same

/-! ### How many bytes -/

/-- `new TextEncoder().encode(JSON.stringify(value)).byteLength` -/
def textBytes (j : Json) : Nat := (encodeUtf8 (stringify j)).length

theorem length_encodeUtf8_append (whole : paired xs = true) (ys : List UInt16) :
    (encodeUtf8 ⟨xs ++ ys⟩).length = (encodeUtf8 ⟨xs⟩).length + (encodeUtf8 ⟨ys⟩).length := by
  rw [encodeUtf8_append whole, List.length_append]

theorem itemUnits_bytes (items : List Json) :
    (encodeUtf8 ⟨itemUnits false items⟩).length = (items.map fun item => 1 + textBytes item).sum + 1 := by
  induction items with
  | nil => rfl
  | cons item rest ih =>
    have comma : (encodeUtf8 ⟨[44]⟩).length = 1 := rfl
    rw [itemUnits, List.append_assoc, length_encodeUtf8_append (by decide), length_encodeUtf8_append (paired_textUnits item), ih,
      List.map_cons, List.sum_cons, textBytes, stringify]
    simp only [Bool.false_eq_true, ↓reduceIte, comma]
    omega

theorem textBytes_arr {xs ys : List Json} (perm : xs.Perm ys) : textBytes (.arr xs) = textBytes (.arr ys) := by
  have opened (items : List Json) : textBytes (.arr items) = 1 + (encodeUtf8 ⟨itemUnits true items⟩).length :=
    length_encodeUtf8_append (show paired [91] = true from rfl) _
  have later (item : Json) (rest : List Json) :
      (encodeUtf8 ⟨itemUnits false (item :: rest)⟩).length = 1 + (encodeUtf8 ⟨itemUnits true (item :: rest)⟩).length := by
    rw [itemUnits, itemUnits, List.append_assoc]
    exact length_encodeUtf8_append (show paired [44] = true from rfl) _
  cases xs with
  | nil => rw [List.nil_perm.mp perm]
  | cons x xs =>
    cases ys with
    | nil => cases List.perm_nil.mp perm
    | cons y ys =>
      have sums := (perm.map fun item => 1 + textBytes item).sum_nat
      have left := itemUnits_bytes (x :: xs)
      have right := itemUnits_bytes (y :: ys)
      rw [later] at left right
      rw [opened, opened]
      omega

theorem textBytes_obj {fields other : Fields}
    (each : List.Forall₂ (fun f g => f.1 = g.1 ∧ textBytes f.2 = textBytes g.2) fields other) :
    textBytes (.obj fields) = textBytes (.obj other) := by
  have inner (first : Bool) : (encodeUtf8 ⟨fieldUnits first fields⟩).length = (encodeUtf8 ⟨fieldUnits first other⟩).length := by
    induction each generalizing first with
    | nil => rfl
    | @cons f g fs gs same _ ih =>
      obtain ⟨key, value⟩ := f
      obtain ⟨key', value'⟩ := g
      obtain ⟨rfl, bytes⟩ : key = key' ∧ textBytes value = textBytes value' := same
      have start : paired ((if first then [] else [44]) ++ quoteUnits key ++ [58]) = true := by
        refine paired_concat (paired_concat ?_ (paired_quoteUnits key)) rfl
        cases first <;> rfl
      simp only [textBytes, stringify] at bytes
      rw [fieldUnits, fieldUnits, List.append_assoc _ (textUnits value), List.append_assoc _ (textUnits value'),
        length_encodeUtf8_append start,
        length_encodeUtf8_append start, length_encodeUtf8_append (paired_textUnits value),
        length_encodeUtf8_append (paired_textUnits value'), bytes, ih false]
  have opened (fs : Fields) : textBytes (.obj fs) = 1 + (encodeUtf8 ⟨fieldUnits true fs⟩).length :=
    length_encodeUtf8_append (show paired [123] = true from rfl) _
  rw [opened, opened, inner]

end Js

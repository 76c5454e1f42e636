import Mathlib.Data.List.Sort
import Mathlib.Order.Defs.LinearOrder

/-!
# JavaScript strings

A JavaScript string is a sequence of UTF-16 code units, in which a surrogate may stand alone.
Literals are written as Lean strings and encoded by `js`, which is injective.
-/

namespace Js

/-- A JavaScript string: its UTF-16 code units. -/
@[ext]
structure JsString where
  units : List UInt16
deriving DecidableEq, Repr, Inhabited

namespace JsString

/-- `String.prototype.length`. -/
def length (s : JsString) : Nat := s.units.length

instance : Append JsString := ⟨fun s t => ⟨s.units ++ t.units⟩⟩

@[simp] theorem units_append (s t : JsString) : (s ++ t).units = s.units ++ t.units := rfl

@[simp] theorem length_append (s t : JsString) : (s ++ t).length = s.length + t.length :=
  List.length_append

theorem append_assoc (s t u : JsString) : s ++ t ++ u = s ++ (t ++ u) :=
  JsString.ext (List.append_assoc ..)

def empty : JsString := ⟨[]⟩

end JsString

/-! ### Literals -/

def utf16 (c : Char) : List UInt16 :=
  if c.toNat < 0x10000 then [c.toNat.toUInt16]
  else [(0xd800 + (c.toNat - 0x10000) / 0x400).toUInt16, (0xdc00 + (c.toNat - 0x10000) % 0x400).toUInt16]

def js (s : String) : JsString := ⟨s.toList.flatMap utf16⟩

theorem units_pass {p : UInt16 → Prop} [DecidablePred p] {units : List UInt16} (each : units.all (fun c => decide (p c)) = true) :
    ∀ c ∈ units, p c := by
  intro c member
  exact of_decide_eq_true (List.all_eq_true.mp each c member)

theorem toNat_toUInt16 {n : Nat} (h : n < 0x10000) : n.toUInt16.toNat = n := by
  simpa using Nat.mod_eq_of_lt h

theorem char_not_surrogate (c : Char) : c.toNat < 0xd800 ∨ 0xe000 ≤ c.toNat := by
  have valid := c.valid
  simp only [UInt32.isValidChar, Nat.isValidChar] at valid
  have : c.toNat = c.val.toNat := rfl
  omega

theorem char_lt (c : Char) : c.toNat < 0x110000 := by
  have valid := c.valid
  simp only [UInt32.isValidChar, Nat.isValidChar] at valid
  have : c.toNat = c.val.toNat := rfl
  omega

theorem utf16_append_inj {c d : Char} {xs ys : List UInt16}
    (h : utf16 c ++ xs = utf16 d ++ ys) : c = d ∧ xs = ys := by
  have cRange := char_not_surrogate c
  have dRange := char_not_surrogate d
  have cBound := char_lt c
  have dBound := char_lt d
  unfold utf16 at h
  -- A leading surrogate opens a pair and nothing else, so the first unit decides the length.
  split at h <;> split at h
  · simp only [List.cons_append, List.nil_append, List.cons.injEq] at h
    have same := congrArg UInt16.toNat h.1
    rw [toNat_toUInt16 (by omega), toNat_toUInt16 (by omega)] at same
    exact ⟨Char.toNat_inj.mp same, h.2⟩
  · simp only [List.cons_append, List.nil_append, List.cons.injEq] at h
    have same := congrArg UInt16.toNat h.1
    rw [toNat_toUInt16 (by omega), toNat_toUInt16 (by omega)] at same
    omega
  · simp only [List.cons_append, List.nil_append, List.cons.injEq] at h
    have same := congrArg UInt16.toNat h.1
    rw [toNat_toUInt16 (by omega), toNat_toUInt16 (by omega)] at same
    omega
  · simp only [List.cons_append, List.nil_append, List.cons.injEq] at h
    have high := congrArg UInt16.toNat h.1
    have low := congrArg UInt16.toNat h.2.1
    rw [toNat_toUInt16 (by omega), toNat_toUInt16 (by omega)] at high
    rw [toNat_toUInt16 (by omega), toNat_toUInt16 (by omega)] at low
    exact ⟨Char.toNat_inj.mp (by omega), h.2.2⟩

theorem flatMap_utf16_injective {xs ys : List Char}
    (h : xs.flatMap utf16 = ys.flatMap utf16) : xs = ys := by
  have nonempty (c : Char) : utf16 c ≠ [] := by unfold utf16; split <;> simp
  induction xs generalizing ys with
  | nil =>
    cases ys with
    | nil => rfl
    | cons d ys => simp [nonempty d] at h
  | cons c xs ih =>
    cases ys with
    | nil => simp [nonempty c] at h
    | cons d ys =>
      rw [List.flatMap_cons, List.flatMap_cons] at h
      obtain ⟨rfl, rest⟩ := utf16_append_inj h
      rw [ih rest]

@[simp] theorem js_inj {s t : String} : js s = js t ↔ s = t := by
  refine ⟨fun h => ?_, congrArg js⟩
  exact String.toList_inj.mp (flatMap_utf16_injective (congrArg JsString.units h))

@[simp] theorem js_beq (s t : String) : (js s == js t) = (s == t) := by
  by_cases h : s = t
  · simp [h]
  · simp [h]

/-! ### Order -/

namespace JsString

/-- The order of `Array.prototype.sort` without a comparator: by code units. -/
instance : LE JsString := ⟨fun s t => s.units ≤ t.units⟩

instance : DecidableLE JsString := fun s t => inferInstanceAs (Decidable (s.units ≤ t.units))

theorem le_refl (s : JsString) : s ≤ s := List.le_refl s.units

theorem le_trans {s t u : JsString} (st : s ≤ t) (tu : t ≤ u) : s ≤ u := List.le_trans st tu

theorem le_total (s t : JsString) : s ≤ t ∨ t ≤ s := List.le_total s.units t.units

theorem le_antisymm {s t : JsString} (st : s ≤ t) (ts : t ≤ s) : s = t :=
  JsString.ext (List.le_antisymm st ts)

end JsString

/-- `<` compares code units. -/
instance : LinearOrder JsString where
  le_refl := JsString.le_refl
  le_trans _ _ _ := JsString.le_trans
  le_antisymm _ _ := JsString.le_antisymm
  le_total := JsString.le_total
  toDecidableLE := inferInstance
  toDecidableEq := inferInstance

instance : IsTrans JsString (· ≤ ·) := ⟨fun _ _ _ => JsString.le_trans⟩

instance : Std.Total (α := JsString) (· ≤ ·) := ⟨JsString.le_total⟩

/-- `Array.prototype.sort` without a comparator. -/
def sortStrings (xs : List JsString) : List JsString := xs.insertionSort (· ≤ ·)

theorem sortStrings_perm (xs : List JsString) : (sortStrings xs).Perm xs := List.perm_insertionSort _ xs

theorem sortStrings_sorted (xs : List JsString) : (sortStrings xs).Pairwise (· ≤ ·) :=
  List.pairwise_insertionSort _ xs

theorem sortStrings_eq_iff {xs ys : List JsString} : sortStrings xs = sortStrings ys ↔ xs.Perm ys := by
  constructor
  · intro same
    exact (sortStrings_perm xs).symm.trans (same ▸ sortStrings_perm ys)
  · intro perm
    refine List.Perm.eq_of_pairwise (fun _ _ _ _ => JsString.le_antisymm)
      (sortStrings_sorted xs) (sortStrings_sorted ys) ?_
    exact (sortStrings_perm xs).trans (perm.trans (sortStrings_perm ys).symm)

end Js

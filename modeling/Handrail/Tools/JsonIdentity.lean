import Handrail.Tools.Executor

/-!
# One notion of JSON equality

`jsonValuesEqual` against `canonicalToolJson` and against the text that a value is stored as. They agree on the values
without a negative zero.
-/

namespace Handrail.Tools
open Js

/-! ### Negative zero -/

def isNegativeZero (n : JsNumber) : Bool := n.negative && n.digits == 0

mutual
/-- Somewhere in the value stands `-0`. -/
def hasNegativeZero : Json → Bool
  | .num n => isNegativeZero n
  | .arr items => itemsHaveNegativeZero items
  | .obj fields => fieldsHaveNegativeZero fields
  | _ => false
termination_by structural value => value
def itemsHaveNegativeZero : List Json → Bool
  | [] => false
  | item :: rest => hasNegativeZero item || itemsHaveNegativeZero rest
termination_by structural items => items
def fieldsHaveNegativeZero : Fields → Bool
  | [] => false
  | (_, value) :: rest => hasNegativeZero value || fieldsHaveNegativeZero rest
termination_by structural fields => fields
end

theorem hasNegativeZero_arr (items : List Json) : hasNegativeZero (.arr items) = items.any hasNegativeZero := by
  rw [hasNegativeZero]
  induction items with
  | nil => rfl
  | cons item rest ih => rw [itemsHaveNegativeZero, ih, List.any_cons]

theorem hasNegativeZero_obj (fields : Fields) :
    hasNegativeZero (.obj fields) = fields.any fun field => hasNegativeZero field.2 := by
  rw [hasNegativeZero]
  induction fields with
  | nil => rfl
  | cons field rest ih => rw [fieldsHaveNegativeZero, ih, List.any_cons]

theorem roundTrip_eq_self {n : JsNumber} : n.roundTrip = n ↔ isNegativeZero n = false := by
  obtain ⟨negative, digits, exponent, canonical⟩ := n
  by_cases zero : digits = 0
  · subst zero
    obtain ⟨_, rfl⟩ := canonical.resolve_left (by simp)
    cases negative <;> simp [JsNumber.roundTrip, isNegativeZero, JsNumber.ofNat]
  · simp [JsNumber.roundTrip, isNegativeZero, zero]

theorem roundTrip_of_plain {value : Json} (plain : hasNegativeZero value = false) : value.roundTrip = value := by
  induction value using Json.induction with
  | null | bool | str => rfl
  | num n => rw [Json.roundTrip_num, roundTrip_eq_self.mpr plain]
  | arr items ih =>
    rw [hasNegativeZero_arr, List.any_eq_false] at plain
    have each : items.map Json.roundTrip = items :=
      (List.map_congr_left fun item member => ih item member (by simpa using plain item member)).trans (List.map_id items)
    rw [Json.roundTrip_arr, each]
  | obj fields ih =>
    rw [hasNegativeZero_obj, List.any_eq_false] at plain
    have each : (fields.map fun field => (field.1, field.2.roundTrip)) = fields := by
      refine (List.map_congr_left fun field member => ?_).trans (List.map_id fields)
      rw [ih field member (by simpa using plain field member)]
      rfl
    rw [Json.roundTrip_obj, each]

theorem hasNegativeZero_roundTrip (value : Json) : hasNegativeZero value.roundTrip = false := by
  induction value using Json.induction with
  | null | bool | str => rfl
  | num n =>
    have again : n.roundTrip.roundTrip = n.roundTrip := by simp
    exact roundTrip_eq_self.mp again
  | arr items ih =>
    rw [Json.roundTrip_arr, hasNegativeZero_arr, List.any_eq_false]
    rintro item member
    obtain ⟨original, inside, rfl⟩ := List.mem_map.mp member
    simp [ih original inside]
  | obj fields ih =>
    rw [Json.roundTrip_obj, hasNegativeZero_obj, List.any_eq_false]
    rintro field member
    obtain ⟨original, inside, rfl⟩ := List.mem_map.mp member
    simp [ih original inside]

theorem any_congr_of_mem {α : Type} {p q : α → Bool} {items : List α} (same : ∀ a ∈ items, p a = q a) :
    items.any p = items.any q := by
  rw [Bool.eq_iff_iff, List.any_eq_true, List.any_eq_true]
  exact exists_congr fun a => and_congr_right fun member => by rw [same a member]

theorem hasNegativeZero_canonical (value : Json) : hasNegativeZero value.canonical = hasNegativeZero value := by
  induction value using Json.induction with
  | null | bool | str | num => rfl
  | arr items ih =>
    rw [Json.canonical_arr, hasNegativeZero_arr, hasNegativeZero_arr, List.any_map]
    exact any_congr_of_mem fun item member => ih item member
  | obj fields ih =>
    rw [Json.canonical_obj, hasNegativeZero_obj, hasNegativeZero_obj, (Json.sortFields_perm _).any_eq, List.any_map]
    exact any_congr_of_mem fun field member => ih field member

/-! ### Equality, text and storage -/

def OneEquality (left right : Json) : Prop :=
  (jsonValuesEqual left right = true ↔ canonicalToolJson left = canonicalToolJson right) ∧
    jsonValuesEqual left left.roundTrip = true ∧ jsonValuesEqual right right.roundTrip = true

theorem equal_roundTrip {value : Json} (formed : value.wellFormed = true) :
    jsonValuesEqual value value.roundTrip = true ↔ hasNegativeZero value = false := by
  rw [jsonValuesEqual_iff formed (by rwa [Json.wellFormed_roundTrip])]
  constructor
  · intro same
    rw [← hasNegativeZero_canonical, same, hasNegativeZero_canonical, hasNegativeZero_roundTrip]
  · intro plain
    rw [roundTrip_of_plain plain]

theorem equal_iff_text {left right : Json} (formed : left.wellFormed = true) (formed' : right.wellFormed = true)
    (plain : hasNegativeZero left = false) (plain' : hasNegativeZero right = false) :
    jsonValuesEqual left right = true ↔ canonicalToolJson left = canonicalToolJson right := by
  rw [jsonValuesEqual_iff formed formed', canonicalToolJson, canonicalToolJson, stringify_canonical_inj, roundTrip_of_plain plain,
    roundTrip_of_plain plain']

/-- `jsonValuesEqual`, the canonical text and the stored copy agree exactly on values without a negative zero. On all values
`jsonValuesEqual` is an equivalence that does not see the order of fields. -/
theorem json_equality (left right : Json) (formed : left.wellFormed = true) (formed' : right.wellFormed = true) :
    (OneEquality left right ↔ hasNegativeZero left = false ∧ hasNegativeZero right = false) ∧
      jsonValuesEqual left left = true ∧ (jsonValuesEqual left right = true → jsonValuesEqual right left = true) ∧
      (∀ third : Json, third.wellFormed = true → jsonValuesEqual left right = true → jsonValuesEqual right third = true →
        jsonValuesEqual left third = true) ∧
      (∀ fields other, left = .obj fields → fields.Perm other → jsonValuesEqual left (.obj other) = true) := by
  refine ⟨⟨fun ⟨_, own, own'⟩ => ⟨(equal_roundTrip formed).mp own, (equal_roundTrip formed').mp own'⟩, ?_⟩,
    jsonValuesEqual_self formed, ?_, ?_, ?_⟩
  · rintro ⟨plain, plain'⟩
    exact ⟨equal_iff_text formed formed' plain plain', (equal_roundTrip formed).mpr plain, (equal_roundTrip formed').mpr plain'⟩
  · intro same
    rw [jsonValuesEqual_iff formed formed'] at same
    exact (jsonValuesEqual_iff formed' formed).mpr same.symm
  · intro third formed'' first second
    rw [jsonValuesEqual_iff formed formed'] at first
    rw [jsonValuesEqual_iff formed' formed''] at second
    exact (jsonValuesEqual_iff formed formed'').mpr (first.trans second)
  · rintro fields other rfl perm
    have formedFields := Json.wellFormed_obj.mp formed
    have formedOther : (Json.obj other).wellFormed = true := by
      refine Json.wellFormed_obj.mpr ⟨(perm.map Prod.fst).nodup_iff.mp formedFields.1, fun field member => ?_⟩
      exact formedFields.2 field (perm.mem_iff.mpr member)
    rw [jsonValuesEqual_iff formed formedOther, Json.canonical_obj_eq_iff formedFields.1]
    exact perm.map _

def sampleValue (first second : String) : Json := .object [(first, .num (.ofNat 1)), (second, .arr [.num (.ofNat 0), .null])]

theorem json_equality_sampled : OneEquality (sampleValue "x" "10") (sampleValue "x" "10") ∧
    jsonValuesEqual (sampleValue "x" "10") (sampleValue "x" "10") = true := by
  have formed : (sampleValue "x" "10").wellFormed = true := by decide +kernel
  have plain : hasNegativeZero (sampleValue "x" "10") = false := by decide +kernel
  have facts := json_equality (sampleValue "x" "10") (sampleValue "x" "10") formed formed
  exact ⟨facts.1.mpr ⟨plain, plain⟩, facts.2.1⟩

theorem zero_canonical : 0 % 10 ≠ 0 ∨ 0 = 0 ∧ (0 : Int) = 0 := .inr ⟨rfl, rfl⟩

def negativeZero : Json := .num ⟨true, 0, 0, zero_canonical⟩

/-- Zero and negative zero have one text and are not equal, and negative zero is not equal to its stored copy. -/
theorem negative_zero_differs : ∃ left right : Json, left.wellFormed = true ∧ right.wellFormed = true ∧
    canonicalToolJson left = canonicalToolJson right ∧ jsonValuesEqual left right = false ∧
    jsonValuesEqual left left.roundTrip = false :=
  ⟨negativeZero, .num (.ofNat 0), by decide, by decide, by decide +kernel, by decide, by decide⟩

end Handrail.Tools

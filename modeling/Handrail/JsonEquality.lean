import Handrail.Js.Json

/-!
# `json-equality.ts`

`jsonValuesEqual` compares JSON values without regard to the order of fields. On values whose
objects have distinct field names it is equality of canonical forms.
-/

namespace Handrail
open Js

mutual
def jsonValuesEqual : Json → Json → Bool
  | .arr left, .arr right => left.length == right.length && everyItemEqual left right
  | .obj left, .obj right =>
    sortStrings (Json.keys left) == sortStrings (Json.keys right) && everyFieldEqual left right
  | .null, .null => true
  | .bool left, .bool right => left == right
  | .num left, .num right => left == right
  | .str left, .str right => left == right
  | _, _ => false
termination_by structural left => left
/-- `left.every((value, index) => jsonValuesEqual(value, right[index]))` -/
def everyItemEqual : List Json → List Json → Bool
  | [], _ => true
  | value :: rest, right :: others => jsonValuesEqual value right && everyItemEqual rest others
  | _, _ => false
termination_by structural left => left
/-- `leftKeys.every((key) => jsonValuesEqual(leftRecord[key], rightRecord[key]))` -/
def everyFieldEqual : Fields → Fields → Bool
  | [], _ => true
  | (key, value) :: rest, right =>
    (right.lookup key).any (jsonValuesEqual value ·) && everyFieldEqual rest right
termination_by structural left => left
end

theorem everyItemEqual_iff {left right : List Json} (length : left.length = right.length)
    (ih : ∀ item ∈ left, ∀ other ∈ right,
      (jsonValuesEqual item other = true ↔ item.canonical = other.canonical)) :
    everyItemEqual left right = true ↔ left.map Json.canonical = right.map Json.canonical := by
  induction left generalizing right with
  | nil =>
    cases right with
    | nil => simp [everyItemEqual]
    | cons other others => cases length
  | cons item rest tail =>
    cases right with
    | nil => cases length
    | cons other others =>
      have first := ih item List.mem_cons_self other List.mem_cons_self
      have later := tail (Nat.succ.inj length) fun a left b right =>
        ih a (List.mem_cons_of_mem _ left) b (List.mem_cons_of_mem _ right)
      simp only [everyItemEqual, Bool.and_eq_true, first, later, List.map_cons, List.cons.injEq]

theorem everyFieldEqual_iff {left right : Fields} :
    everyFieldEqual left right = true ↔
      ∀ field ∈ left, ∃ other, right.lookup field.1 = some other ∧ jsonValuesEqual field.2 other = true := by
  induction left with
  | nil => simp [everyFieldEqual]
  | cons field rest ih =>
    obtain ⟨key, value⟩ := field
    simp only [everyFieldEqual, Bool.and_eq_true, ih, List.forall_mem_cons, Option.any_eq_true]

theorem jsonValuesEqual_iff {left right : Json} (wellFormed : left.wellFormed = true)
    (wellFormed' : right.wellFormed = true) :
    jsonValuesEqual left right = true ↔ left.canonical = right.canonical := by
  induction left using Json.induction generalizing right with
  | null => cases right <;> simp [jsonValuesEqual, Json.canonical]
  | bool b => cases right <;> simp [jsonValuesEqual, Json.canonical]
  | num n => cases right <;> simp [jsonValuesEqual, Json.canonical]
  | str s => cases right <;> simp [jsonValuesEqual, Json.canonical]
  | arr items ih =>
    cases right with
    | arr others =>
      rw [Json.wellFormed_arr] at wellFormed wellFormed'
      simp only [jsonValuesEqual, Bool.and_eq_true, beq_iff_eq, Json.canonical_arr, Json.arr.injEq]
      constructor
      · rintro ⟨length, each⟩
        exact (everyItemEqual_iff length fun item member other member' =>
          ih item member (wellFormed item member) (wellFormed' other member')).mp each
      · intro same
        have length : items.length = others.length := by simpa using congrArg List.length same
        exact ⟨length, (everyItemEqual_iff length fun item member other member' =>
          ih item member (wellFormed item member) (wellFormed' other member')).mpr same⟩
    | _ => simp [jsonValuesEqual, Json.canonical]
  | obj fields ih =>
    cases right with
    | obj others =>
      rw [Json.wellFormed_obj] at wellFormed wellFormed'
      obtain ⟨distinct, inner⟩ := wellFormed
      obtain ⟨distinct', inner'⟩ := wellFormed'
      simp only [jsonValuesEqual, Bool.and_eq_true, beq_iff_eq, sortStrings_eq_iff, everyFieldEqual_iff]
      constructor
      · rintro ⟨perm, each⟩
        refine Json.canonical_obj_ext distinct distinct' fun key => ?_
        cases got : fields.lookup key with
        | none =>
          have absent : others.lookup key = none := by
            rw [← Option.not_isSome_iff_eq_none, Json.lookup_isSome_iff, ← perm.mem_iff,
              ← Json.lookup_isSome_iff, got]
            simp
          rw [absent]
        | some value =>
          have member := Json.mem_of_lookup got
          obtain ⟨other, got', same⟩ := each _ member
          have equal := (ih _ member (inner _ member) (inner' _ (Json.mem_of_lookup got'))).mp same
          rw [got', Option.map_some, Option.map_some, equal]
      · intro same
        refine ⟨Json.canonical_keys distinct same, ?_⟩
        rintro ⟨key, value⟩ member
        have got := Json.canonical_get distinct same distinct' key
        rw [Json.lookup_of_mem distinct member, Option.map_some] at got
        obtain ⟨other, got', equal⟩ := Option.map_eq_some_iff.mp got.symm
        have member' := Json.mem_of_lookup got'
        exact ⟨other, got', (ih _ member (inner _ member) (inner' _ member')).mpr equal.symm⟩
    | _ => simp [jsonValuesEqual, Json.canonical]

theorem jsonValuesEqual_self {j : Json} (wellFormed : j.wellFormed = true) : jsonValuesEqual j j = true :=
  (jsonValuesEqual_iff wellFormed wellFormed).mpr rfl

/-! ### Reading equal values -/

theorem jsonValuesEqual_str {text : JsString} {j : Json} :
    jsonValuesEqual (.str text) j = true ↔ j = .str text := by
  cases j with
  | str other =>
    simp only [jsonValuesEqual, beq_iff_eq, Json.str.injEq]
    exact eq_comm
  | _ => simp [jsonValuesEqual]

theorem jsonValuesEqual_obj {fields : Fields} {j : Json} (same : jsonValuesEqual (.obj fields) j = true) :
    ∃ other, j = .obj other ∧ (Json.keys fields).Perm (Json.keys other) ∧
      ∀ field ∈ fields, ∃ value, other.lookup field.1 = some value ∧ jsonValuesEqual field.2 value = true := by
  cases j with
  | obj other =>
    simp only [jsonValuesEqual, Bool.and_eq_true, beq_iff_eq, sortStrings_eq_iff, everyFieldEqual_iff] at same
    exact ⟨other, rfl, same⟩
  | _ => simp [jsonValuesEqual] at same

theorem everyItemEqual_forall₂ {left right : List Json} (length : left.length = right.length)
    (same : everyItemEqual left right = true) :
    List.Forall₂ (fun a b => jsonValuesEqual a b = true) left right := by
  induction left generalizing right with
  | nil =>
    cases right with
    | nil => exact .nil
    | cons => cases length
  | cons item rest ih =>
    cases right with
    | nil => cases length
    | cons other others =>
      simp only [everyItemEqual, Bool.and_eq_true] at same
      exact .cons same.1 (ih (Nat.succ.inj length) same.2)

theorem jsonValuesEqual_arr {items : List Json} {j : Json} (same : jsonValuesEqual (.arr items) j = true) :
    ∃ others, j = .arr others ∧ List.Forall₂ (fun a b => jsonValuesEqual a b = true) items others := by
  cases j with
  | arr others =>
    simp only [jsonValuesEqual, Bool.and_eq_true, beq_iff_eq] at same
    exact ⟨others, rfl, everyItemEqual_forall₂ same.1 same.2⟩
  | _ => simp [jsonValuesEqual] at same

theorem get_string_of_equal {fields other : Fields} {key : String} {text : JsString}
    (same : jsonValuesEqual (.obj fields) (.obj other) = true) (written : (js key, .str text) ∈ fields) :
    Json.get other key = some (.str text) := by
  obtain ⟨_, h, _, each⟩ := jsonValuesEqual_obj same
  obtain rfl := Json.obj.inj h
  obtain ⟨value, got, equal⟩ := each _ written
  rw [jsonValuesEqual_str.mp equal] at got
  exact got

end Handrail

import Handrail.Js.Json

/-!
# Values of an unknown type

What a host or a caller hands over is `unknown`: JSON, or a value that JSON has no form for.
-/

namespace Js

inductive JsValue where
  | undefined
  | null
  | bool (value : Bool)
  | num (value : JsNumber)
  /-- `NaN` and the infinities. -/
  | nonFinite
  | str (value : JsString)
  | arr (items : List JsValue)
  /-- A plain object: its prototype is `Object.prototype` or `null`. -/
  | obj (fields : List (JsString × JsValue))
  /-- A function, a symbol, a big integer, or an object of a class. -/
  | other
deriving Inhabited

namespace JsValue

/-- Induction with the hypothesis for every item of an array and every field of an object. -/
theorem induction {motive : JsValue → Prop} (undefined : motive .undefined) (null : motive .null)
    (bool : ∀ b, motive (.bool b)) (num : ∀ n, motive (.num n)) (nonFinite : motive .nonFinite)
    (str : ∀ s, motive (.str s)) (arr : ∀ items, (∀ item ∈ items, motive item) → motive (.arr items))
    (obj : ∀ fields, (∀ field ∈ fields, motive field.2) → motive (.obj fields)) (other : motive .other)
    (value : JsValue) : motive value :=
  value.rec (motive_1 := motive) (motive_2 := fun items => ∀ item ∈ items, motive item)
    (motive_3 := fun fields => ∀ field ∈ fields, motive field.2) (motive_4 := fun field => motive field.2)
    undefined null bool num nonFinite str arr obj other (by simp) (by simp_all) (by simp) (by simp_all)
    (fun _ _ value => value)

/-- `object[key]` of a plain object. -/
def get (fields : List (JsString × JsValue)) (key : String) : JsValue := (fields.lookup (js key)).getD .undefined

/-- `key in object` of a plain object. -/
def has (fields : List (JsString × JsValue)) (key : String) : Bool := (fields.lookup (js key)).isSome

mutual
def ofJson : Json → JsValue
  | .null => .null
  | .bool b => .bool b
  | .num n => .num n
  | .str s => .str s
  | .arr items => .arr (ofItems items)
  | .obj fields => .obj (ofFields fields)
termination_by structural j => j
def ofItems : List Json → List JsValue
  | [] => []
  | item :: rest => ofJson item :: ofItems rest
termination_by structural items => items
def ofFields : Fields → List (JsString × JsValue)
  | [] => []
  | (key, value) :: rest => (key, ofJson value) :: ofFields rest
termination_by structural fields => fields
end

@[simp] theorem length_ofItems (items : List Json) : (ofItems items).length = items.length := by
  induction items with
  | nil => rfl
  | cons item rest ih => simp [ofItems, ih]

@[simp] theorem length_ofFields (fields : Fields) : (ofFields fields).length = fields.length := by
  induction fields with
  | nil => rfl
  | cons field rest ih =>
    obtain ⟨key, value⟩ := field
    simp [ofFields, ih]

end JsValue

end Js

import Handrail.Js.Number

/-!
# JSON values

Objects list their fields in enumeration order, so that textual comparison can see key order; the
canonical form sorts every object and identifies the values that differ in key order only. A list
of fields stands for a JavaScript object when its names are distinct: `Json.wellFormed`.
-/

namespace Js

inductive Json where
  | null
  | bool (value : Bool)
  | num (value : JsNumber)
  | str (value : JsString)
  | arr (items : List Json)
  | obj (fields : List (JsString × Json))
deriving Inhabited

abbrev Fields := List (JsString × Json)

namespace Json

/-- Induction with the hypothesis for every item of an array and every field of an object. -/
theorem induction {motive : Json → Prop} (null : motive .null) (bool : ∀ b, motive (.bool b))
    (num : ∀ n, motive (.num n)) (str : ∀ s, motive (.str s))
    (arr : ∀ items, (∀ item ∈ items, motive item) → motive (.arr items))
    (obj : ∀ fields, (∀ field ∈ fields, motive field.2) → motive (.obj fields)) (j : Json) :
    motive j :=
  j.rec (motive_1 := motive) (motive_2 := fun items => ∀ item ∈ items, motive item)
    (motive_3 := fun fields => ∀ field ∈ fields, motive field.2) (motive_4 := fun field => motive field.2)
    null bool num str arr obj (by simp) (by simp_all) (by simp) (by simp_all) (fun _ _ value => value)

def fieldsOf (fields : List (String × Json)) : Fields := fields.map fun field => (js field.1, field.2)

def object (fields : List (String × Json)) : Json := .obj (fieldsOf fields)

/-- `object[key]`, with `none` for `undefined`. -/
def get (fields : Fields) (key : String) : Option Json := fields.lookup (js key)

/-- `Object.hasOwn(object, key)` -/
def hasOwn (fields : Fields) (key : String) : Bool := (get fields key).isSome

@[simp] theorem get_fieldsOf (fields : List (String × Json)) (key : String) :
    get (fieldsOf fields) key = fields.lookup key := by
  induction fields with
  | nil => rfl
  | cons field rest ih =>
    obtain ⟨head, value⟩ := field
    simp only [get, fieldsOf, List.map_cons, List.lookup_cons, js_beq] at ih ⊢
    rw [ih]

/-! ### Distinct names -/

/-- `Object.keys(object)` -/
def keys (fields : Fields) : List JsString := fields.map Prod.fst

mutual
def wellFormed : Json → Bool
  | .arr items => wellFormedItems items
  | .obj fields => decide (keys fields).Nodup && wellFormedFields fields
  | _ => true
termination_by structural j => j
def wellFormedItems : List Json → Bool
  | [] => true
  | item :: rest => wellFormed item && wellFormedItems rest
termination_by structural items => items
def wellFormedFields : Fields → Bool
  | [] => true
  | (_, value) :: rest => wellFormed value && wellFormedFields rest
termination_by structural fields => fields
end

theorem wellFormedItems_iff {items : List Json} :
    wellFormedItems items = true ↔ ∀ item ∈ items, wellFormed item = true := by
  induction items with
  | nil => simp [wellFormedItems]
  | cons item rest ih => simp [wellFormedItems, ih]

variable {fields : Fields}

theorem wellFormedFields_iff :
    wellFormedFields fields = true ↔ ∀ field ∈ fields, wellFormed field.2 = true := by
  induction fields with
  | nil => simp [wellFormedFields]
  | cons field rest ih =>
    obtain ⟨key, value⟩ := field
    simp [wellFormedFields, ih]

@[simp] theorem wellFormed_arr {items : List Json} :
    wellFormed (.arr items) = true ↔ ∀ item ∈ items, wellFormed item = true := by
  rw [wellFormed, wellFormedItems_iff]

@[simp] theorem wellFormed_obj :
    wellFormed (.obj fields) = true ↔
      (keys fields).Nodup ∧ ∀ field ∈ fields, wellFormed field.2 = true := by
  rw [wellFormed, Bool.and_eq_true, decide_eq_true_iff, wellFormedFields_iff]

/-! ### `JSON.parse(JSON.stringify(value))` -/

mutual
def roundTrip : Json → Json
  | .num n => .num n.roundTrip
  | .arr items => .arr (roundTripItems items)
  | .obj fields => .obj (roundTripFields fields)
  | j => j
termination_by structural j => j
def roundTripItems : List Json → List Json
  | [] => []
  | item :: rest => roundTrip item :: roundTripItems rest
termination_by structural items => items
def roundTripFields : Fields → Fields
  | [] => []
  | (key, value) :: rest => (key, roundTrip value) :: roundTripFields rest
termination_by structural fields => fields
end

theorem roundTripItems_eq (items : List Json) : roundTripItems items = items.map roundTrip := by
  induction items with
  | nil => rfl
  | cons item rest ih => simp [roundTripItems, ih]

theorem roundTripFields_eq (fields : Fields) :
    roundTripFields fields = fields.map fun field => (field.1, roundTrip field.2) := by
  induction fields with
  | nil => rfl
  | cons field rest ih =>
    obtain ⟨key, value⟩ := field
    simp [roundTripFields, ih]

@[simp] theorem roundTrip_null : roundTrip .null = .null := rfl
@[simp] theorem roundTrip_bool (b : Bool) : roundTrip (.bool b) = .bool b := rfl
@[simp] theorem roundTrip_num (n : JsNumber) : roundTrip (.num n) = .num n.roundTrip := rfl
@[simp] theorem roundTrip_str (s : JsString) : roundTrip (.str s) = .str s := rfl

@[simp] theorem roundTrip_arr (items : List Json) :
    roundTrip (.arr items) = .arr (items.map roundTrip) := by
  rw [roundTrip, roundTripItems_eq]

theorem roundTrip_obj (fields : Fields) :
    roundTrip (.obj fields) = .obj (fields.map fun field => (field.1, roundTrip field.2)) := by
  rw [roundTrip, roundTripFields_eq]

@[simp] theorem roundTrip_object (fields : List (String × Json)) :
    roundTrip (object fields) = object (fields.map fun field => (field.1, roundTrip field.2)) := by
  simp [object, fieldsOf, roundTrip_obj, Function.comp_def]

@[simp] theorem roundTrip_roundTrip (j : Json) : j.roundTrip.roundTrip = j.roundTrip := by
  induction j using Json.induction with
  | null | bool | str => rfl
  | num n => simp
  | arr items ih => simpa using ih
  | obj fields ih => simpa [roundTrip_obj] using fun key value member => ih (key, value) member

@[simp] theorem wellFormed_roundTrip (j : Json) : j.roundTrip.wellFormed = j.wellFormed := by
  induction j using Json.induction with
  | null | bool | str | num => rfl
  | arr items ih =>
    rw [Bool.eq_iff_iff]
    simp only [roundTrip_arr, wellFormed_arr, List.forall_mem_map]
    exact forall₂_congr fun item member => by rw [ih item member]
  | obj fields ih =>
    rw [Bool.eq_iff_iff]
    simp only [roundTrip_obj, wellFormed_obj, keys, List.map_map, Function.comp_def, List.forall_mem_map]
    exact and_congr_right fun _ => forall₂_congr fun field member => by rw [ih field member]

/-! ### Lookup in well-formed objects -/

theorem lookup_of_mem (distinct : (keys fields).Nodup) {key : JsString} {value : Json}
    (member : (key, value) ∈ fields) : fields.lookup key = some value := by
  induction fields with
  | nil => cases member
  | cons field rest ih =>
    obtain ⟨head, first⟩ := field
    simp only [keys, List.map_cons, List.nodup_cons] at distinct
    rcases List.mem_cons.mp member with same | later
    · cases same
      simp
    · have different : (key == head) = false := by
        simp only [beq_eq_false_iff_ne, ne_eq]
        rintro rfl
        exact distinct.1 (List.mem_map_of_mem later)
      rw [List.lookup_cons, different]
      exact ih distinct.2 later

theorem mem_of_lookup {key : JsString} {value : Json}
    (found : fields.lookup key = some value) : (key, value) ∈ fields := by
  induction fields with
  | nil => cases found
  | cons field rest ih =>
    obtain ⟨head, first⟩ := field
    rw [List.lookup_cons] at found
    split at found
    · rename_i same
      obtain rfl := eq_of_beq same
      obtain rfl := Option.some.inj found
      exact List.mem_cons_self
    · exact List.mem_cons_of_mem _ (ih found)

theorem lookup_isSome_iff {key : JsString} :
    (fields.lookup key).isSome ↔ key ∈ keys fields := by
  induction fields with
  | nil => simp [keys]
  | cons field rest ih =>
    obtain ⟨head, first⟩ := field
    rw [List.lookup_cons]
    by_cases same : key = head
    · simp [same, keys]
    · simp only [beq_eq_false_iff_ne.mpr same, ih, keys, List.map_cons, List.mem_cons, same, false_or]

theorem hasOwn_iff {key : String} : hasOwn fields key = true ↔ js key ∈ keys fields :=
  lookup_isSome_iff

/-! ### Canonical form -/

def nameLe (a b : JsString × Json) : Prop := a.1 ≤ b.1

instance : DecidableRel nameLe := fun a b => inferInstanceAs (Decidable (a.1 ≤ b.1))

instance : IsTrans (JsString × Json) nameLe := ⟨fun _ _ _ => JsString.le_trans⟩

instance : Std.Total nameLe := ⟨fun a b => JsString.le_total a.1 b.1⟩

def sortFields (fields : Fields) : Fields := fields.insertionSort nameLe

theorem sortFields_perm (fields : Fields) : (sortFields fields).Perm fields := List.perm_insertionSort _ fields

theorem sortFields_sorted (fields : Fields) : (sortFields fields).Pairwise fun a b => a.1 ≤ b.1 :=
  List.pairwise_insertionSort nameLe fields

theorem field_ext_of_nodup (distinct : (keys fields).Nodup) {a b : JsString × Json}
    (left : a ∈ fields) (right : b ∈ fields) (same : a.1 = b.1) : a = b := by
  obtain ⟨key, value⟩ := a
  obtain ⟨key', value'⟩ := b
  obtain rfl : key = key' := same
  have found := lookup_of_mem distinct left
  rw [lookup_of_mem distinct right] at found
  rw [Option.some.inj found]

theorem sortFields_congr {fields other : Fields} (distinct : (keys fields).Nodup)
    (perm : fields.Perm other) : sortFields fields = sortFields other := by
  refine List.Perm.eq_of_pairwise (fun a b left right ab ba => ?_) (sortFields_sorted fields)
    (sortFields_sorted other) ((sortFields_perm fields).trans (perm.trans (sortFields_perm other).symm))
  have left := (sortFields_perm fields).mem_iff.mp left
  have right := perm.mem_iff.mpr ((sortFields_perm other).mem_iff.mp right)
  exact field_ext_of_nodup distinct left right (JsString.le_antisymm ab ba)

mutual
def canonical : Json → Json
  | .arr items => .arr (canonicalItems items)
  | .obj fields => .obj (sortFields (canonicalFields fields))
  | j => j
termination_by structural j => j
def canonicalItems : List Json → List Json
  | [] => []
  | item :: rest => canonical item :: canonicalItems rest
termination_by structural items => items
def canonicalFields : Fields → Fields
  | [] => []
  | (key, value) :: rest => (key, canonical value) :: canonicalFields rest
termination_by structural fields => fields
end

theorem canonicalItems_eq (items : List Json) : canonicalItems items = items.map canonical := by
  induction items with
  | nil => rfl
  | cons item rest ih => simp [canonicalItems, ih]

theorem canonicalFields_eq (fields : Fields) :
    canonicalFields fields = fields.map fun field => (field.1, canonical field.2) := by
  induction fields with
  | nil => rfl
  | cons field rest ih =>
    obtain ⟨key, value⟩ := field
    simp [canonicalFields, ih]

theorem canonical_arr (items : List Json) : canonical (.arr items) = .arr (items.map canonical) := by
  rw [canonical, canonicalItems_eq]

theorem canonical_obj (fields : Fields) :
    canonical (.obj fields) = .obj (sortFields (fields.map fun field => (field.1, canonical field.2))) := by
  rw [canonical, canonicalFields_eq]

theorem keys_canonicalFields (fields : Fields) :
    keys (fields.map fun field => (field.1, canonical field.2)) = keys fields := by
  simp [keys, Function.comp_def]

/-- Two objects have one canonical form when their canonical fields agree as sets. -/
theorem canonical_obj_eq_iff {fields other : Fields} (distinct : (keys fields).Nodup) :
    canonical (.obj fields) = canonical (.obj other) ↔
      (fields.map fun field => (field.1, canonical field.2)).Perm
        (other.map fun field => (field.1, canonical field.2)) := by
  rw [canonical_obj, canonical_obj, Json.obj.injEq]
  constructor
  · intro same
    exact (sortFields_perm _).symm.trans (same ▸ sortFields_perm _)
  · intro perm
    exact sortFields_congr (by rw [keys_canonicalFields]; exact distinct) perm

theorem canonical_get {fields other : Fields} (distinct : (keys fields).Nodup)
    (same : canonical (.obj fields) = canonical (.obj other)) (distinct' : (keys other).Nodup)
    (key : JsString) : (fields.lookup key).map canonical = (other.lookup key).map canonical := by
  have perm := (canonical_obj_eq_iff distinct).mp same
  have lookup_map (fs : Fields) : (fs.lookup key).map canonical =
      (fs.map fun field => (field.1, canonical field.2)).lookup key := by
    induction fs with
    | nil => rfl
    | cons field rest ih =>
      obtain ⟨head, first⟩ := field
      simp only [List.map_cons, List.lookup_cons]
      split
      · rfl
      · exact ih
  rw [lookup_map, lookup_map]
  apply Option.ext
  intro value
  have keysLeft := (keys_canonicalFields fields).symm ▸ distinct
  have keysRight := (keys_canonicalFields other).symm ▸ distinct'
  exact ⟨fun found => lookup_of_mem keysRight (perm.mem_iff.mp (mem_of_lookup found)),
    fun found => lookup_of_mem keysLeft (perm.mem_iff.mpr (mem_of_lookup found))⟩

theorem canonical_keys {fields other : Fields} (distinct : (keys fields).Nodup)
    (same : canonical (.obj fields) = canonical (.obj other)) : (keys fields).Perm (keys other) := by
  have perm := ((canonical_obj_eq_iff distinct).mp same).map Prod.fst
  simpa [keys, Function.comp_def] using perm

theorem lookup_map_snd (fields : Fields) (f : Json → Json) (key : JsString) :
    (fields.map fun field => (field.1, f field.2)).lookup key = (fields.lookup key).map f := by
  induction fields with
  | nil => rfl
  | cons field rest ih =>
    obtain ⟨head, first⟩ := field
    simp only [List.map_cons, List.lookup_cons]
    split
    · rfl
    · exact ih

theorem canonical_obj_ext {fields other : Fields} (distinct : (keys fields).Nodup)
    (distinct' : (keys other).Nodup)
    (same : ∀ key, (fields.lookup key).map canonical = (other.lookup key).map canonical) :
    canonical (.obj fields) = canonical (.obj other) := by
  have pairs {fs : Fields} (names : (keys fs).Nodup) :
      (fs.map fun field => (field.1, canonical field.2)).Nodup :=
    List.Nodup.of_map Prod.fst (by simpa [keys, Function.comp_def] using names)
  rw [canonical_obj_eq_iff distinct, List.perm_ext_iff_of_nodup (pairs distinct) (pairs distinct')]
  rintro ⟨key, value⟩
  have member {fs : Fields} (names : (keys fs).Nodup) :
      (key, value) ∈ fs.map (fun field => (field.1, canonical field.2)) ↔
        (fs.lookup key).map canonical = some value := by
    rw [← lookup_map_snd]
    exact ⟨lookup_of_mem ((keys_canonicalFields fs).symm ▸ names), mem_of_lookup⟩
  rw [member distinct, member distinct', same]

/-! ### The shape of a canonical form -/

theorem canonical_eq_null {j : Json} : canonical j = .null ↔ j = .null := by
  cases j <;> simp [canonical]

theorem canonical_eq_bool {j : Json} {b : Bool} : canonical j = .bool b ↔ j = .bool b := by
  cases j <;> simp [canonical]

theorem canonical_eq_num {j : Json} {n : JsNumber} : canonical j = .num n ↔ j = .num n := by
  cases j <;> simp [canonical]

theorem canonical_eq_str {j : Json} {s : JsString} : canonical j = .str s ↔ j = .str s := by
  cases j <;> simp [canonical]

theorem canonical_eq_arr {j : Json} {items : List Json} :
    canonical j = .arr items ↔ ∃ values, j = .arr values ∧ values.map canonical = items := by
  cases j <;> simp [canonical, canonicalItems_eq]

theorem canonical_eq_canonical_obj {j : Json} (same : canonical j = canonical (.obj fields)) :
    ∃ other, j = .obj other := by
  cases j <;> simp [canonical] at same
  exact ⟨_, rfl⟩

theorem sortFields_map (f : Json → Json) (fields : Fields) :
    sortFields (fields.map fun field => (field.1, f field.2)) =
      (sortFields fields).map fun field => (field.1, f field.2) := by
  exact (List.map_insertionSort nameLe nameLe (fun field => (field.1, f field.2)) fields
    fun _ _ _ _ => Iff.rfl).symm

theorem sortFields_sortFields (fields : Fields) : sortFields (sortFields fields) = sortFields fields :=
  List.Pairwise.insertionSort_eq (r := nameLe) (sortFields_sorted fields)

@[simp] theorem canonical_canonical (j : Json) : j.canonical.canonical = j.canonical := by
  induction j using Json.induction with
  | null | bool | num | str => rfl
  | arr items ih => simpa [canonical_arr] using ih
  | obj fields ih =>
    have again : ((fields.map fun field => (field.1, canonical field.2)).map
        fun field => (field.1, canonical field.2)) = fields.map fun field => (field.1, canonical field.2) := by
      rw [List.map_map]
      exact List.map_congr_left fun field member => by simp [ih field member]
    rw [canonical_obj, canonical_obj, ← sortFields_map canonical, again, sortFields_sortFields]

theorem canonical_roundTrip (j : Json) : j.roundTrip.canonical = j.canonical.roundTrip := by
  induction j using Json.induction with
  | null | bool | num | str => rfl
  | arr items ih => simpa [canonical_arr] using ih
  | obj fields ih =>
    have commute : ((fields.map fun field => (field.1, roundTrip field.2)).map
        fun field => (field.1, canonical field.2)) =
        (fields.map fun field => (field.1, canonical field.2)).map fun field => (field.1, roundTrip field.2) := by
      rw [List.map_map, List.map_map]
      exact List.map_congr_left fun field member => by simp [ih field member]
    rw [roundTrip_obj, canonical_obj, commute, sortFields_map roundTrip, canonical_obj, roundTrip_obj]

@[simp] theorem wellFormed_canonical (j : Json) : j.canonical.wellFormed = j.wellFormed := by
  induction j using Json.induction with
  | null | bool | num | str => rfl
  | arr items ih =>
    rw [Bool.eq_iff_iff]
    simp only [canonical_arr, wellFormed_arr, List.forall_mem_map]
    exact forall₂_congr fun item member => by rw [ih item member]
  | obj fields ih =>
    have perm := sortFields_perm (fields.map fun field => (field.1, canonical field.2))
    have names : (keys (sortFields (fields.map fun field => (field.1, canonical field.2)))).Perm (keys fields) :=
      (perm.map Prod.fst).trans (keys_canonicalFields fields ▸ List.Perm.refl _)
    rw [Bool.eq_iff_iff, canonical_obj, wellFormed_obj, wellFormed_obj, names.nodup_iff]
    refine and_congr_right fun _ => ?_
    simp only [perm.mem_iff, List.forall_mem_map]
    exact forall₂_congr fun field member => by rw [ih field member]

theorem wellFormed_congr {j k : Json} (same : j.canonical = k.canonical) : j.wellFormed = k.wellFormed := by
  rw [← wellFormed_canonical j, same, wellFormed_canonical]

end Json

end Js

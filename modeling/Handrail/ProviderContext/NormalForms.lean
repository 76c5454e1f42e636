import Handrail.Js.JsonReading
import Handrail.ProviderContext.Normalization

/-!
# Normal forms

What `normalizeJson` makes of a value, the limits apart: a value in its own canonical form, which depends on neither the order
of fields nor the sign of zero.
-/

namespace Handrail.ProviderContext
open Js Conversation

variable [UnicodeForms]

omit [UnicodeForms] in
/-- The fields but `__proto__`. -/
def ownFields (fields : Fields) : Fields := fields.filter fun field => field.1 ≠ js "__proto__"

mutual
def normalForm : Json → Json
  | .num x => .num x.roundTrip
  | .str s => .str (UnicodeForms.normalize s)
  | .arr items => .arr (normalItems items)
  | .obj fields => .obj (ownFields (Json.sortFields (normalFields fields)))
  | j => j
termination_by structural j => j
def normalItems : List Json → List Json
  | [] => []
  | item :: rest => normalForm item :: normalItems rest
termination_by structural items => items
def normalFields : Fields → Fields
  | [] => []
  | (key, value) :: rest => (key, normalForm value) :: normalFields rest
termination_by structural fields => fields
end

theorem normalItems_eq (items : List Json) : normalItems items = items.map normalForm := by
  induction items with
  | nil => rfl
  | cons item rest ih => rw [normalItems, ih, List.map_cons]

theorem normalFields_eq (fields : Fields) : normalFields fields = fields.map fun field => (field.1, normalForm field.2) := by
  induction fields with
  | nil => rfl
  | cons field rest ih =>
    obtain ⟨key, value⟩ := field
    rw [normalFields, ih, List.map_cons]

theorem normalForm_arr (items : List Json) : normalForm (.arr items) = .arr (items.map normalForm) := by
  rw [normalForm, normalItems_eq]

theorem normalForm_obj (fields : Fields) :
    normalForm (.obj fields) = .obj (ownFields (Json.sortFields (fields.map fun field => (field.1, normalForm field.2)))) := by
  rw [normalForm, normalFields_eq]

/-! ### What a visit returns -/

theorem settingFields_eq (path : JsString) (depth : Nat) (fields : Fields) :
    settingFields path depth fields =
      fields.map fun field => (field.1, settingVisit (path ++ js "." ++ field.1) (depth + 1) field.2) := by
  induction fields with
  | nil => rfl
  | cons field rest ih =>
    obtain ⟨key, value⟩ := field
    rw [settingFields, ih, List.map_cons]

theorem settingItems_ok {path : JsString} {depth index nodes total : Nat} {items values : List Json}
    (each : ∀ item ∈ items, ∀ path depth nodes value total, settingVisit path depth item nodes = .ok (value, total) →
      value = normalForm item ∧ item.wellFormed = true)
    (visited : settingItems path depth index items nodes = .ok (values, total)) :
    values = items.map normalForm ∧ ∀ item ∈ items, item.wellFormed = true := by
  induction items generalizing index nodes values total with
  | nil =>
    cases visited
    exact ⟨rfl, by simp⟩
  | cons item rest ih =>
    rw [settingItems] at visited
    obtain ⟨⟨value, seen⟩, first, visited⟩ := bind_eq_ok.mp visited
    obtain ⟨⟨others, all⟩, later, visited⟩ := bind_eq_ok.mp visited
    cases visited
    obtain ⟨rfl, formed⟩ := each item List.mem_cons_self _ _ _ _ _ first
    obtain ⟨rfl, forms⟩ := ih (fun other member => each other (List.mem_cons_of_mem _ member)) later
    exact ⟨rfl, List.forall_mem_cons.mpr ⟨formed, forms⟩⟩

omit [UnicodeForms] in
theorem visitSettings_ok {path : JsString} {nodes total : Nat} {fields : Fields} {visits : List (JsString × SettingVisit Json)}
    {values : Fields} (form : JsString × Json → Json)
    (each : List.Forall₂ (fun visit field => visit.1 = field.1 ∧ ∀ nodes value total, visit.2 nodes = .ok (value, total) →
      value = form field ∧ field.2.wellFormed = true) visits fields)
    (visited : visitSettings path visits nodes = .ok (values, total)) :
    values = ownFields (fields.map fun field => (field.1, form field)) ∧ ∀ field ∈ fields, field.2.wellFormed = true := by
  induction each generalizing nodes values total with
  | nil =>
    cases visited
    exact ⟨rfl, by simp⟩
  | @cons visit field visits fields head _ ih =>
    obtain ⟨key, run⟩ := visit
    obtain ⟨rfl, returns⟩ := head
    rw [visitSettings] at visited
    obtain ⟨_, _, visited⟩ := bind_eq_ok.mp visited
    obtain ⟨⟨value, seen⟩, first, visited⟩ := bind_eq_ok.mp visited
    obtain ⟨⟨others, all⟩, later, visited⟩ := bind_eq_ok.mp visited
    cases visited
    obtain ⟨rfl, formed⟩ := returns _ _ _ first
    obtain ⟨rfl, forms⟩ := ih later
    refine ⟨?_, List.forall_mem_cons.mpr ⟨formed, forms⟩⟩
    unfold ownFields
    rw [List.map_cons, List.filter_cons]
    by_cases proto : field.1 = js "__proto__"
    · simp [proto]
    · simp [proto]

theorem settingVisit_ok {path : JsString} {depth nodes total : Nat} {value normalized : Json}
    (visited : settingVisit path depth value nodes = .ok (normalized, total)) :
    normalized = normalForm value ∧ value.wellFormed = true := by
  induction value using Json.induction generalizing path depth nodes normalized total with
  | null | bool | num =>
    rw [settingVisit] at visited
    obtain ⟨_, _, visited⟩ := bind_eq_ok.mp visited
    cases visited
    exact ⟨rfl, rfl⟩
  | str s =>
    rw [settingVisit] at visited
    obtain ⟨_, _, visited⟩ := bind_eq_ok.mp visited
    obtain ⟨text, read, visited⟩ := bind_eq_ok.mp visited
    cases visited
    rw [under_eq_ok] at read
    have same := safeString_eq_ok.mp read
    cases same
    exact ⟨rfl, rfl⟩
  | arr items ih =>
    rw [settingVisit] at visited
    obtain ⟨_, _, visited⟩ := bind_eq_ok.mp visited
    split at visited
    · cases visited
    obtain ⟨⟨values, all⟩, seen, visited⟩ := bind_eq_ok.mp visited
    cases visited
    obtain ⟨rfl, forms⟩ := settingItems_ok (fun item member _ _ _ _ _ read => ih item member read) seen
    rw [normalForm_arr, Json.wellFormed_arr]
    exact ⟨rfl, forms⟩
  | obj fields ih =>
    rw [settingVisit] at visited
    obtain ⟨_, _, visited⟩ := bind_eq_ok.mp visited
    obtain ⟨source, read, visited⟩ := bind_eq_ok.mp visited
    rw [under_eq_ok, record_eq_ok] at read
    obtain ⟨same, distinct⟩ := read
    cases same
    split at visited
    · cases visited
    obtain ⟨⟨values, all⟩, seen, visited⟩ := bind_eq_ok.mp visited
    cases visited
    -- The visits run in the order of the sorted fields.
    have sorted : sortVisits (settingFields path depth fields) =
        (Json.sortFields fields).map fun field => (field.1, settingVisit (path ++ js "." ++ field.1) (depth + 1) field.2) := by
      rw [sortVisits, settingFields_eq, Json.sortFields, List.map_insertionSort Json.nameLe fun a b => a.1 ≤ b.1]
      exact fun a _ b _ => Iff.rfl
    rw [sorted] at seen
    have each : List.Forall₂ (fun visit field => visit.1 = field.1 ∧ ∀ nodes value total, visit.2 nodes = .ok (value, total) →
        value = normalForm field.2 ∧ field.2.wellFormed = true)
        ((Json.sortFields fields).map fun field => (field.1, settingVisit (path ++ js "." ++ field.1) (depth + 1) field.2))
        (Json.sortFields fields) := by
      rw [List.forall₂_map_left_iff, List.forall₂_same]
      exact fun field member => ⟨rfl, fun _ _ _ read => ih field ((Json.sortFields_perm fields).mem_iff.mp member) read⟩
    obtain ⟨rfl, forms⟩ := visitSettings_ok (fun field => normalForm field.2) each seen
    rw [normalForm_obj, Json.sortFields_map, Json.wellFormed_obj]
    exact ⟨rfl, distinct, fun field member => forms field ((Json.sortFields_perm fields).mem_iff.mpr member)⟩

/-! ### Order and sign do not count -/

theorem normalForm_roundTrip (value : Json) : normalForm value.roundTrip = normalForm value := by
  induction value using Json.induction with
  | null | bool | str => rfl
  | num x => rw [Json.roundTrip_num, normalForm, normalForm, JsNumber.roundTrip_roundTrip]
  | arr items ih =>
    rw [Json.roundTrip_arr, normalForm_arr, normalForm_arr, List.map_map]
    exact congrArg _ (List.map_congr_left ih)
  | obj fields ih =>
    rw [Json.roundTrip_obj, normalForm_obj, normalForm_obj, List.map_map]
    have same : (fields.map ((fun field => (field.1, normalForm field.2)) ∘ fun field => (field.1, field.2.roundTrip))) =
        fields.map fun field => (field.1, normalForm field.2) :=
      List.map_congr_left fun field member => by rw [Function.comp_apply, ih field member]
    rw [same]

theorem keys_normalFields (fields : Fields) :
    Json.keys (fields.map fun field => (field.1, normalForm field.2)) = Json.keys fields := by
  simp [Json.keys, Function.comp_def]

theorem normalForm_canonical {value : Json} (formed : value.wellFormed = true) :
    normalForm value.canonical = normalForm value := by
  induction value using Json.induction with
  | null | bool | str | num => rfl
  | arr items ih =>
    rw [Json.wellFormed_arr] at formed
    rw [Json.canonical_arr, normalForm_arr, normalForm_arr, List.map_map]
    exact congrArg _ (List.map_congr_left fun item member => ih item member (formed item member))
  | obj fields ih =>
    obtain ⟨distinct, formed⟩ := Json.wellFormed_obj.mp formed
    have same : (fields.map fun field => (field.1, field.2.canonical)).map (fun field => (field.1, normalForm field.2)) =
        fields.map fun field => (field.1, normalForm field.2) := by
      rw [List.map_map]
      exact List.map_congr_left fun field member => by rw [Function.comp_apply, ih field member (formed field member)]
    have perm : ((Json.sortFields (fields.map fun field => (field.1, field.2.canonical))).map fun field =>
        (field.1, normalForm field.2)).Perm (fields.map fun field => (field.1, normalForm field.2)) := by
      rw [← same]
      exact (Json.sortFields_perm _).map _
    rw [Json.canonical_obj, normalForm_obj, normalForm_obj]
    refine congrArg _ (congrArg _ (Json.sortFields_congr ?_ perm))
    have names := keys_normalFields fields
    unfold Json.keys at names ⊢
    rw [(perm.map Prod.fst).nodup_iff, names]
    exact distinct

omit [UnicodeForms] in
def unordered (value : Json) : Json := value.roundTrip.canonical

theorem normalForm_unordered {value : Json} (formed : value.wellFormed = true) :
    normalForm (unordered value) = normalForm value := by
  rw [unordered, normalForm_canonical (by rw [Json.wellFormed_roundTrip, formed]), normalForm_roundTrip]

/-- Values that differ in the order of fields and the sign of zero have one normal form. -/
theorem normalForm_congr {a b : Json} (left : a.wellFormed = true) (right : b.wellFormed = true)
    (same : unordered a = unordered b) : normalForm a = normalForm b := by
  rw [← normalForm_unordered left, same, normalForm_unordered right]

omit [UnicodeForms] in
theorem ownFields_sorted {fields : Fields} :
    Json.sortFields (ownFields (Json.sortFields fields)) = ownFields (Json.sortFields fields) :=
  List.Pairwise.insertionSort_eq (List.Pairwise.sublist List.filter_sublist (Json.sortFields_sorted fields))

theorem unordered_normalForm (value : Json) :
    (normalForm value).roundTrip = normalForm value ∧ (normalForm value).canonical = normalForm value := by
  induction value using Json.induction with
  | null | bool | str => exact ⟨rfl, rfl⟩
  | num x =>
    rw [normalForm, Json.roundTrip_num, JsNumber.roundTrip_roundTrip]
    exact ⟨rfl, rfl⟩
  | arr items ih =>
    rw [normalForm_arr, Json.roundTrip_arr, Json.canonical_arr, List.map_map, List.map_map]
    exact ⟨congrArg _ (List.map_congr_left fun item member => (ih item member).1),
      congrArg _ (List.map_congr_left fun item member => (ih item member).2)⟩
  | obj fields ih =>
    have inner (f : Json → Json) (fixed : ∀ field ∈ fields, f (normalForm field.2) = normalForm field.2) :
        (ownFields (Json.sortFields (fields.map fun field => (field.1, normalForm field.2)))).map
          (fun field => (field.1, f field.2)) =
          ownFields (Json.sortFields (fields.map fun field => (field.1, normalForm field.2))) := by
      refine (List.map_congr_left fun field member => ?_).trans (List.map_id _)
      have inside := (Json.sortFields_perm _).mem_iff.mp (List.mem_of_mem_filter member)
      obtain ⟨other, origin, rfl⟩ := List.mem_map.mp inside
      exact Prod.ext rfl (fixed other origin)
    rw [normalForm_obj, Json.roundTrip_obj, Json.canonical_obj, inner Json.roundTrip fun field member => (ih field member).1,
      inner Json.canonical fun field member => (ih field member).2, ownFields_sorted]
    exact ⟨rfl, rfl⟩

end Handrail.ProviderContext

import Mathlib.Data.List.Perm.Subperm
import Mathlib.Logic.Function.Basic

/-!
# `Map`

A `Map` remembers the order in which its keys were added. `set` leaves a key that is there in its place.
-/

namespace Js

/-- The entries of a `Map`, the oldest key first. -/
structure OrderedMap (κ α : Type) where
  entries : List (κ × α)
  distinct : (entries.map Prod.fst).Nodup

namespace OrderedMap
variable {κ α : Type}

def empty : OrderedMap κ α := ⟨[], List.nodup_nil⟩

def size (m : OrderedMap κ α) : Nat := m.entries.length

/-- `m.keys().next().value` -/
def oldest (m : OrderedMap κ α) : Option κ := m.entries.head?.map Prod.fst

/-- The newest entries, at most `count`. -/
def keepNewest (m : OrderedMap κ α) (count : Nat) : OrderedMap κ α where
  entries := m.entries.drop (m.entries.length - count)
  distinct := m.distinct.sublist ((List.drop_sublist ..).map Prod.fst)

def filterValues (m : OrderedMap κ α) (kind : α → Bool) : OrderedMap κ α where
  entries := m.entries.filter fun entry => kind entry.2
  distinct := m.distinct.sublist (List.filter_sublist.map Prod.fst)

def mapValues (m : OrderedMap κ α) (change : α → α) : OrderedMap κ α where
  entries := m.entries.map fun entry => (entry.1, change entry.2)
  distinct := by
    rw [List.map_map]
    exact m.distinct

theorem ext_entries {m n : OrderedMap κ α} (same : m.entries = n.entries) : m = n := by
  obtain ⟨entries, distinct⟩ := m
  obtain ⟨others, distinct'⟩ := n
  obtain rfl : entries = others := same
  rfl

theorem size_filterValues_le (m : OrderedMap κ α) (kind : α → Bool) : (m.filterValues kind).size ≤ m.size :=
  List.length_filter_le ..

theorem filterValues_mapValues (m : OrderedMap κ α) {kind : α → Bool} {change : α → α}
    (kept : ∀ value, kind (change value) = kind value) :
    (m.mapValues change).filterValues kind = (m.filterValues kind).mapValues change := by
  apply ext_entries
  unfold filterValues mapValues
  simp only [List.filter_map]
  congr 1
  refine List.filter_congr fun entry _ => ?_
  simp [kept]

variable [DecidableEq κ]

def get (m : OrderedMap κ α) (key : κ) : Option α := m.entries.lookup key

def has (m : OrderedMap κ α) (key : κ) : Bool := (m.get key).isSome

def delete (m : OrderedMap κ α) (key : κ) : OrderedMap κ α where
  entries := m.entries.filter fun entry => entry.1 ≠ key
  distinct := m.distinct.sublist (List.filter_sublist.map Prod.fst)

/-- The entries after `set`. -/
def setEntries (key : κ) (value : α) : List (κ × α) → List (κ × α)
  | [] => [(key, value)]
  | entry :: rest => if entry.1 = key then (key, value) :: rest else entry :: setEntries key value rest

theorem keys_setEntries (key : κ) (value : α) (entries : List (κ × α)) :
    (setEntries key value entries).map Prod.fst =
      if key ∈ entries.map Prod.fst then entries.map Prod.fst else entries.map Prod.fst ++ [key] := by
  induction entries with
  | nil => rfl
  | cons entry rest ih =>
    unfold setEntries
    by_cases here : entry.1 = key
    · simp [here]
    · have other : ¬key = entry.1 := fun same => here same.symm
      simp only [here, ↓reduceIte, List.map_cons, ih, List.mem_cons, other, false_or]
      split <;> rfl

def set (m : OrderedMap κ α) (key : κ) (value : α) : OrderedMap κ α where
  entries := setEntries key value m.entries
  distinct := by
    rw [keys_setEntries]
    split
    · exact m.distinct
    · rename_i absent
      refine List.nodup_append.mpr ⟨m.distinct, by simp, fun other member last listed same => ?_⟩
      rw [List.mem_singleton.mp listed] at same
      exact absent (same ▸ member)

/-! ### What is found -/

@[simp] theorem get_empty (key : κ) : (empty : OrderedMap κ α).get key = none := rfl

@[simp] theorem get_set_self (m : OrderedMap κ α) (key : κ) (value : α) : (m.set key value).get key = some value := by
  unfold get set
  simp only
  induction m.entries with
  | nil => simp [setEntries]
  | cons entry rest ih =>
    unfold setEntries
    by_cases here : entry.1 = key
    · simp [here]
    · rw [if_neg here, List.lookup_cons, beq_false_of_ne fun same => here same.symm]
      exact ih

theorem get_set_other (m : OrderedMap κ α) {key other : κ} (value : α) (different : other ≠ key) :
    (m.set key value).get other = m.get other := by
  unfold get set
  simp only
  induction m.entries with
  | nil => simp [setEntries, List.lookup_cons, beq_false_of_ne different]
  | cons entry rest ih =>
    unfold setEntries
    by_cases here : entry.1 = key
    · obtain ⟨first, held⟩ := entry
      obtain rfl : first = key := here
      rw [if_pos rfl, List.lookup_cons, List.lookup_cons, beq_false_of_ne different]
    · rw [if_neg here, List.lookup_cons, List.lookup_cons, ih]

@[simp] theorem get_delete_self (m : OrderedMap κ α) (key : κ) : (m.delete key).get key = none := by
  unfold get delete
  rw [List.lookup_eq_none_iff]
  intro entry member
  have other : entry.1 ≠ key := by simpa using (List.mem_filter.mp member).2
  simpa using Ne.symm other

theorem get_delete_other (m : OrderedMap κ α) {key other : κ} (different : other ≠ key) :
    (m.delete key).get other = m.get other := by
  unfold get delete
  simp only
  induction m.entries with
  | nil => rfl
  | cons entry rest ih =>
    by_cases here : entry.1 = key
    · rw [List.filter_cons_of_neg (by simp [here]), List.lookup_cons, here, beq_false_of_ne different]
      exact ih
    · rw [List.filter_cons_of_pos (by simp [here]), List.lookup_cons, List.lookup_cons, ih]

theorem get_set (m : OrderedMap κ α) (key : κ) (value : α) :
    (m.set key value).get = Function.update m.get key (some value) := by
  funext other
  by_cases same : other = key
  · rw [same, get_set_self, Function.update_self]
  · rw [get_set_other m value same, Function.update_of_ne same]

theorem get_delete (m : OrderedMap κ α) (key : κ) : (m.delete key).get = Function.update m.get key none := by
  funext other
  by_cases same : other = key
  · rw [same, get_delete_self, Function.update_self]
  · rw [get_delete_other m same, Function.update_of_ne same]

variable {m : OrderedMap κ α}

theorem get_of_delete {key other : κ} {value : α} (found : (m.delete key).get other = some value) :
    m.get other = some value := by
  by_cases same : other = key
  · rw [same, get_delete_self] at found
    cases found
  · rwa [get_delete_other m same] at found

variable {key : κ}

theorem get_of_keepNewest {count : Nat} {value : α}
    (found : (m.keepNewest count).get key = some value) : m.get key = some value := by
  obtain ⟨entries, distinct⟩ := m
  simp only [get, keepNewest] at found ⊢
  generalize entries.length - count = dropped at found
  induction entries generalizing dropped with
  | nil =>
    rw [List.drop_nil] at found
    exact found
  | cons entry rest ih =>
    cases dropped with
    | zero => exact found
    | succ dropped =>
      obtain ⟨absent, distinct⟩ := List.nodup_cons.mp distinct
      have later := ih distinct dropped found
      have inside : key ∈ rest.map Prod.fst := by
        by_contra missing
        rw [List.lookup_eq_none_iff.mpr] at later
        · cases later
        · intro other member
          refine bne_iff_ne.mpr fun same => missing ?_
          exact same ▸ List.mem_map_of_mem member
      have different : key ≠ entry.1 := fun same => absent (same ▸ inside)
      rw [List.lookup_cons, beq_false_of_ne different]
      exact later

theorem mem_entries_iff {value : α} :
    (key, value) ∈ m.entries ↔ m.get key = some value := by
  obtain ⟨entries, distinct⟩ := m
  simp only [get]
  induction entries with
  | nil => simp
  | cons entry rest ih =>
    obtain ⟨absent, distinct⟩ := List.nodup_cons.mp distinct
    rw [List.mem_cons, List.lookup_cons]
    by_cases same : key = entry.1
    · subst same
      have later : (entry.1, value) ∉ rest := fun member => absent (List.mem_map.mpr ⟨_, member, rfl⟩)
      simp only [later, or_false, beq_self_eq_true, Option.some.injEq]
      exact ⟨fun whole => by rw [← whole], fun whole => by rw [← whole]⟩
    · have other : (key, value) ≠ entry := fun whole => same (congrArg Prod.fst whole)
      rw [beq_false_of_ne same]
      simpa [other] using ih distinct

/-! ### How many are left -/

theorem has_iff : m.has key = true ↔ key ∈ m.entries.map Prod.fst := by
  rw [has, Option.isSome_iff_exists, List.mem_map]
  constructor
  · rintro ⟨value, found⟩
    exact ⟨(key, value), mem_entries_iff.mpr found, rfl⟩
  · rintro ⟨entry, member, rfl⟩
    exact ⟨entry.2, mem_entries_iff.mp member⟩

theorem size_set (m : OrderedMap κ α) (key : κ) (value : α) :
    (m.set key value).size = if m.has key then m.size else m.size + 1 := by
  have lengths := congrArg List.length (keys_setEntries key value m.entries)
  simp only [has_iff]
  split at lengths
  · rename_i inside
    rw [List.length_map, List.length_map] at lengths
    rw [if_pos inside]
    exact lengths
  · rename_i absent
    rw [List.length_map, List.length_append, List.length_map, List.length_singleton] at lengths
    rw [if_neg absent]
    exact lengths

theorem size_delete_le (m : OrderedMap κ α) (key : κ) : (m.delete key).size ≤ m.size := List.length_filter_le ..

theorem size_le_of_keys {keys : List κ} (inside : ∀ key value, m.get key = some value → key ∈ keys) :
    m.size ≤ keys.length := by
  have among : m.entries.map Prod.fst ⊆ keys := by
    intro key member
    cases found : m.get key with
    | some value => exact inside key value found
    | none =>
      obtain ⟨entry, listed, rfl⟩ := List.mem_map.mp member
      have absent := List.lookup_eq_none_iff.mp found entry listed
      simp at absent
  have fits := (List.subperm_of_subset m.distinct among).length_le
  rwa [List.length_map] at fits

theorem size_delete (there : m.has key = true) : (m.delete key).size + 1 = m.size := by
  obtain ⟨entry, member, same⟩ := List.mem_map.mp (has_iff.mp there)
  have fewer : (m.delete key).size < m.size :=
    List.length_filter_lt_length_iff_exists.mpr ⟨entry, member, by simp [same]⟩
  have most : m.size ≤ (key :: (m.delete key).entries.map Prod.fst).length := by
    refine size_le_of_keys fun other value found => ?_
    by_cases here : other = key
    · exact here ▸ List.mem_cons_self
    · refine List.mem_cons_of_mem _ (has_iff.mp ?_)
      rw [has, get_delete_other m here, found]
      rfl
  rw [List.length_cons, List.length_map] at most
  have length : (m.delete key).entries.length = (m.delete key).size := rfl
  omega

/-! ### Entries of a kind -/

theorem entries_set_new (m : OrderedMap κ α) (value : α) (absent : m.get key = none) :
    (m.set key value).entries = m.entries ++ [(key, value)] := by
  have missing : ∀ entry ∈ m.entries, entry.1 ≠ key := by
    intro entry member same
    have found : m.get key = some entry.2 := mem_entries_iff.mp (by rw [← same]; exact member)
    rw [absent] at found
    cases found
  unfold set
  dsimp only
  generalize m.entries = entries at missing
  induction entries with
  | nil => rfl
  | cons entry rest ih =>
    unfold setEntries
    rw [if_neg (missing entry List.mem_cons_self), ih fun other member => missing other (List.mem_cons_of_mem _ member)]
    rfl

theorem get_filterValues {kind : α → Bool} {value : α} :
    (m.filterValues kind).get key = some value ↔ m.get key = some value ∧ kind value = true := by
  rw [← mem_entries_iff, ← mem_entries_iff]
  exact List.mem_filter

theorem get_filterValues_none {kind : α → Bool} (absent : m.get key = none) :
    (m.filterValues kind).get key = none := by
  cases found : (m.filterValues kind).get key with
  | none => rfl
  | some value =>
    have held := (get_filterValues.mp found).1
    rw [absent] at held
    cases held

theorem filterValues_set_new (m : OrderedMap κ α) {kind : α → Bool} (value : α) (absent : m.get key = none) :
    (m.set key value).filterValues kind =
      if kind value then (m.filterValues kind).set key value else m.filterValues kind := by
  apply ext_entries
  have whole : ((m.set key value).filterValues kind).entries =
      (m.entries ++ [(key, value)]).filter fun entry => kind entry.2 := by
    rw [← entries_set_new m value absent]
    rfl
  rw [whole, List.filter_append]
  split
  · rename_i is
    rw [entries_set_new _ value (get_filterValues_none absent), List.filter_singleton, is]
    rfl
  · rename_i is
    have other : kind value = false := by simpa using is
    rw [List.filter_singleton, other]
    exact List.append_nil _

end OrderedMap

end Js

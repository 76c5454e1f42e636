import Mathlib.Data.List.Forall2
import Mathlib.Data.List.Nodup

/-!
# Records in arrays

An array of records in which one record is found by a condition and replaced in place:
`const index = values.findIndex(p); values[index] = value`.
-/

namespace Js

variable {α β : Type}

/-- `values[index] = value` at the first index that satisfies `p`, if there is one. -/
def replaceFirst (p : α → Bool) (value : α) : List α → List α
  | [] => []
  | a :: rest => if p a then value :: rest else a :: replaceFirst p value rest

/-- `map.set(key, value)` on the entries of a `Map`: the entry of the key is replaced in place, or added. -/
def setFirst (p : α → Bool) (value : α) (values : List α) : List α :=
  if values.any p then replaceFirst p value values else values ++ [value]

variable {values : List α} {p : α → Bool}

theorem mem_replaceFirst {value a : α}
    (member : a ∈ replaceFirst p value values) : a = value ∨ a ∈ values := by
  induction values with
  | nil => cases member
  | cons head rest ih =>
    unfold replaceFirst at member
    split at member
    · rcases List.mem_cons.mp member with rfl | later
      · exact .inl rfl
      · exact .inr (List.mem_cons_of_mem _ later)
    · rcases List.mem_cons.mp member with rfl | later
      · exact .inr List.mem_cons_self
      · rcases ih later with same | old
        · exact .inl same
        · exact .inr (List.mem_cons_of_mem _ old)

variable {value : α}

theorem forall_replaceFirst {P : α → Prop}
    (old : ∀ a ∈ values, P a) (new : P value) : ∀ a ∈ replaceFirst p value values, P a := by
  intro a member
  rcases mem_replaceFirst member with rfl | before
  · exact new
  · exact old a before

theorem mem_replaceFirst_self {value current : α}
    (found : values.find? p = some current) : value ∈ replaceFirst p value values := by
  induction values with
  | nil => cases found
  | cons head rest ih =>
    rw [List.find?_cons] at found
    unfold replaceFirst
    split
    · exact List.mem_cons_self
    · rename_i different
      simp only [different] at found
      exact List.mem_cons_of_mem _ (ih found)

theorem mem_replaceFirst_of_mem {value current a : α}
    (found : values.find? p = some current) (member : a ∈ values) (other : a ≠ current) :
    a ∈ replaceFirst p value values := by
  induction values with
  | nil => cases member
  | cons head rest ih =>
    rw [List.find?_cons] at found
    unfold replaceFirst
    split
    · rename_i same
      simp only [same, Option.some.injEq] at found
      rcases List.mem_cons.mp member with rfl | later
      · exact (other found).elim
      · exact List.mem_cons_of_mem _ later
    · rename_i different
      simp only [different] at found
      rcases List.mem_cons.mp member with rfl | later
      · exact List.mem_cons_self
      · exact List.mem_cons_of_mem _ (ih found later)

variable {key : α → β}

theorem map_replaceFirst {value current : α}
    (found : values.find? p = some current) (same : key value = key current) :
    (replaceFirst p value values).map key = values.map key := by
  induction values with
  | nil => rfl
  | cons head rest ih =>
    rw [List.find?_cons] at found
    unfold replaceFirst
    split
    · rename_i matched
      simp only [matched, Option.some.injEq] at found
      rw [List.map_cons, List.map_cons, same, found]
    · rename_i different
      simp only [different] at found
      rw [List.map_cons, List.map_cons, ih found]

theorem replaceFirst_eq_map [DecidableEq β] {k : β}
    (distinct : (values.map key).Nodup) :
    replaceFirst (fun a => key a == k) value values = values.map fun a => if key a = k then value else a := by
  induction values with
  | nil => rfl
  | cons head rest ih =>
    rw [List.map_cons, List.nodup_cons] at distinct
    rw [List.map_cons]
    unfold replaceFirst
    by_cases same : key head = k
    · have others : rest.map (fun a => if key a = k then value else a) = rest := by
        refine (List.map_congr_left fun a member => if_neg fun equal => ?_).trans (List.map_id' rest)
        exact distinct.1 (List.mem_map.mpr ⟨a, member, equal.trans same.symm⟩)
      rw [others, if_pos same, if_pos (beq_iff_eq.mpr same)]
    · rw [if_neg same, if_neg (mt beq_iff_eq.mp same), ih distinct.2]

theorem find?_replaceFirst_self (present : values.any p = true)
    (matched : p value = true) : (replaceFirst p value values).find? p = some value := by
  induction values with
  | nil => cases present
  | cons head rest ih =>
    unfold replaceFirst
    split
    · rw [List.find?_cons_of_pos matched]
    · rename_i different
      rw [List.any_cons, eq_false_of_ne_true different, Bool.false_or] at present
      rw [List.find?_cons_of_neg different, ih present]

theorem find?_replaceFirst_other {p q : α → Bool} (apart : ∀ a, p a = true → q a = false)
    (matched : p value = true) : (replaceFirst p value values).find? q = values.find? q := by
  induction values with
  | nil => rfl
  | cons head rest ih =>
    unfold replaceFirst
    split
    · rename_i same
      rw [List.find?_cons_of_neg (by rw [apart value matched]; decide), List.find?_cons_of_neg (by rw [apart head same]; decide)]
    · rw [List.find?_cons, List.find?_cons, ih]

theorem find?_setFirst [DecidableEq β] {k : β} :
    (setFirst (fun a => key a == key value) value values).find? (fun a => key a == k) =
      if key value = k then some value else values.find? (fun a => key a == k) := by
  have apart (different : key value ≠ k) (a : α) (same : (key a == key value) = true) : (key a == k) = false := by
    rw [beq_iff_eq] at same
    rw [same]
    exact beq_eq_false_iff_ne.mpr different
  unfold setFirst
  split
  · rename_i present
    split
    · rename_i same
      subst same
      exact find?_replaceFirst_self present (beq_self_eq_true _)
    · rename_i different
      exact find?_replaceFirst_other (apart different) (beq_self_eq_true _)
  · rename_i absent
    rw [List.find?_append]
    split
    · rename_i same
      subst same
      rw [List.find?_eq_none.mpr (by simpa using absent)]
      simp
    · rename_i different
      rw [List.find?_cons_of_neg (by simpa using different)]
      simp

theorem nodup_setFirst [DecidableEq β] (distinct : (values.map key).Nodup) :
    ((setFirst (fun a => key a == key value) value values).map key).Nodup := by
  unfold setFirst
  split
  · rename_i present
    obtain ⟨a, inside, same⟩ := List.any_eq_true.mp present
    have found : (values.find? (fun a => key a == key value)).isSome = true := List.find?_isSome.mpr ⟨a, inside, same⟩
    obtain ⟨current, found⟩ := Option.isSome_iff_exists.mp found
    have same := List.find?_some found
    rw [map_replaceFirst found (beq_iff_eq.mp same).symm]
    exact distinct
  · rename_i absent
    rw [List.map_append, List.nodup_append]
    refine ⟨distinct, List.nodup_singleton _, fun k inside k' last same => ?_⟩
    obtain ⟨a, member, rfl⟩ := List.mem_map.mp inside
    rw [List.map_singleton, List.mem_singleton] at last
    exact absent (List.any_eq_true.mpr ⟨a, member, beq_iff_eq.mpr (same.trans last)⟩)

theorem mem_setFirst_self : value ∈ setFirst p value values := by
  unfold setFirst
  split
  · rename_i present
    obtain ⟨current, found⟩ := Option.isSome_iff_exists.mp (List.find?_isSome.mpr (List.any_eq_true.mp present))
    exact mem_replaceFirst_self found
  · exact List.mem_append_right _ List.mem_cons_self

theorem mem_setFirst {value a : α} (member : a ∈ setFirst p value values) :
    a = value ∨ a ∈ values := by
  unfold setFirst at member
  split at member
  · exact mem_replaceFirst member
  · rcases List.mem_append.mp member with old | new
    · exact .inr old
    · exact .inl (List.mem_singleton.mp new)

theorem replaceFirst_map {f : α → α} (blind : ∀ a, p (f a) = p a) (value : α)
    (values : List α) : replaceFirst p (f value) (values.map f) = (replaceFirst p value values).map f := by
  induction values with
  | nil => rfl
  | cons head rest ih =>
    simp only [List.map_cons, replaceFirst, blind]
    split
    · rfl
    · rw [ih, List.map_cons]

theorem find?_map_of_blind {f : α → α} (blind : ∀ a, p (f a) = p a) (values : List α) :
    (values.map f).find? p = (values.find? p).map f := by
  rw [List.find?_map]
  exact congrArg (fun q => (values.find? q).map f) (funext blind)

theorem find?_eq_some_of_unique {a : α} (member : a ∈ values) (holds : p a = true)
    (only : ∀ b ∈ values, p b = true → b = a) : values.find? p = some a := by
  cases found : values.find? p with
  | none => exact (List.find?_eq_none.mp found a member holds).elim
  | some b => rw [only b (List.mem_of_find?_eq_some found) (List.find?_some found)]

theorem eq_of_find? [BEq β] [LawfulBEq β] {k : β} {current a : α}
    (distinct : (values.map key).Nodup) (found : values.find? (fun a => key a == k) = some current)
    (member : a ∈ values) (same : key a = k) : a = current := by
  have here : key current = k := by simpa using List.find?_some found
  exact List.inj_on_of_nodup_map distinct member (List.mem_of_find?_eq_some found) (same.trans here.symm)

/-! ### Later versions of records -/

def Grown (R : α → α → Prop) (before after : List α) : Prop := ∀ a ∈ before, ∃ b ∈ after, R a b

theorem grown_of_subset {R : α → α → Prop} (refl : ∀ a, R a a) {before after : List α} (kept : before ⊆ after) :
    Grown R before after := fun a member => ⟨a, kept member, refl a⟩

theorem grown_replaceFirst {R : α → α → Prop} (refl : ∀ a, R a a) {value current : α}
    (found : values.find? p = some current) (later : R current value) :
    Grown R values (replaceFirst p value values) := by
  intro a member
  by_cases same : a = current
  · exact ⟨value, mem_replaceFirst_self found, same ▸ later⟩
  · exact ⟨a, mem_replaceFirst_of_mem found member same, refl a⟩

/-- Every record of the first array is in the second under its key, and what is there is its later
version. -/
def Keeps (key : α → β) (R : α → α → Prop) (before after : List α) : Prop :=
  ∀ a ∈ before, (∃ b ∈ after, key b = key a) ∧ ∀ b ∈ after, key b = key a → R a b

theorem Grown.keeps {R : α → α → Prop} {before after : List α} (grown : Grown R before after)
    (same : ∀ {a b}, R a b → key b = key a) (distinct : (after.map key).Nodup) : Keeps key R before after := by
  intro a member
  obtain ⟨c, known, later⟩ := grown a member
  refine ⟨⟨c, known, same later⟩, fun b inside named => ?_⟩
  rwa [List.inj_on_of_nodup_map distinct inside known (named.trans (same later).symm)]

theorem eq_map_some {α : Type} {found : List (Option α)} (all : (found.filter Option.isSome).length = found.length) :
    found = (found.filterMap id).map some := by
  have each := List.filter_eq_self.mp (List.filter_sublist.eq_of_length all)
  induction found with
  | nil => rfl
  | cons first rest ih =>
    simp only [List.forall_mem_cons] at each
    obtain ⟨value, rfl⟩ := Option.isSome_iff_exists.mp each.1
    have tail : (rest.filter Option.isSome).length = rest.length := by
      rw [List.filter_eq_self.mpr each.2]
    rw [List.filterMap_cons_some (by rfl), List.map_cons, ← ih tail each.2]

theorem forall₂_mem_left {α β : Type} {R : α → β → Prop} {left : List α} {right : List β}
    (all : List.Forall₂ R left right) {a : α} (inside : a ∈ left) : ∃ b ∈ right, R a b := by
  induction all with
  | nil => cases inside
  | cons here _ ih =>
    rcases List.mem_cons.mp inside with rfl | inside
    · exact ⟨_, List.mem_cons_self .., here⟩
    · obtain ⟨b, member, related⟩ := ih inside
      exact ⟨b, List.mem_cons_of_mem _ member, related⟩

theorem getElem?_concat_cases {last a : α} {i : Nat} (found : (values ++ [last])[i]? = some a) :
    values[i]? = some a ∨ i = values.length ∧ a = last := by
  rcases Nat.lt_trichotomy i values.length with small | same | large
  · rw [List.getElem?_append_left small] at found
    exact .inl found
  · rw [same, List.getElem?_concat_length] at found
    exact .inr ⟨same, (Option.some.inj found).symm⟩
  · rw [List.getElem?_eq_none (by simp; omega)] at found
    cases found

/-! ### Pairs in a list -/

theorem pair_sublist_concat {a b last : α} :
    [a, b].Sublist (values ++ [last]) ↔ [a, b].Sublist values ∨ a ∈ values ∧ b = last := by
  rw [List.sublist_append_iff]
  constructor
  · rintro ⟨front, back, split, inside, tail⟩
    rcases List.sublist_singleton.mp tail with rfl | rfl
    · rw [List.append_nil] at split
      exact .inl (split ▸ inside)
    · obtain ⟨rfl, same⟩ := List.append_inj' (show [a] ++ [b] = front ++ [last] from split) rfl
      exact .inr ⟨List.singleton_sublist.mp inside, List.singleton_inj.mp same⟩
  · rintro (inside | ⟨member, rfl⟩)
    · exact ⟨[a, b], [], by simp, inside, by simp⟩
    · exact ⟨[a], [b], rfl, List.singleton_sublist.mpr member, by simp⟩

theorem pair_sublist_getLast? {a last : α} (member : a ∈ values) (ends : values.getLast? = some last)
    (different : a ≠ last) : [a, last].Sublist values := by
  obtain ⟨front, rfl⟩ := List.getLast?_eq_some_iff.mp ends
  rcases List.mem_append.mp member with inside | here
  · exact pair_sublist_concat.mpr (.inr ⟨inside, rfl⟩)
  · exact (different (List.mem_singleton.mp here)).elim

end Js

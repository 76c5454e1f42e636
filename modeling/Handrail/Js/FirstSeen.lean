import Mathlib.Data.List.Nodup

/-!
# The first record of each key

The records of a list without those whose key an earlier one has.
-/

namespace Js

variable {α κ : Type} [DecidableEq κ] {key : α → κ} {l m : List α} {a : α}

def firstSeen (key : α → κ) : List α → List α
  | [] => []
  | a :: rest => a :: (firstSeen key rest).filter fun b => key b ≠ key a

theorem firstSeen_sublist (key : α → κ) (l : List α) : (firstSeen key l).Sublist l := by
  induction l with
  | nil => exact .slnil
  | cons a rest ih => exact (List.filter_sublist.trans ih).cons_cons a

theorem firstSeen_distinct (key : α → κ) (l : List α) : ((firstSeen key l).map key).Nodup := by
  induction l with
  | nil => exact List.nodup_nil
  | cons a rest ih =>
    refine List.nodup_cons.mpr ⟨?_, (List.filter_sublist.map key).nodup ih⟩
    intro member
    obtain ⟨b, kept, same⟩ := List.mem_map.mp member
    exact of_decide_eq_true (List.mem_filter.mp kept).2 same

theorem firstSeen_key (key : α → κ) (member : a ∈ l) : ∃ b ∈ firstSeen key l, key b = key a := by
  induction l with
  | nil => cases member
  | cons c rest ih =>
    by_cases first : key c = key a
    · exact ⟨c, List.mem_cons_self, first⟩
    · have later : a ∈ rest := (List.mem_cons.mp member).resolve_left fun same => first (by rw [same])
      obtain ⟨b, kept, same⟩ := ih later
      refine ⟨b, List.mem_cons_of_mem _ (List.mem_filter.mpr ⟨kept, ?_⟩), same⟩
      rw [decide_eq_true_eq, same]
      exact Ne.symm first

theorem mem_map_firstSeen {k : κ} : k ∈ (firstSeen key l).map key ↔ k ∈ l.map key := by
  constructor
  · exact fun member => ((firstSeen_sublist key l).map key).subset member
  · intro member
    obtain ⟨a, inside, rfl⟩ := List.mem_map.mp member
    obtain ⟨b, kept, same⟩ := firstSeen_key key inside
    exact same ▸ List.mem_map_of_mem kept

theorem firstSeen_of_distinct (distinct : (l.map key).Nodup) : firstSeen key l = l := by
  induction l with
  | nil => rfl
  | cons a rest ih =>
    obtain ⟨fresh, later⟩ := List.nodup_cons.mp distinct
    rw [firstSeen, ih later, List.filter_eq_self.mpr]
    intro b member
    rw [decide_eq_true_eq]
    exact fun same => fresh (same ▸ List.mem_map_of_mem member)

theorem firstSeen_append (l m : List α) :
    firstSeen key (l ++ m) = firstSeen key l ++ (firstSeen key m).filter fun b => key b ∉ l.map key := by
  induction l with
  | nil => simp [firstSeen]
  | cons a rest ih =>
    rw [List.cons_append, firstSeen, ih, firstSeen, List.filter_append, List.filter_filter, List.cons_append]
    congr 2
    refine List.filter_congr fun b _ => ?_
    simp [eq_comm]

theorem firstSeen_seen (seen : key a ∈ l.map key) : firstSeen key (l ++ a :: m) = firstSeen key (l ++ m) := by
  rw [firstSeen_append, firstSeen_append, firstSeen, List.filter_cons_of_neg (by simpa using seen), List.filter_filter]
  congr 1
  refine List.filter_congr fun b _ => ?_
  by_cases same : key b = key a
  · simp [same, seen]
  · simp [same]

end Js

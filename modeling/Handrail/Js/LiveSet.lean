import Mathlib.Data.List.Nodup

/-!
# `Set` under iteration

A `Set` can change while it is iterated: what is added comes at the end and is visited, what is deleted before its turn is
not. Every entry has a place that no later entry gets, and an iteration knows the places it is past.
-/

namespace Js

/-- The entries of a `Set` with their places, the oldest first. -/
structure LiveSet (α : Type) where
  entries : List (Nat × α)
  /-- The place of the next entry. -/
  fresh : Nat
  sorted : entries.Pairwise fun a b => a.1 < b.1
  bounded : ∀ entry ∈ entries, entry.1 < fresh

namespace LiveSet
variable {α : Type}

def empty : LiveSet α := ⟨[], 0, .nil, by simp⟩

def size (s : LiveSet α) : Nat := s.entries.length

/-- The entry that an iteration at `place` visits next. -/
def next (s : LiveSet α) (place : Nat) : Option (Nat × α) := s.entries.find? fun entry => place ≤ entry.1

/-! ### Iteration -/

variable {s : LiveSet α} {entry : Nat × α}

theorem next_eq_some {place : Nat} (found : s.next place = some entry) :
    entry ∈ s.entries ∧ place ≤ entry.1 ∧ ∀ other ∈ s.entries, place ≤ other.1 → entry.1 ≤ other.1 := by
  obtain ⟨reached, before, after, split, earlier⟩ := List.find?_eq_some_iff_append.mp found
  refine ⟨List.mem_of_find?_eq_some found, by simpa using reached, fun other member ahead => ?_⟩
  have sorted := s.sorted
  rw [split] at member sorted
  rcases List.mem_append.mp member with first | rest
  · have past := earlier other first
    simp at past
    omega
  · rcases List.mem_cons.mp rest with rfl | later
    · exact Nat.le_refl _
    · exact Nat.le_of_lt (List.rel_of_pairwise_cons (List.pairwise_append.mp sorted).2.1 later)

theorem next_eq_none {place : Nat} (none : s.next place = none)
    (member : entry ∈ s.entries) : entry.1 < place := by
  have past := List.find?_eq_none.mp none entry member
  simpa using past

theorem entry_unique {a b : Nat × α} (memberA : a ∈ s.entries) (memberB : b ∈ s.entries)
    (same : a.1 = b.1) : a = b := by
  have places : (s.entries.map Prod.fst).Nodup := by
    rw [List.nodup_iff_pairwise_ne, List.pairwise_map]
    exact s.sorted.imp fun less => Nat.ne_of_lt less
  exact List.inj_on_of_nodup_map places memberA memberB same

theorem size_pos_of_mem (member : entry ∈ s.entries) : s.size ≠ 0 := by
  have positive := List.length_pos_of_mem member
  exact Nat.ne_of_gt positive

/-! ### Changes -/

variable [DecidableEq α]

def has (s : LiveSet α) (value : α) : Bool := s.entries.any fun entry => entry.2 = value

def place (s : LiveSet α) (value : α) : Nat := ((s.entries.find? fun entry => entry.2 = value).map Prod.fst).getD s.fresh

def add (s : LiveSet α) (value : α) : LiveSet α :=
  if s.has value then s
  else
    { entries := s.entries ++ [(s.fresh, value)]
      fresh := s.fresh + 1
      sorted := List.pairwise_append.mpr ⟨s.sorted, List.pairwise_singleton .., fun a member b last => by
        rw [List.mem_singleton.mp last]
        exact s.bounded a member⟩
      bounded := fun entry member => by
        rcases List.mem_append.mp member with before | last
        · exact Nat.lt_succ_of_lt (s.bounded entry before)
        · rw [List.mem_singleton.mp last]
          exact Nat.lt_succ_self _ }

def delete (s : LiveSet α) (value : α) : LiveSet α where
  entries := s.entries.filter fun entry => entry.2 ≠ value
  fresh := s.fresh
  sorted := s.sorted.filter _
  bounded entry member := s.bounded entry (List.mem_filter.mp member).1

/-! ### What is in the set -/

theorem place_of_absent {value : α} (absent : s.has value = false) : s.place value = s.fresh := by
  have none : (s.entries.find? fun entry => entry.2 = value) = none := by
    rw [List.find?_eq_none]
    intro entry member same
    exact absurd (List.any_eq_true.mpr ⟨entry, member, same⟩) (by rw [← has, absent]; decide)
  rw [place, none]
  rfl

theorem mem_add_of_absent {value : α} (absent : s.has value = false) :
    entry ∈ (s.add value).entries ↔ entry ∈ s.entries ∨ entry = (s.fresh, value) := by
  simp [add, absent]

theorem fresh_add_of_absent {value : α} (absent : s.has value = false) :
    (s.add value).fresh = s.fresh + 1 := by simp [add, absent]

theorem mem_delete {value : α} :
    entry ∈ (s.delete value).entries ↔ entry ∈ s.entries ∧ entry.2 ≠ value := by
  simp [delete]

theorem not_has {value : α} (absent : s.has value = false) (member : entry ∈ s.entries) :
    entry.2 ≠ value := by
  intro same
  have present : s.has value = true := List.any_eq_true.mpr ⟨entry, member, decide_eq_true same⟩
  rw [absent] at present
  cases present

end LiveSet

end Js

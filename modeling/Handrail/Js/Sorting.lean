import Mathlib.Data.List.Sort

/-!
# Stable sorting

`Array.prototype.sort` with a comparison that can tie: items that tie keep the order they had.
-/

namespace Js

variable {α : Type} {r : α → α → Prop} [DecidableRel r] [Std.Total r] [IsTrans α r]

omit [Std.Total r] [IsTrans α r] in
theorem filter_insertionSort {p : α → Bool} (alike : ∀ a b, p a = true → p b = true → r a b) (values : List α) :
    (values.insertionSort r).filter p = values.filter p := by
  have sorted : (values.filter p).Pairwise r := by
    apply List.pairwise_of_forall_mem_list
    intro a left b right
    exact alike a b (List.mem_filter.mp left).2 (List.mem_filter.mp right).2
  have inside := (List.sublist_insertionSort sorted List.filter_sublist).filter p
  rw [List.filter_filter] at inside
  simp only [Bool.and_self] at inside
  exact (inside.eq_of_length (((List.perm_insertionSort r values).filter p).length_eq.symm)).symm

theorem insertionSort_congr {values other : List α} (untied : ∀ a ∈ values, ∀ b ∈ values, r a b → r b a → a = b)
    (perm : values.Perm other) : values.insertionSort r = other.insertionSort r := by
  refine List.Perm.eq_of_pairwise (fun a b left right ab ba => ?_) (List.pairwise_insertionSort r values)
    (List.pairwise_insertionSort r other)
    ((List.perm_insertionSort r values).trans (perm.trans (List.perm_insertionSort r other).symm))
  have left := (List.perm_insertionSort r values).mem_iff.mp left
  have right := perm.mem_iff.mpr ((List.perm_insertionSort r other).mem_iff.mp right)
  exact untied a left b right ab ba

theorem eq_of_insertionSort_swap {a b : α} {rest : List α} (ab : r a b) (ba : r b a)
    (same : (a :: b :: rest).insertionSort r = (b :: a :: rest).insertionSort r) : a = b := by
  have reflexive (x : α) : r x x := (Std.Total.total x x).elim id id
  have alike : ∀ x y, decide (r a x ∧ r x a) = true → decide (r a y ∧ r y a) = true → r x y := by
    intro x y left right
    exact IsTrans.trans x a y (decide_eq_true_eq.mp left).2 (decide_eq_true_eq.mp right).1
  have kept := congrArg (List.filter fun x => decide (r a x ∧ r x a)) same
  rw [filter_insertionSort alike, filter_insertionSort alike] at kept
  simp only [List.filter_cons, reflexive, ab, ba, and_self, decide_true, ↓reduceIte, List.cons.injEq] at kept
  exact kept.1

end Js

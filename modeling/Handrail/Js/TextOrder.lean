import Handrail.Js.JsonReading

/-!
# The order of texts

Texts of arrays are compared where the arrays first differ, whatever follows.
-/

namespace Js

theorem append_le_iff {xs ys : List UInt16} (notBefore : ¬xs <+: ys) (notAfter : ¬ys <+: xs) (us vs : List UInt16) :
    xs ++ us ≤ ys ++ vs ↔ xs ≤ ys := by
  induction xs generalizing ys with
  | nil => exact (notBefore List.nil_prefix).elim
  | cons x xs ih =>
    cases ys with
    | nil => exact (notAfter List.nil_prefix).elim
    | cons y ys =>
      simp only [List.cons_append, List.cons_le_cons_iff]
      by_cases same : x = y
      · subst same
        have inner := ih (fun start => notBefore (List.cons_prefix_cons.mpr ⟨rfl, start⟩))
          (fun start => notAfter (List.cons_prefix_cons.mpr ⟨rfl, start⟩))
        simp [inner]
      · simp [same]

theorem append_left_le_iff (xs : List UInt16) {ys zs : List UInt16} : xs ++ ys ≤ xs ++ zs ↔ ys ≤ zs := by
  induction xs with
  | nil => rfl
  | cons x xs ih => simp [List.cons_le_cons_iff, ih]

theorem prefix_text {a b : Json} (start : textUnits a ++ [44] <+: textUnits b ++ [44]) : a.roundTrip = b.roundTrip := by
  obtain ⟨rest, whole⟩ := start
  rw [List.append_assoc] at whole
  exact (textUnits_determined a b _ _ (.inr ⟨44, rest, rfl, rfl⟩) (.inr ⟨44, [], rfl, rfl⟩) whole).1

theorem itemUnits_le_iff {xs ys : List Json} (length : xs.length = ys.length)
    (different : xs.map Json.roundTrip ≠ ys.map Json.roundTrip) (first : Bool) (u v u' v' : Json) (us vs us' vs' : List Json) :
    itemUnits first (xs ++ u :: us) ≤ itemUnits first (ys ++ v :: vs) ↔
      itemUnits first (xs ++ u' :: us') ≤ itemUnits first (ys ++ v' :: vs') := by
  have follows (zs : List Json) (w : Json) (ws : List Json) : ∃ units, itemUnits false (zs ++ w :: ws) = 44 :: units := by
    cases zs with
    | nil => exact ⟨_, rfl⟩
    | cons z zs => exact ⟨_, rfl⟩
  induction xs generalizing ys first with
  | nil =>
    obtain rfl := List.length_eq_zero_iff.mp length.symm
    exact (different rfl).elim
  | cons x xs ih =>
    cases ys with
    | nil => cases length
    | cons y ys =>
      simp only [List.cons_append, itemUnits, List.append_assoc, append_left_le_iff]
      by_cases same : x.roundTrip = y.roundTrip
      · have text : textUnits x = textUnits y := by rw [← textUnits_roundTrip x, same, textUnits_roundTrip]
        rw [text, append_left_le_iff, append_left_le_iff]
        refine ih (Nat.succ.inj length) (fun rest => different ?_) false
        rw [List.map_cons, List.map_cons, same, rest]
      · obtain ⟨a, afterA⟩ := follows xs u us
        obtain ⟨b, afterB⟩ := follows ys v vs
        obtain ⟨a', afterA'⟩ := follows xs u' us'
        obtain ⟨b', afterB'⟩ := follows ys v' vs'
        have decided (p q : List UInt16) :
            textUnits x ++ 44 :: p ≤ textUnits y ++ 44 :: q ↔ textUnits x ++ [44] ≤ textUnits y ++ [44] := by
          rw [List.append_cons, List.append_cons (textUnits y) 44 q]
          exact append_le_iff (fun start => same (prefix_text start)) (fun start => same (prefix_text start).symm) p q
        rw [afterA, afterB, afterA', afterB']
        exact (decided a b).trans (decided a' b').symm

theorem stringify_arr_le {xs ys : List Json} :
    stringify (.arr xs) ≤ stringify (.arr ys) ↔ itemUnits true xs ≤ itemUnits true ys :=
  append_left_le_iff [91]

theorem itemUnits_bool (first : Bool) (xs us vs : List Json) :
    ¬itemUnits first (xs ++ .bool true :: us) ≤ itemUnits first (xs ++ .bool false :: vs) := by
  induction xs generalizing first with
  | nil =>
    simp only [List.nil_append, itemUnits, List.append_assoc, append_left_le_iff]
    intro le
    rcases List.cons_le_cons_iff.mp le with less | ⟨same, -⟩
    · exact absurd less (by decide)
    · exact absurd same (by decide)
  | cons x xs ih =>
    simp only [List.cons_append, itemUnits, List.append_assoc, append_left_le_iff]
    exact ih false

end Js

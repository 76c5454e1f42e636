import Mathlib.Data.List.Basic
import Mathlib.Logic.Function.Basic

/-!
# Slots for attempts

Attempts at a key, and a table that names for each key the attempt that others join. An attempt is entered in the table
some time after it began and taken out when it is over. As long as no attempt begins at a key while one is entering, and
none is over before it is in the table, a key has one attempt at a time, and a key without an entry can be tried again.
-/

namespace Concurrent

inductive Stage where
  /-- The attempt has begun and is not in the table. -/
  | entering
  | stored
  | spent
deriving DecidableEq, Repr

structure Slots (κ : Type) where
  attempts : List (κ × Stage)
  table : κ → Option Nat

namespace Slots
variable {κ : Type} {s : Slots κ} {key : κ} {i j : Nat} {a b : Stage}

def Going (s : Slots κ) (key : κ) (i : Nat) : Prop := ∃ a, s.attempts[i]? = some (key, a) ∧ a ≠ .spent

def Settled (s : Slots κ) (key : κ) : Prop := ∀ i : Nat, s.attempts[i]? ≠ some (key, Stage.entering)

def Free (s : Slots κ) (key : κ) : Prop :=
  ∀ (i : Nat) (a : Stage), s.attempts[i]? = some (key, a) → a = .spent

structure Exclusive (s : Slots κ) : Prop where
  table : ∀ key i, s.table key = some i ↔ s.attempts[i]? = some (key, .stored)
  unique : ∀ key i j, s.Going key i → s.Going key j → i = j

theorem Exclusive.free (exclusive : s.Exclusive) (absent : s.table key = none) (settled : s.Settled key) : s.Free key := by
  intro i a found
  cases a with
  | entering => exact (settled i found).elim
  | stored =>
    rw [(exclusive.table key i).mpr found] at absent
    cases absent
  | spent => rfl

theorem Free.absent (exclusive : s.Exclusive) (free : s.Free key) : s.table key = none := by
  cases held : s.table key with
  | none => rfl
  | some i => cases free i .stored ((exclusive.table key i).mp held)

/-! ### Steps -/

def begin (s : Slots κ) (key : κ) : Slots κ := { s with attempts := s.attempts ++ [(key, .entering)] }

theorem exclusive_begin (exclusive : s.Exclusive) (free : s.Free key) : (s.begin key).Exclusive := by
  have last : ∀ {k : κ} {i : Nat} {a : Stage}, (s.begin key).attempts[i]? = some (k, a) →
      s.attempts[i]? = some (k, a) ∨ i = s.attempts.length ∧ k = key ∧ a = .entering := by
    intro k i a found
    rcases Nat.lt_trichotomy i s.attempts.length with small | same | large
    · rw [begin, List.getElem?_append_left small] at found
      exact .inl found
    · rw [begin, same, List.getElem?_concat_length] at found
      obtain ⟨rfl, rfl⟩ := Prod.mk.inj (Option.some.inj found)
      exact .inr ⟨same, rfl, rfl⟩
    · rw [begin, List.getElem?_eq_none (by simp; omega)] at found
      cases found
  have kept : ∀ {k : κ} {i : Nat} {a : Stage}, s.attempts[i]? = some (k, a) → (s.begin key).attempts[i]? = some (k, a) := by
    intro k i a found
    obtain ⟨small, -⟩ := List.getElem?_eq_some_iff.mp found
    rw [begin, List.getElem?_append_left small]
    exact found
  constructor
  · intro k i
    rw [show (s.begin key).table k = s.table k from rfl, exclusive.table]
    constructor
    · exact kept
    · intro found
      rcases last found with before | ⟨-, -, new⟩
      · exact before
      · cases new
  · rintro k i j ⟨a, atI, goingI⟩ ⟨b, atJ, goingJ⟩
    rcases last atI with beforeI | ⟨rfl, rfl, -⟩ <;> rcases last atJ with beforeJ | ⟨rfl, sameJ, -⟩
    · exact exclusive.unique k i j ⟨a, beforeI, goingI⟩ ⟨b, beforeJ, goingJ⟩
    · subst sameJ
      exact (goingI (free i a beforeI)).elim
    · exact (goingJ (free j b beforeJ)).elim
    · rfl

variable [DecidableEq κ]

/-- Attempt `i` at the key moves on, and the entry of the key becomes `entry`. -/
def move (s : Slots κ) (key : κ) (i : Nat) (a : Stage) (entry : Option Nat) : Slots κ where
  attempts := s.attempts.set i (key, a)
  table := Function.update s.table key entry

theorem table_move_self {entry : Option Nat} : (s.move key i a entry).table key = entry := Function.update_self ..

theorem table_move_other {entry : Option Nat} {other : κ} (different : other ≠ key) :
    (s.move key i a entry).table other = s.table other := Function.update_of_ne different ..

theorem getElem?_move {entry : Option Nat} (found : s.attempts[i]? = some (key, b)) (j : Nat) :
    (s.move key i a entry).attempts[j]? = if i = j then some (key, a) else s.attempts[j]? := by
  obtain ⟨small, -⟩ := List.getElem?_eq_some_iff.mp found
  rw [move, List.getElem?_set]
  by_cases here : i = j
  · subst here
    simp [small]
  · simp [here]

/-- An attempt that is not over moves on: it is in the table exactly when it is stored. -/
theorem exclusive_move (exclusive : s.Exclusive) {entry : Option Nat} (found : s.attempts[i]? = some (key, b))
    (going : b ≠ .spent) (entered : ∀ j, entry = some j ↔ j = i ∧ a = .stored) : (s.move key i a entry).Exclusive := by
  have only : ∀ {j : Nat} {c : Stage}, s.attempts[j]? = some (key, c) → c ≠ .spent → j = i := by
    intro j c foundJ goingJ
    exact exclusive.unique key j i ⟨c, foundJ, goingJ⟩ ⟨b, found, going⟩
  constructor
  · intro k j
    rw [getElem?_move found]
    by_cases same : k = key
    · subst same
      rw [table_move_self, entered]
      by_cases here : i = j
      · rw [if_pos here, Option.some_inj, Prod.mk.injEq]
        exact ⟨fun both => ⟨rfl, both.2⟩, fun both => ⟨here.symm, both.2⟩⟩
      · rw [if_neg here]
        refine ⟨fun both => (here both.1.symm).elim, fun stored => ?_⟩
        exact (here (only stored (by decide)).symm).elim
    · rw [table_move_other same, exclusive.table]
      by_cases here : i = j
      · subst here
        rw [if_pos rfl, found]
        constructor
        · intro stored
          cases stored
          exact (same rfl).elim
        · intro stored
          cases stored
          exact (same rfl).elim
      · rw [if_neg here]
  · rintro k j l ⟨c, atJ, goingJ⟩ ⟨d, atL, goingL⟩
    rw [getElem?_move found] at atJ atL
    by_cases hereJ : i = j <;> by_cases hereL : i = l
    · exact hereJ.symm.trans hereL
    · rw [if_pos hereJ] at atJ
      rw [if_neg hereL] at atL
      cases atJ
      exact (hereL (only atL goingL).symm).elim
    · rw [if_neg hereJ] at atJ
      rw [if_pos hereL] at atL
      cases atL
      exact (hereJ (only atJ goingJ).symm).elim
    · rw [if_neg hereJ] at atJ
      rw [if_neg hereL] at atL
      exact exclusive.unique k j l ⟨c, atJ, goingJ⟩ ⟨d, atL, goingL⟩

theorem exclusive_store (exclusive : s.Exclusive) (found : s.attempts[i]? = some (key, .entering)) :
    (s.move key i .stored (some i)).Exclusive :=
  exclusive_move exclusive found (by decide) fun j => by
    constructor
    · intro same
      exact ⟨(Option.some.inj same).symm, rfl⟩
    · intro both
      rw [both.1]

theorem exclusive_finish (exclusive : s.Exclusive) (found : s.attempts[i]? = some (key, .stored)) :
    (s.move key i .spent none).Exclusive :=
  exclusive_move exclusive found (by decide) fun j => by
    constructor
    · intro same
      cases same
    · intro both
      cases both.2

theorem free_finish (exclusive : s.Exclusive) (found : s.attempts[i]? = some (key, .stored)) :
    (s.move key i .spent none).Free key := by
  intro j c foundJ
  rw [getElem?_move found] at foundJ
  by_cases here : i = j
  · rw [if_pos here] at foundJ
    cases foundJ
    rfl
  · rw [if_neg here] at foundJ
    by_contra going
    exact here (exclusive.unique key i j ⟨_, found, by decide⟩ ⟨c, foundJ, going⟩)

end Slots

end Concurrent

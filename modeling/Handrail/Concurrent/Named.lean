import Mathlib.Data.List.Basic
import Mathlib.Logic.Function.Basic

/-!
# Jobs that a table names

Jobs are told apart by their places in a list. A job may be open at a key, and a table names for each key the one job that
is open at it. A job that finds itself unnamed was overtaken.
-/

namespace Concurrent

variable {κ J : Type} {table : κ → Option Nat} {jobs : List J} {openAt : J → Option κ} {key : κ} {i : Nat} {j next : J}

def Names (table : κ → Option Nat) (jobs : List J) (openAt : J → Option κ) : Prop :=
  ∀ key i, table key = some i ↔ ∃ j, jobs[i]? = some j ∧ openAt j = some key

theorem Names.congr {other : κ → Option Nat} (names : Names table jobs openAt) (same : other = table) :
    Names other jobs openAt := same ▸ names

theorem Names.openAt_eq (names : Names table jobs openAt) (found : jobs[i]? = some j) (named : table key = some i) :
    openAt j = some key := by
  obtain ⟨other, same, opened⟩ := (names key i).mp named
  rw [found] at same
  cases same
  exact opened

theorem Names.named (names : Names table jobs openAt) (found : jobs[i]? = some j) (opened : openAt j = some key) :
    table key = some i := (names key i).mpr ⟨j, found, opened⟩

theorem getElem?_set_found (found : jobs[i]? = some j) (k : Nat) :
    (jobs.set i next)[k]? = if i = k then some next else jobs[k]? := by
  obtain ⟨small, -⟩ := List.getElem?_eq_some_iff.mp found
  rw [List.getElem?_set]
  by_cases here : i = k
  · subst here
    simp [small]
  · simp [here]

theorem countP_set_found (found : jobs[i]? = some j) (next : J) (kind : J → Bool) :
    (jobs.set i next).countP kind + (if kind j then 1 else 0) = jobs.countP kind + (if kind next then 1 else 0) := by
  obtain ⟨small, here⟩ := List.getElem?_eq_some_iff.mp found
  have counted : (if kind j then 1 else 0) ≤ jobs.countP kind := by
    split
    · rename_i is
      exact List.one_le_countP_iff.mpr ⟨j, List.mem_of_getElem? found, is⟩
    · exact Nat.zero_le _
  rw [List.countP_set small, here]
  omega

theorem Names.append_closed (names : Names table jobs openAt) (closed : openAt j = none) :
    Names table (jobs ++ [j]) openAt := by
  intro key i
  rw [names key i]
  constructor
  · rintro ⟨other, found, opened⟩
    obtain ⟨small, -⟩ := List.getElem?_eq_some_iff.mp found
    exact ⟨other, by rw [List.getElem?_append_left small, found], opened⟩
  · rintro ⟨other, found, opened⟩
    rcases Nat.lt_trichotomy i jobs.length with small | same | large
    · rw [List.getElem?_append_left small] at found
      exact ⟨other, found, opened⟩
    · rw [same, List.getElem?_concat_length] at found
      cases found
      rw [closed] at opened
      cases opened
    · rw [List.getElem?_eq_none (by simp; omega)] at found
      cases found

theorem Names.keep (names : Names table jobs openAt) (found : jobs[i]? = some j) (same : openAt next = openAt j) :
    Names table (jobs.set i next) openAt := by
  intro key k
  rw [names key k, getElem?_set_found found]
  by_cases here : i = k
  · subst here
    simp [found, same]
  · simp [here]

variable [DecidableEq κ]

theorem Names.opens (names : Names table jobs openAt) (found : jobs[i]? = some j) (closed : openAt j = none)
    (opened : openAt next = some key) (free : table key = none) :
    Names (Function.update table key (some i)) (jobs.set i next) openAt := by
  intro other k
  rw [getElem?_set_found found]
  by_cases same : other = key
  · subst same
    rw [Function.update_self]
    by_cases here : i = k
    · subst here
      simp [opened]
    · have absent : ¬∃ j, jobs[k]? = some j ∧ openAt j = some other := by
        intro held
        rw [(names other k).mpr held] at free
        cases free
      simp [here, absent]
  · rw [Function.update_of_ne same, names other k]
    by_cases here : i = k
    · subst here
      have different : key ≠ other := fun equal => same equal.symm
      simp [found, closed, opened, different]
    · simp [here]

theorem Names.closes (names : Names table jobs openAt) (found : jobs[i]? = some j) (opened : openAt j = some key)
    (closed : openAt next = none) : Names (Function.update table key none) (jobs.set i next) openAt := by
  have named := names.named found opened
  intro other k
  rw [getElem?_set_found found]
  by_cases same : other = key
  · subst same
    rw [Function.update_self]
    by_cases here : i = k
    · subst here
      simp [closed]
    · have absent : ¬∃ j, jobs[k]? = some j ∧ openAt j = some other := by
        intro held
        have twice := (names other k).mpr held
        rw [named] at twice
        exact here (Option.some.inj twice)
      simp [here, absent]
  · rw [Function.update_of_ne same, names other k]
    by_cases here : i = k
    · subst here
      have different : key ≠ other := fun equal => same equal.symm
      simp [found, closed, opened, different]
    · simp [here]

theorem Names.append_open (names : Names table jobs openAt) (opened : openAt j = some key) (free : table key = none) :
    Names (Function.update table key (some jobs.length)) (jobs ++ [j]) openAt := by
  intro other k
  by_cases same : other = key
  · subst same
    rw [Function.update_self]
    rcases Nat.lt_trichotomy k jobs.length with small | here | large
    · have absent : ¬∃ j, jobs[k]? = some j ∧ openAt j = some other := by
        intro held
        rw [(names other k).mpr held] at free
        cases free
      rw [List.getElem?_append_left small]
      simp only [absent, iff_false]
      intro equal
      have := Option.some.inj equal
      omega
    · subst here
      simp [opened]
    · rw [List.getElem?_eq_none (by simp; omega)]
      simp only [Option.some.injEq, reduceCtorEq, false_and, exists_false, iff_false]
      omega
  · rw [Function.update_of_ne same, names other k]
    rcases Nat.lt_trichotomy k jobs.length with small | here | large
    · rw [List.getElem?_append_left small]
    · subst here
      have different : key ≠ other := fun equal => same equal.symm
      simp [opened, different]
    · rw [List.getElem?_eq_none (by omega), List.getElem?_eq_none (by rw [List.length_append, List.length_singleton]; omega)]

end Concurrent
